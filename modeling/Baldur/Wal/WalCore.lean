import Baldur.Lib.Table
import Mathlib.Algebra.GroupWithZero.Nat
import Mathlib.Data.List.Sort
import Mathlib.Data.String.Basic

/-!
The write-ahead log (`audit/wal/`): one process's writer state and the directory its files share. A record is
the entry it decodes to with its serialized length; a torn tail is no record.
-/

namespace Baldur.Wal

structure WalConfig where
  maxFileSizeBytes : Nat := 100 * 1024 * 1024
  maxFiles : Nat := 10
  groupCommitEnabled : Bool := false
  groupCommitMaxEntries : Nat := 100
  recoveryMaxWorkers : Nat := 4

structure WalEntry (α : Type) where
  sequence : Nat
  data : α
  size : Nat
  deriving DecidableEq

/-- `{prefix}_{timestamp}_{pid}.wal`; the timestamp has the resolution of a second. -/
structure FileName where
  timestamp : Nat
  pid : Nat
  deriving DecidableEq

structure WalFile (α : Type) where
  name : FileName
  records : List (WalEntry α)

abbrev WalDir (α : Type) := Table FileName (WalFile α) WalFile.name

def maxRecordSizeBytes : Nat := 10 * 1024 * 1024

def headerSize : Nat := 8

def recordHeaderSize : Nat := 12

def FileName.before (first second : FileName) : Bool :=
  first.timestamp < second.timestamp || first.timestamp = second.timestamp && first.pid.repr ≤ second.pid.repr

def WalFile.length {α : Type} (file : WalFile α) : Nat :=
  headerSize + (file.records.map fun entry => recordHeaderSize + entry.size).sum

structure WriteAheadLog (α : Type) where
  config : WalConfig
  pid : Nat
  dir : WalDir α
  currentFile : Option FileName := none
  sequence : Nat := 0
  totalEntries : Nat := 0
  groupBuffer : List (WalEntry α) := []

inductive RecoverMode
  | runtime
  | startup
  deriving DecidableEq

variable {α : Type}

namespace WalDir

def glob (dir : WalDir α) (mode : RecoverMode) (pid : Nat) : List (WalFile α) :=
  (dir.entries.filter fun file => mode = .startup || file.name.pid = pid).insertionSort
    fun first second => first.name.before second.name = true

def records (dir : WalDir α) (name : FileName) : List (WalEntry α) :=
  match dir.find name with
  | none => []
  | some file => file.records

def append (dir : WalDir α) (name : FileName) (entries : List (WalEntry α)) : WalDir α :=
  dir.put ⟨name, dir.records name ++ entries⟩

def unlinkAll (dir : WalDir α) (names : List FileName) : WalDir α :=
  names.foldl (fun left name => left.erase name) dir

end WalDir

/-- A strict read ends at a record that is too long. -/
def readWalFile (records : List (WalEntry α)) : List (WalEntry α) :=
  records.takeWhile fun entry => entry.size ≤ maxRecordSizeBytes

/-- Behind a record that is too long the bytes are scanned for something that looks like a checksum;
this is what is found in the rest. -/
abbrev Resync (α : Type) := List (WalEntry α) → List (WalEntry α)

def readWalFileBestEffort (resync : Resync α) : List (WalEntry α) → List (WalEntry α)
  | [] => []
  | entry :: rest =>
      if entry.size ≤ maxRecordSizeBytes then entry :: readWalFileBestEffort resync rest else resync rest

def sortBySequence (entries : List (WalEntry α)) : List (WalEntry α) :=
  entries.insertionSort fun first second => first.sequence ≤ second.sequence

/-- `_get_file_max_sequence`: the scan ends at a record that is too long. -/
def fileMaxSequence (records : List (WalEntry α)) : Nat :=
  ((readWalFile records).map WalEntry.sequence).foldl max 0

namespace WriteAheadLog

/-- The sequence goes on from the last file of this process id. -/
def initOrRecover (config : WalConfig) (pid : Nat) (dir : WalDir α) : WriteAheadLog α where
  config := config
  pid := pid
  dir := dir
  sequence := match (dir.glob .runtime pid).getLast? with
    | none => 0
    | some file => ((readWalFile file.records).map WalEntry.sequence).foldl max 0

variable (wal : WriteAheadLog α)

/-- The oldest files of this process beyond the retention cap go. -/
def cleanupOldFiles : WriteAheadLog α :=
  let own := wal.dir.glob .runtime wal.pid
  { wal with dir := wal.dir.unlinkAll ((own.take (own.length - wal.config.maxFiles)).map WalFile.name) }

def rotateFile : WriteAheadLog α :=
  cleanupOldFiles { wal with currentFile := none }

def openName (now : Nat) : FileName :=
  wal.currentFile.getD ⟨now, wal.pid⟩

def store (now : Nat) (entries : List (WalEntry α)) : WriteAheadLog α :=
  let name := wal.openName now
  let written := { wal with
    dir := wal.dir.append name entries
    currentFile := some name
    totalEntries := wal.totalEntries + entries.length }
  if wal.config.maxFileSizeBytes < WalFile.length ⟨name, written.dir.records name⟩ then written.rotateFile
  else written

structure Payload (α : Type) where
  data : α
  size : Nat

def directWrite (now : Nat) (payload : Payload α) : WriteAheadLog α :=
  let entry := ⟨wal.sequence + 1, payload.data, payload.size⟩
  store { wal with sequence := wal.sequence + 1 } now [entry]

def flushBuffer (now : Nat) : WriteAheadLog α :=
  if wal.groupBuffer = [] then wal
  else { wal.store now wal.groupBuffer with groupBuffer := [] }

/-- `due` is the elapsed flush interval. -/
def bufferedWrite (now : Nat) (due : Bool) (payload : Payload α) : WriteAheadLog α :=
  let buffered := { wal with
    sequence := wal.sequence + 1
    groupBuffer := wal.groupBuffer ++ [⟨wal.sequence + 1, payload.data, payload.size⟩] }
  if wal.config.groupCommitMaxEntries ≤ buffered.groupBuffer.length ∨ due then buffered.flushBuffer now
  else buffered

def write (now : Nat) (due : Bool) (payload : Payload α) : WriteAheadLog α :=
  if wal.config.groupCommitEnabled then wal.bufferedWrite now due payload else wal.directWrite now payload

def flushGroupCommit (now : Nat) : WriteAheadLog α :=
  if wal.config.groupCommitEnabled then wal.flushBuffer now else wal

def numbered : (sequence : Nat) → List (Payload α) → List (WalEntry α)
  | _, [] => []
  | sequence, payload :: rest => ⟨sequence + 1, payload.data, payload.size⟩ :: numbered (sequence + 1) rest

/-- Straight to the file, past the group buffer. -/
def batchWriteEntries (now : Nat) (payloads : List (Payload α)) : WriteAheadLog α :=
  if payloads = [] then wal
  else store { wal with sequence := wal.sequence + payloads.length } now (numbered wal.sequence payloads)

/-- A file that parsed would not fit beside those read before it is passed over. -/
def recoverChunked (resync : Resync α) (files : List (WalFile α))
    (lastProcessedSeq available : Nat) : List (WalEntry α) :=
  let read := files.foldl (fun (read : List (WalEntry α) × Nat) file =>
    if available - read.2 < file.length * 3 then read
    else (read.1 ++ (readWalFileBestEffort resync file.records).filter fun entry => lastProcessedSeq < entry.sequence,
      read.2 + file.length * 3)) ([], 0)
  sortBySequence read.1

/-- The memory guard: what is available, when that is known and less than the files would take. -/
def memoryGuard (available : Option Nat) (files : List (WalFile α)) : Option Nat :=
  available.filter fun bytes => bytes < (files.map WalFile.length).sum * 3

def recoverUnprocessed (resync : Resync α) (available : Option Nat)
    (lastProcessedSeq : Nat) (mode : RecoverMode) : List (WalEntry α) :=
  let files := wal.dir.glob mode wal.pid
  match memoryGuard available files with
  | some bytes => recoverChunked resync files lastProcessedSeq bytes
  | none =>
      let read := if min wal.config.recoveryMaxWorkers files.length ≤ 1 then readWalFile
        else readWalFileBestEffort resync
      sortBySequence (files.flatMap fun file =>
        (read file.records).filter fun entry => lastProcessedSeq < entry.sequence)

theorem recoverUnprocessed_roomy {wal : WriteAheadLog α} {resync : Resync α}
    {available : Option Nat} {mode : RecoverMode} (roomy : memoryGuard available (wal.dir.glob mode wal.pid) = none)
    {last : Nat} : wal.recoverUnprocessed resync available last mode = wal.recoverUnprocessed resync none last mode := by
  rw [recoverUnprocessed, recoverUnprocessed, roomy]
  rfl

/-- `_recover_bounded` on the files of an earlier glob: each gives its first `limit` unprocessed entries. -/
def recoverBounded (resync : Resync α) (files : List FileName)
    (lastProcessedSeq limit : Nat) : List (WalEntry α) :=
  (sortBySequence (files.flatMap fun name =>
    ((readWalFileBestEffort resync (wal.dir.records name)).filter fun entry =>
      lastProcessedSeq < entry.sequence).take limit)).take limit

def isLivePeer (alive : Nat → Bool) (name : FileName) : Bool :=
  name.pid ≠ wal.pid && alive name.pid

/-- Files whose entries are all processed go, never the open one. -/
def cleanupProcessed (alive : Nat → Bool) (lastProcessedSeq : Nat) (mode : RecoverMode) : WriteAheadLog α :=
  { wal with
    dir := wal.dir.unlinkAll (((wal.dir.glob mode wal.pid).filter fun file =>
      wal.currentFile ≠ some file.name && !wal.isLivePeer alive file.name &&
        0 < fileMaxSequence file.records && fileMaxSequence file.records ≤ lastProcessedSeq).map WalFile.name) }

end WriteAheadLog

end Baldur.Wal
