import Baldur.Wal.DrainCore
import Baldur.Wal.WalFiles

/-!
The drain delivers every entry before its cursor passes it, and gets through the backlog with deliveries
that succeed, as long as no batch is written past entries in the group buffer.
-/

namespace Baldur.Wal

open WriteAheadLog

open List

variable {due : Bool} {now : Nat} {α : Type} {after : WriteAheadLog α} {payloads : List (Payload α)}
  {payload : Payload α}

inductive Stores (wal after : WriteAheadLog α) (now : Nat) : List (WalEntry α) → Prop
  | nothing (dir : after.dir = wal.dir) (current : after.currentFile = wal.currentFile) : Stores wal after now []
  | appended (entries : List (WalEntry α)) (nonempty : entries ≠ [])
    (dir : after.dir = wal.dir.append (wal.openName now) entries)
      (current : after.currentFile = none ∨ after.currentFile = some (wal.openName now)) :
      Stores wal after now entries

open WriteAheadLog

/-- New entries go behind the buffer, and a beginning of the two goes to the directory. -/
structure Extends (wal after : WriteAheadLog α) (now : Nat) (payloads : List (Payload α))
    (stored : List (WalEntry α)) : Prop where
  pid : after.pid = wal.pid
  config : after.config = wal.config
  sequence : after.sequence = wal.sequence + payloads.length
  stores : Stores wal after now stored
  split : wal.groupBuffer ++ numbered wal.sequence payloads = stored ++ after.groupBuffer

section

variable {wal : WriteAheadLog α} {now : Nat} {entries : List (WalEntry α)}

theorem store_pid (wal : WriteAheadLog α) (now : Nat) (entries : List (WalEntry α)) :
    (wal.store now entries).pid = wal.pid := by
  simp only [store]
  split <;> rfl

theorem store_groupBuffer (wal : WriteAheadLog α) (now : Nat) (entries : List (WalEntry α)) :
    (wal.store now entries).groupBuffer = wal.groupBuffer := by
  simp only [store]
  split <;> rfl

theorem store_dir (roomy : Tracks.StoreRoomy wal now entries) :
    (wal.store now entries).dir = wal.dir.append (wal.openName now) entries := by
  simp only [store]
  split
  · rw [Tracks.rotateFile_eq]
    exact roomy
  · rfl

theorem store_currentFile (wal : WriteAheadLog α) (now : Nat) (entries : List (WalEntry α)) :
    (wal.store now entries).currentFile = none ∨ (wal.store now entries).currentFile = some (wal.openName now) := by
  simp only [store]
  split
  · exact .inl rfl
  · exact .inr rfl

theorem Stores.of_same {counted : WriteAheadLog α} (stores : Stores counted after now entries)
    (dir : counted.dir = wal.dir) (current : counted.currentFile = wal.currentFile) (pid : counted.pid = wal.pid) :
    Stores wal after now entries := by
  have opened : counted.openName now = wal.openName now := by
    rw [openName, openName, current, pid]
  cases stores with
  | nothing sameDir sameCurrent => exact .nothing (sameDir.trans dir) (sameCurrent.trans current)
  | appended _ nonempty newDir newCurrent =>
    rw [opened] at newDir newCurrent
    exact .appended _ nonempty (newDir.trans (by rw [dir])) newCurrent

theorem batchWrite_extends (now : Nat) (empty : wal.groupBuffer = [])
    (roomy : payloads ≠ [] → Tracks.StoreRoomy wal now (numbered wal.sequence payloads)) :
    Extends wal (wal.batchWriteEntries now payloads) now payloads (numbered wal.sequence payloads) := by
  unfold batchWriteEntries
  split
  · rename_i none
    subst none
    exact ⟨rfl, rfl, rfl, .nothing rfl rfl, by simp [numbered]⟩
  · rename_i some
    have numbers : numbered wal.sequence payloads ≠ [] := by
      cases payloads with
      | nil => exact absurd rfl some
      | cons => simp [numbered]
    refine ⟨store_pid _ _ _, store_config _ _ _, store_sequence _ _ _,
      .appended _ numbers (store_dir (roomy some)) (store_currentFile _ _ _), ?_⟩
    rw [store_groupBuffer, empty, nil_append, append_nil]

theorem flushBuffer_extends (roomy : wal.groupBuffer ≠ [] → Tracks.StoreRoomy wal now wal.groupBuffer) :
    Extends wal (wal.flushBuffer now) now [] wal.groupBuffer := by
  unfold flushBuffer
  split
  · rename_i none
    refine ⟨rfl, rfl, rfl, ?_, by simp [none, numbered]⟩
    rw [none]
    exact .nothing rfl rfl
  · rename_i some
    exact ⟨store_pid _ _ _, store_config _ _ _, store_sequence _ _ _,
      .appended _ some (store_dir (roomy some)) (store_currentFile _ _ _), rfl⟩

def storedByWrite (wal : WriteAheadLog α) (due : Bool) (payload : Payload α) : List (WalEntry α) :=
  let entries := wal.groupBuffer ++ numbered wal.sequence [payload]
  if wal.config.groupCommitEnabled = true ∧
    ¬ (wal.config.groupCommitMaxEntries ≤ entries.length ∨ due = true) then [] else entries

theorem write_extends (now : Nat) (ungrouped : wal.config.groupCommitEnabled = false → wal.groupBuffer = [])
    (roomy : storedByWrite wal due payload ≠ [] → Tracks.StoreRoomy wal now (storedByWrite wal due payload)) :
    Extends wal (wal.write now due payload) now [payload] (storedByWrite wal due payload) := by
  unfold storedByWrite at roomy ⊢
  unfold write
  cases grouped : wal.config.groupCommitEnabled with
  | false =>
    have empty := ungrouped grouped
    simp only [grouped, Bool.false_eq_true, false_and, if_false, empty, nil_append] at roomy ⊢
    rw [directWrite_eq]
    exact batchWrite_extends now empty fun _ => roomy (by simp [numbered])
  | true =>
    simp only [grouped, true_and, if_true, bufferedWrite, numbered] at roomy ⊢
    by_cases due : wal.config.groupCommitMaxEntries ≤
        (wal.groupBuffer ++ [(⟨wal.sequence + 1, payload.data, payload.size⟩ : WalEntry α)]).length ∨ due = true
    · rw [if_neg (not_not_intro due)] at roomy ⊢
      have flushed : Extends { wal with
          sequence := wal.sequence + 1
          groupBuffer := wal.groupBuffer ++ [⟨wal.sequence + 1, payload.data, payload.size⟩] } _ now [] _ :=
        flushBuffer_extends roomy
      rw [if_pos due]
      refine ⟨flushed.pid, flushed.config, flushed.sequence, flushed.stores.of_same rfl rfl rfl, ?_⟩
      exact (append_nil _).symm.trans flushed.split
    · rw [if_pos due, if_neg due]
      exact ⟨rfl, rfl, rfl, .nothing rfl rfl, rfl⟩

end

/-- Listed files hold a beginning of what is unprocessed, and a listed file is written to only while every file is
listed. -/
structure Listing (wal : WriteAheadLog α) (disk : List (WalEntry α)) (cursor : Nat) (files : List FileName) : Prop where
  own : ∀ name ∈ files, name.pid = wal.pid
  distinct : files.Nodup
  closed : ∀ name ∈ files, ∀ entry ∈ wal.dir.records name, ∀ other ∈ disk, cursor < other.sequence →
    other.sequence < entry.sequence → ∃ listed ∈ files, other ∈ wal.dir.records listed
  current : ∀ name, wal.currentFile = some name → name ∈ files →
    ∀ file ∈ wal.dir.entries, file.name.pid = wal.pid → file.name ∈ files

/-- What is left of a batch, and that it is all there is up to its last entry as long as the cursor may advance. -/
structure BatchOk (written : List (WalEntry α)) (cursor : Nat) (batch : List (WalEntry α)) (advanceOk : Bool) :
    Prop where
  ascending : Ascending batch
  inside : batch ⊆ written
  ahead : advanceOk = true → ∀ entry ∈ batch, cursor < entry.sequence
  closed : advanceOk = true → ∀ entry ∈ batch, ∀ other ∈ written, cursor < other.sequence →
    other.sequence ≤ entry.sequence → other ∈ batch

def StageOk (wal : WriteAheadLog α) (disk written : List (WalEntry α)) (cursor : Nat) : DrainStage α → Prop
  | .idle => True
  | .flushed => True
  | .listed files => Listing wal disk cursor files
  | .syncing batch advanceOk _ => BatchOk written cursor batch advanceOk

structure Draining (drain : Drain α) (disk : List (WalEntry α)) : Prop where
  written : drain.written = disk ++ drain.wal.groupBuffer
  ascending : Ascending drain.written
  bounded : ∀ entry ∈ drain.written, entry.sequence ≤ drain.wal.sequence
  short : ∀ entry ∈ drain.written, entry.size ≤ maxRecordSizeBytes
  tracks : Tracks drain.wal disk drain.lastProcessedSeq
  ungrouped : drain.wal.config.groupCommitEnabled = false → drain.wal.groupBuffer = []
  cursor : drain.lastProcessedSeq ≤ drain.wal.sequence
  safe : ∀ entry ∈ drain.written, entry.sequence ≤ drain.lastProcessedSeq → entry ∈ drain.delivered
  marks : ∀ entry ∈ drain.marked, entry ∈ drain.delivered
  stage : StageOk drain.wal disk drain.written drain.lastProcessedSeq drain.stage

/-- A write that opens a file while a listing is out takes no listed name, unless nothing was opened since. -/
def Drain.Opens (drain : Drain α) (now : Nat) : Prop :=
  ∀ files, drain.stage = .listed files → drain.wal.currentFile = none → drain.wal.openName now ∈ files →
    ∀ file ∈ drain.wal.dir.entries, file.name.pid = drain.wal.pid → file.name ∈ files

section

variable {wal after : WriteAheadLog α} {now cursor : Nat} {disk stored : List (WalEntry α)} {files : List FileName}

theorem records_append (dir : WalDir α) (name other : FileName) (entries : List (WalEntry α)) :
    (dir.append name entries).records other =
      if name = other then dir.records name ++ entries else dir.records other := by
  simp only [WalDir.records, WalDir.append, Table.find_put]
  by_cases same : name = other
  · subst same
    simp
  · simp [same]

theorem Listing.extend (listing : Listing wal disk cursor files) (tracks : Tracks wal disk cursor)
    (stores : Stores wal after now stored) (pid : after.pid = wal.pid)
    (newer : ∀ old ∈ disk, ∀ entry ∈ stored, old.sequence < entry.sequence)
    (opens : stored ≠ [] → wal.currentFile = none → wal.openName now ∈ files →
      ∀ file ∈ wal.dir.entries, file.name.pid = wal.pid → file.name ∈ files) :
    Listing after (disk ++ stored) cursor files := by
  cases stores with
  | nothing dir current =>
    refine ⟨by rw [pid]; exact listing.own, listing.distinct, ?_, ?_⟩
    · rw [dir, append_nil]
      exact listing.closed
    · rw [dir, current, pid]
      exact listing.current
  | appended _ nonempty dir current =>
    -- If the file written to is listed, then so is every file of the process.
    have all (listed : wal.openName now ∈ files) :
        ∀ file ∈ wal.dir.entries, file.name.pid = wal.pid → file.name ∈ files := by
      cases open_ : wal.currentFile with
      | none => exact opens nonempty open_ listed
      | some name =>
        have same : wal.openName now = name := by simp [openName, open_]
        exact listing.current name open_ (same ▸ listed)
    refine ⟨by rw [pid]; exact listing.own, listing.distinct, ?_, ?_⟩
    · intro name isListed entry inside other written late before
      rw [dir] at inside ⊢
      by_cases target : wal.openName now ∈ files
      · rcases mem_append.mp written with old | new
        · obtain ⟨file, present, own, holds⟩ := tracks.complete other old late
          refine ⟨file.name, all target file present own, ?_⟩
          rw [records_append]
          split
          · rename_i same
            rw [same, records_of_mem present]
            exact mem_append_left _ holds
          · rwa [records_of_mem present]
        · refine ⟨_, target, ?_⟩
          rw [records_append, if_pos rfl]
          exact mem_append_right _ new
      · have kept {other : FileName} (isListed : other ∈ files) :
            (wal.dir.append (wal.openName now) stored).records other = wal.dir.records other := by
          rw [records_append, if_neg]
          rintro rfl
          exact target isListed
        rw [kept isListed] at inside
        rcases mem_append.mp written with old | new
        · obtain ⟨listed, isIn, holds⟩ := listing.closed name isListed entry inside other old late before
          exact ⟨listed, isIn, by rwa [kept isIn]⟩
        · have inDisk := (tracks.records_sublist (listing.own name isListed)).subset inside
          exact absurd (newer entry inDisk other new) (by omega)
    · intro name isCurrent listed file present own
      rcases current with none | same
      · rw [none] at isCurrent
        cases isCurrent
      · rw [same] at isCurrent
        cases isCurrent
        rw [dir] at present
        rw [pid] at own
        rcases mem_append_dir.mp present with rfl | ⟨old, _⟩
        · exact listed
        · exact all listed file old own

theorem Tracks.extend {processed : Nat} (tracks : Tracks wal disk processed)
    (extends_ : Extends wal after now payloads stored) (appends : Appends after.sequence disk stored) :
    Tracks after (disk ++ stored) processed := by
  have grows : wal.sequence ≤ after.sequence := by
    rw [extends_.sequence]
    exact Nat.le_add_right _ _
  have counted : Tracks { wal with sequence := after.sequence } disk processed :=
    tracks.counters rfl rfl tracks.own grows
  have opened : (wal.openName now).pid = wal.pid := tracks.openName_pid now
  have pid := extends_.pid
  cases extends_.stores with
  | nothing dir current =>
    rw [append_nil]
    exact counted.counters dir pid (by rw [current]; exact tracks.own) le_rfl
  | appended _ nonempty dir current =>
    refine (counted.store_written now appends).counters dir pid ?_ le_rfl
    intro name isCurrent
    rcases current with none | same
    · rw [none] at isCurrent
      cases isCurrent
    · rw [same] at isCurrent
      cases isCurrent
      exact opened

end

section

variable {cursor : Nat} {entry : WalEntry α} {advanceOk : Bool} {drain : Drain α} {disk : List (WalEntry α)}

section

variable {stage : DrainStage α} (draining : Draining drain disk)

include draining

theorem Draining.extend {stored : List (WalEntry α)} (extends_ : Extends drain.wal after now payloads stored)
    (short : ∀ payload ∈ payloads, payload.size ≤ maxRecordSizeBytes)
    (ungrouped : after.config.groupCommitEnabled = false → after.groupBuffer = [])
    (opens : stored ≠ [] → drain.Opens now) (same : stage = drain.stage ∨ stage = .flushed) :
    Draining { drain with
        wal := after
        stage := stage
        written := drain.written ++ numbered drain.wal.sequence payloads } (disk ++ stored) := by
  have numbers := numbered_bounds drain.wal.sequence payloads
  have sequence := extends_.sequence
  have cursor := draining.cursor
  have parts : drain.written ++ numbered drain.wal.sequence payloads = disk ++ stored ++ after.groupBuffer := by
    rw [draining.written, append_assoc, extends_.split, append_assoc]
  have ascending : Ascending (drain.written ++ numbered drain.wal.sequence payloads) := by
    refine pairwise_append.mpr ⟨draining.ascending, numbered_ascending _ _, ?_⟩
    exact fun old isOld new isNew => (draining.bounded old isOld).trans_lt (numbers new isNew).1
  have bounded : ∀ entry ∈ drain.written ++ numbered drain.wal.sequence payloads, entry.sequence ≤ after.sequence := by
    intro entry member
    rcases mem_append.mp member with old | new
    · have before := draining.bounded entry old
      omega
    · have bounds := numbers entry new
      omega
  have readable : ∀ entry ∈ drain.written ++ numbered drain.wal.sequence payloads, entry.size ≤ maxRecordSizeBytes := by
    intro entry member
    rcases mem_append.mp member with old | new
    · exact draining.short entry old
    · obtain ⟨payload, inside, equal⟩ := size_of_numbered new
      exact equal ▸ short payload inside
  have storedIn : stored ⊆ drain.written ++ numbered drain.wal.sequence payloads := by
    rw [parts]
    exact fun entry member => mem_append_left _ (mem_append_right _ member)
  have ordered : Ascending (disk ++ stored) := by
    have split := ascending
    rw [parts] at split
    exact (pairwise_append.mp split).1
  obtain ⟨_, storedAscending, newer⟩ := pairwise_append.mp ordered
  refine ⟨parts, ascending, bounded, readable, ?_, ungrouped, ?_, ?_, draining.marks, ?_⟩
  · exact draining.tracks.extend extends_ ⟨storedAscending, newer, fun entry member => bounded entry (storedIn member),
      fun entry member => readable entry (storedIn member)⟩
  · simp only
    omega
  · intro entry member passed
    rcases mem_append.mp member with old | new
    · exact draining.safe entry old passed
    · have bounds := numbers entry new
      simp only at passed
      omega
  · rcases same with rfl | rfl
    · have ok := draining.stage
      cases stage : drain.stage with
      | idle => trivial
      | flushed => trivial
      | listed files =>
        rw [stage] at ok
        exact ok.extend draining.tracks extends_.stores extends_.pid newer fun nonempty => opens nonempty files stage
      | syncing =>
        rw [stage] at ok
        refine ⟨ok.ascending, fun entry member => mem_append_left _ (ok.inside member), ok.ahead, ?_⟩
        intro advance entry member other known late before
        rcases mem_append.mp known with old | new
        · exact ok.closed advance entry member other old late before
        · have newest := (numbers other new).1
          have older := draining.bounded entry (ok.inside member)
          omega
    · trivial

theorem Draining.restage (cycles : Nat) (ok : StageOk drain.wal disk drain.written drain.lastProcessedSeq stage) :
    Draining { drain with stage := stage, cycles := cycles } disk :=
  { draining with stage := ok }

theorem Draining.list : Draining { drain with
      stage := .listed ((drain.wal.dir.glob .runtime drain.wal.pid).map WalFile.name) } disk := by
  have all : ∀ file ∈ drain.wal.dir.entries, file.name.pid = drain.wal.pid →
      file.name ∈ (drain.wal.dir.glob .runtime drain.wal.pid).map WalFile.name :=
    fun file present own => mem_map_of_mem (mem_glob.mpr ⟨present, .inr own⟩)
  refine draining.restage drain.cycles ⟨?_, ?_, ?_, fun _ _ _ => all⟩
  · intro name listed
    obtain ⟨file, found, rfl⟩ := mem_map.mp listed
    exact (mem_glob.mp found).2.resolve_left (by simp)
  · refine (nodup_glob _ _ _).map_on fun first one second two same => ?_
    exact inj_on_of_nodup_map drain.wal.dir.distinct (mem_glob.mp one).1 (mem_glob.mp two).1 same
  · intro name listed entry inside other written late before
    obtain ⟨file, present, own, holds⟩ := draining.tracks.complete other written late
    exact ⟨file.name, all file present own, by rwa [records_of_mem present]⟩

theorem Draining.batchOk {files : List FileName} (stage : drain.stage = .listed files)
    (resync : Resync α) (limit : Nat) :
    BatchOk drain.written drain.lastProcessedSeq
      (drain.wal.recoverBounded resync files drain.lastProcessedSeq limit) true := by
  have listing := draining.stage
  rw [stage] at listing
  obtain ⟨held, inLog, holds, read⟩ := draining.tracks.recoverBounded resync listing.distinct listing.own
    drain.lastProcessedSeq limit
  have inWritten : held ⊆ drain.written := by
    rw [draining.written]
    exact fun entry member => mem_append_left _ (inLog.subset member)
  have ordered : Ascending (held.take limit ++ held.drop limit) := by
    rw [take_append_drop]
    exact draining.tracks.ascending.sublist inLog
  rw [read]
  refine ⟨(pairwise_append.mp ordered).1, fun entry member => inWritten (mem_of_mem_take member), ?_, ?_⟩
  · exact fun _ entry member => ((holds entry).mp (mem_of_mem_take member)).1
  · intro _ entry member other known late before
    have isHeld := mem_of_mem_take member
    have inDisk : other ∈ disk := by
      have split := known
      rw [draining.written] at split
      refine (mem_append.mp split).resolve_right fun buffered => ?_
      have later := draining.ascending
      rw [draining.written] at later
      have after := (pairwise_append.mp later).2.2 entry (inLog.subset isHeld) other buffered
      omega
    have alsoHeld : other ∈ held := by
      rcases before.lt_or_eq with less | equal
      · obtain ⟨_, name, listed, inside⟩ := (holds entry).mp isHeld
        exact (holds other).mpr ⟨late, listing.closed name listed entry inside other inDisk late less⟩
      · rwa [draining.ascending.eq_of_sequence known (inWritten isHeld) equal]
    have placed : other ∈ held.take limit ++ held.drop limit := by rwa [take_append_drop]
    refine (mem_append.mp placed).resolve_right fun behind => ?_
    have after := (pairwise_append.mp ordered).2.2 entry member other behind
    omega

theorem Draining.cleanup (alive : Nat → Bool) (cycles : Nat) : Draining { drain with
      stage := .idle
      cycles := cycles
      wal := drain.wal.cleanupProcessed alive drain.lastProcessedSeq .runtime } disk :=
  { draining with tracks := draining.tracks.cleanupProcessed alive le_rfl .runtime, stage := trivial }

end

theorem BatchOk.rest {written rest : List (WalEntry α)} (ok : BatchOk written cursor (entry :: rest) advanceOk) :
    BatchOk written (if advanceOk then max cursor entry.sequence else cursor) rest advanceOk := by
  obtain ⟨first, others⟩ := pairwise_cons.mp ok.ascending
  refine ⟨others, fun other member => ok.inside (mem_cons_of_mem _ member), ?_, ?_⟩
  · intro advance other member
    have later := first other member
    have ahead := ok.ahead advance other (mem_cons_of_mem _ member)
    simp only [advance, if_true]
    omega
  · intro advance other member known isKnown late before
    simp only [advance, if_true] at late
    have inBatch := ok.closed advance other (mem_cons_of_mem _ member) known isKnown (by omega) before
    rcases mem_cons.mp inBatch with rfl | inRest
    · omega
    · exact inRest

theorem BatchOk.stopped {written rest : List (WalEntry α)}
    (ok : BatchOk written cursor (entry :: rest) advanceOk) : BatchOk written cursor rest false where
  ascending := (pairwise_cons.mp ok.ascending).2
  inside := fun _ member => ok.inside (mem_cons_of_mem _ member)
  ahead := by simp
  closed := by simp

theorem BatchOk.passed {written rest : List (WalEntry α)} {other : WalEntry α}
    (ok : BatchOk written cursor (entry :: rest) true) (known : other ∈ written)
    (passed : other.sequence ≤ max cursor entry.sequence) : other.sequence ≤ cursor ∨ other = entry := by
  rcases le_or_gt other.sequence cursor with before | late
  · exact .inl before
  · have inBatch := ok.closed rfl entry mem_cons_self other known late (by omega)
    rcases mem_cons.mp inBatch with same | inRest
    · exact .inr same
    · have later := (pairwise_cons.mp ok.ascending).1 other inRest
      omega

variable [DecidableEq α]

theorem syncEntry_cases (drain : Drain α) (entry : WalEntry α) (outcome : Delivery) :
    (drain.syncEntry entry outcome = (drain, true) ∧ entry ∈ drain.marked) ∨
      drain.syncEntry entry outcome = (drain, false) ∨
      drain.syncEntry entry outcome = ({ drain with delivered := drain.delivered ++ [entry] }, false) ∨
      ∃ marked : Bool, drain.syncEntry entry outcome = ({ drain with
        delivered := drain.delivered ++ [entry]
        marked := if marked then drain.marked ++ [entry] else drain.marked }, true) := by
  unfold Drain.syncEntry
  split
  · rename_i known
    exact .inl ⟨rfl, known⟩
  · cases outcome with
    | failed => exact .inr (.inl rfl)
    | unreported => exact .inr (.inr (.inl rfl))
    | done marked => exact .inr (.inr (.inr ⟨marked, rfl⟩))

theorem Draining.syncEntry (draining : Draining drain disk) (entry : WalEntry α) (outcome : Delivery) :
    Draining (drain.syncEntry entry outcome).1 disk ∧
      ((drain.syncEntry entry outcome).2 = true → entry ∈ (drain.syncEntry entry outcome).1.delivered) ∧
      (drain.syncEntry entry outcome).1.wal = drain.wal ∧
      (drain.syncEntry entry outcome).1.written = drain.written ∧
      (drain.syncEntry entry outcome).1.lastProcessedSeq = drain.lastProcessedSeq ∧
      (drain.syncEntry entry outcome).1.stage = drain.stage ∧
      (drain.syncEntry entry outcome).1.cycles = drain.cycles := by
  have grown (marked : List (WalEntry α)) (known : ∀ other ∈ marked, other ∈ drain.delivered ++ [entry]) :
      Draining { drain with delivered := drain.delivered ++ [entry], marked := marked } disk :=
    { draining with
      safe := fun other member passed => mem_append_left _ (draining.safe other member passed)
      marks := known }
  have old : ∀ other ∈ drain.marked, other ∈ drain.delivered ++ [entry] :=
    fun other member => mem_append_left _ (draining.marks other member)
  rcases syncEntry_cases drain entry outcome with ⟨same, known⟩ | same | same | ⟨marked, same⟩ <;> rw [same]
  · exact ⟨draining, fun _ => draining.marks entry known, rfl, rfl, rfl, rfl, rfl⟩
  · exact ⟨draining, by simp, rfl, rfl, rfl, rfl, rfl⟩
  · exact ⟨grown _ old, by simp, rfl, rfl, rfl, rfl, rfl⟩
  · refine ⟨grown _ ?_, by simp, rfl, rfl, rfl, rfl, rfl⟩
    cases marked with
    | false => exact old
    | true =>
      intro other member
      rcases mem_append.mp member with before | new
      · exact old other before
      · exact mem_append_right _ new

theorem Draining.deliver (draining : Draining drain disk) (outcome : Delivery) :
    Draining (drain.deliver outcome) disk := by
  unfold Drain.deliver
  split
  · rename_i entry rest advanceOk syncedCount stage
    have ok := draining.stage
    rw [stage] at ok
    obtain ⟨recorded, isDelivered, wal, written, cursor, _, _⟩ := draining.syncEntry entry outcome
    simp only
    split
    · rename_i success
      have passes := isDelivered success
      refine { recorded with tracks := ?_, cursor := ?_, safe := ?_, stage := ?_ }
      · refine recorded.tracks.advance ?_
        simp only [cursor]
        split <;> omega
      · have bound := draining.bounded entry (ok.inside mem_cons_self)
        have before := draining.cursor
        simp only [wal]
        split <;> omega
      · intro other known passed
        have isOld (before : other.sequence ≤ drain.lastProcessedSeq) :
            other ∈ (drain.syncEntry entry outcome).1.delivered := by
          refine recorded.safe other known ?_
          rwa [cursor]
        simp only at passed
        cases advanceOk with
        | false => exact isOld passed
        | true =>
          rw [written] at known
          rcases ok.passed known passed with before | rfl
          · exact isOld before
          · exact passes
      · simp only [StageOk, written]
        exact ok.rest
    · refine { recorded with stage := ?_ }
      simp only [StageOk, written, cursor]
      exact ok.stopped
  · exact draining

end

/-- What a step may rely on: records short enough to be read, room for the files, and no batch past a buffer that
holds entries. -/
def Drain.Orderly (drain : Drain α) : DrainAction α → Prop
  | .write now due payload => payload.size ≤ maxRecordSizeBytes ∧
      (storedByWrite drain.wal due payload ≠ [] →
        Tracks.StoreRoomy drain.wal now (storedByWrite drain.wal due payload) ∧ drain.Opens now)
  | .batchWrite now payloads => payloads ≠ [] →
      drain.wal.groupBuffer = [] ∧ (∀ payload ∈ payloads, payload.size ≤ maxRecordSizeBytes) ∧
        Tracks.StoreRoomy drain.wal now (numbered drain.wal.sequence payloads) ∧ drain.Opens now
  | .start now => drain.wal.groupBuffer ≠ [] → Tracks.StoreRoomy drain.wal now drain.wal.groupBuffer
  | _ => True

section

variable {drain : Drain α} {disk : List (WalEntry α)}

theorem numbered_nil (sequence : Nat) : numbered sequence ([] : List (Payload α)) = [] := by
  rfl

section

variable (draining : Draining drain disk)

include draining

theorem Draining.write (orderly : drain.Orderly (.write now due payload)) :
    ∃ stored, Extends drain.wal (drain.wal.write now due payload) now [payload] stored ∧ Draining { drain with
        wal := drain.wal.write now due payload
        written := drain.written ++ numbered drain.wal.sequence [payload] } (disk ++ stored) := by
  have extends_ := write_extends now draining.ungrouped fun some => (orderly.2 some).1
  refine ⟨_, extends_, draining.extend extends_ (by simpa using orderly.1) (fun off => ?_)
    (fun some => (orderly.2 some).2) (.inl rfl)⟩
  rw [extends_.config] at off
  have split := extends_.split
  have all : storedByWrite drain.wal due payload = drain.wal.groupBuffer ++ numbered drain.wal.sequence [payload] := by
    simp [storedByWrite, off]
  rw [all] at split
  exact self_eq_append_right.mp split

theorem Draining.batchWrite (orderly : drain.Orderly (.batchWrite now payloads)) :
    ∃ stored, Extends drain.wal (drain.wal.batchWriteEntries now payloads) now payloads stored ∧ Draining { drain with
        wal := drain.wal.batchWriteEntries now payloads
        written := drain.written ++ numbered drain.wal.sequence payloads } (disk ++ stored) := by
  by_cases none : payloads = []
  · subst none
    refine ⟨[], ⟨rfl, rfl, rfl, .nothing rfl rfl, append_nil _⟩, ?_⟩
    simpa [batchWriteEntries, numbered] using draining
  · obtain ⟨empty, short, roomy, opens⟩ := orderly none
    have extends_ := batchWrite_extends now empty fun _ => roomy
    refine ⟨_, extends_, draining.extend extends_ short (fun _ => ?_) (fun _ => opens) (.inl rfl)⟩
    have split := extends_.split
    rw [empty, nil_append] at split
    exact self_eq_append_right.mp split

theorem Draining.start (idle : drain.stage = .idle) (orderly : drain.Orderly (.start now)) :
    Draining { drain with stage := .flushed, wal := drain.wal.flushGroupCommit now } drain.written := by
  unfold flushGroupCommit
  split
  · have extends_ := flushBuffer_extends orderly
    have emptied : (drain.wal.flushBuffer now).groupBuffer = [] :=
      self_eq_append_right.mp ((append_nil _).symm.trans extends_.split)
    have next := draining.extend extends_ (by simp) (fun _ => emptied) (fun _ files listed => ?_) (.inr rfl)
    · rw [numbered_nil, append_nil, ← draining.written] at next
      exact next
    · rw [idle] at listed
      cases listed
  · rename_i off
    have empty := draining.ungrouped (by simpa using off)
    have onDisk := draining.written
    rw [empty, append_nil] at onDisk
    have same : Draining { drain with stage := .flushed } disk := draining.restage drain.cycles trivial
    exact Eq.subst (motive := Draining { drain with stage := .flushed }) onDisk.symm same

theorem Draining.read (resync : Resync α)
    (batchSize : Nat) (wired : Bool) : Draining (drain.read resync batchSize wired) disk := by
  unfold Drain.read
  split
  · rename_i files stage
    simp only
    split
    · exact draining.restage _ trivial
    · refine draining.restage drain.cycles ?_
      have bounded : (drain.wal.recoverBounded resync files drain.lastProcessedSeq batchSize).take batchSize =
          drain.wal.recoverBounded resync files drain.lastProcessedSeq batchSize := by
        rw [recoverBounded, take_take, min_self]
      simp only [StageOk, bounded]
      exact draining.batchOk stage resync batchSize
  · exact draining

theorem Draining.finish (alive : Nat → Bool) : Draining (drain.finish alive) disk := by
  unfold Drain.finish
  split
  · split
    · exact draining.cleanup alive _
    · exact draining.restage _ trivial
  · exact draining

theorem Draining.unlinked {alive : Nat → Bool} {file : WalFile α} (present : file ∈ drain.wal.dir.entries)
    (gone : file ∉ (drain.finish alive).wal.dir.entries) : ∀ entry ∈ file.records, entry ∈ drain.delivered := by
  intro entry inside
  unfold Drain.finish at gone
  split at gone
  · split at gone
    · have unlinked := not_not.mp fun kept => gone (mem_unlinkAll.mpr ⟨present, kept⟩)
      obtain ⟨other, chosen, named⟩ := mem_map.mp unlinked
      obtain ⟨found, conditions⟩ := mem_filter.mp chosen
      obtain rfl : other = file :=
        inj_on_of_nodup_map drain.wal.dir.distinct (mem_glob.mp found).1 present named
      have own := (mem_glob.mp found).2.resolve_left (by simp)
      simp only [Bool.and_eq_true, decide_eq_true_eq] at conditions
      have covered := le_fileMaxSequence (draining.tracks.file_short present own) inside
      have known : entry ∈ drain.written := by
        rw [draining.written]
        exact mem_append_left _ ((draining.tracks.within _ present own).subset inside)
      exact draining.safe entry known (by omega)
    · exact absurd present gone
  · exact absurd present gone

end

end

end Baldur.Wal
