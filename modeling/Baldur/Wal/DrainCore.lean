import Baldur.Wal.WalCore

/-!
The audit drain (`audit/sync_worker.py`): the cycles of `_sync_batch` between the process's writes. Listing
the files and reading them under the lock are two steps.
-/

namespace Baldur.Wal

variable {α : Type}

/-- An accepted entry whose mark raises is reported as failed; a mark may also be dropped silently. -/
inductive Delivery
  | failed
  | unreported
  | done (marked : Bool)
  deriving DecidableEq

inductive DrainStage (α : Type)
  | idle
  | flushed
  | listed (files : List FileName)
  | syncing (batch : List (WalEntry α)) (advanceOk : Bool) (syncedCount : Nat)

structure Drain (α : Type) where
  wal : WriteAheadLog α
  lastProcessedSeq : Nat := 0
  stage : DrainStage α := .idle
  /-- The entries the idempotency service knows; an entry stands for its key, sequence and checksum. -/
  marked : List (WalEntry α) := []
  delivered : List (WalEntry α) := []
  written : List (WalEntry α) := []
  cycles : Nat := 0

inductive DrainAction (α : Type)
  | write (now : Nat) (due : Bool) (payload : WriteAheadLog.Payload α)
  | batchWrite (now : Nat) (payloads : List (WriteAheadLog.Payload α))
  | start (now : Nat)
  | list
  | read (wired : Bool)
  | deliver (outcome : Delivery)
  | finish
  | expire (entries : List (WalEntry α))

namespace Drain

variable [DecidableEq α] (resync : Resync α) (alive : Nat → Bool) (batchSize : Nat)
  (drain : Drain α)

/-- `_sync_entry_to_adapter` on the head of the batch: what is recorded, and whether it returned. -/
def syncEntry (entry : WalEntry α) (outcome : Delivery) : Drain α × Bool :=
  if entry ∈ drain.marked then (drain, true)
  else match outcome with
    | .failed => (drain, false)
    | .unreported => ({ drain with delivered := drain.delivered ++ [entry] }, false)
    | .done marked =>
        ({ drain with
          delivered := drain.delivered ++ [entry]
          marked := if marked then drain.marked ++ [entry] else drain.marked }, true)

def deliver (outcome : Delivery) : Drain α :=
  match drain.stage with
  | .syncing (entry :: rest) advanceOk syncedCount =>
      let out := drain.syncEntry entry outcome
      if out.2 then
        { out.1 with
          stage := .syncing rest advanceOk (syncedCount + 1)
          lastProcessedSeq := if advanceOk then max drain.lastProcessedSeq entry.sequence else drain.lastProcessedSeq }
      else { out.1 with stage := .syncing rest false syncedCount }
  | _ => drain

def finish : Drain α :=
  match drain.stage with
  | .syncing [] _ syncedCount =>
      { drain with
        stage := .idle
        cycles := drain.cycles + 1
        wal := if 0 < syncedCount then drain.wal.cleanupProcessed alive drain.lastProcessedSeq .runtime else drain.wal }
  | _ => drain

def read (wired : Bool) : Drain α :=
  match drain.stage with
  | .listed files =>
      let entries := drain.wal.recoverBounded resync files drain.lastProcessedSeq batchSize
      if entries = [] ∨ wired = false then { drain with stage := .idle, cycles := drain.cycles + 1 }
      else { drain with stage := .syncing (entries.take batchSize) true 0 }
  | _ => drain

def step (drain : Drain α) : DrainAction α → Drain α
  | .write now due payload =>
      { drain with
        wal := drain.wal.write now due payload
        written := drain.written ++ WriteAheadLog.numbered drain.wal.sequence [payload] }
  | .batchWrite now payloads =>
      { drain with
        wal := drain.wal.batchWriteEntries now payloads
        written := drain.written ++ WriteAheadLog.numbered drain.wal.sequence payloads }
  | .start now =>
      match drain.stage with
      | .idle => { drain with stage := .flushed, wal := drain.wal.flushGroupCommit now }
      | _ => drain
  | .list =>
      match drain.stage with
      | .flushed => { drain with stage := .listed ((drain.wal.dir.glob .runtime drain.wal.pid).map WalFile.name) }
      | _ => drain
  | .read wired => drain.read resync batchSize wired
  | .deliver outcome => drain.deliver outcome
  | .finish => drain.finish alive
  | .expire entries => { drain with marked := drain.marked.filter fun entry => entry ∉ entries }

def run (drain : Drain α) (actions : List (DrainAction α)) : Drain α :=
  actions.foldl (step resync alive batchSize) drain

end Drain

end Baldur.Wal
