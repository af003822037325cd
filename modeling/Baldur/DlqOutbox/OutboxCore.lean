import Mathlib.Data.List.Basic

/-!
The outbox of the dead letter queue: a ring that producers put into, a writer thread that pops batches, and
the teardown that rescues the rest. `fates`, every counter increment with its entry, is a record of the model.
-/

namespace Baldur.DlqOutbox

inductive BackpressureStrategy
  | dropOldest | dropNewest
  deriving DecidableEq

structure Item (κ : Type) where
  ticket : Nat
  kwargs : κ
  deriving DecidableEq

structure RingBuffer (α : Type) where
  capacity : Nat
  strategy : BackpressureStrategy
  items : List α
  totalEnqueued : Nat
  totalDropped : Nat
  positive : 0 < capacity
  bounded : items.length ≤ capacity

namespace RingBuffer

variable {α : Type}

def empty (capacity : Nat) (strategy : BackpressureStrategy) (positive : 0 < capacity) : RingBuffer α :=
  { capacity := capacity
    strategy := strategy
    items := []
    totalEnqueued := 0
    totalDropped := 0
    positive := positive
    bounded := Nat.zero_le _ }

def displaced (ring : RingBuffer α) (item : α) : Option α :=
  if ring.items.length < ring.capacity then none
  else
    match ring.strategy with
    | .dropOldest => ring.items.head?
    | .dropNewest => some item

def accepts (ring : RingBuffer α) : Bool :=
  decide (ring.items.length < ring.capacity) || decide (ring.strategy = .dropOldest)

theorem length_tail_lt {items : List α} {capacity : Nat} (positive : 0 < capacity)
    (bounded : items.length ≤ capacity) : items.tail.length + 1 ≤ capacity := by
  rw [List.length_tail]
  omega

def put (ring : RingBuffer α) (item : α) : RingBuffer α :=
  if room : ring.items.length < ring.capacity then
    { ring with
      items := ring.items ++ [item]
      totalEnqueued := ring.totalEnqueued + 1
      bounded := by
        rw [List.length_append, List.length_singleton]
        omega }
  else
    match ring.strategy with
    | .dropOldest =>
        { ring with
          items := ring.items.tail ++ [item]
          totalEnqueued := ring.totalEnqueued + 1
          totalDropped := ring.totalDropped + 1
          bounded := by simpa using length_tail_lt ring.positive ring.bounded }
    | .dropNewest =>
        { ring with
          totalEnqueued := ring.totalEnqueued + 1
          totalDropped := ring.totalDropped + 1 }

def getBatch (ring : RingBuffer α) (maxSize : Nat) : List α × RingBuffer α :=
  (ring.items.take maxSize, { ring with
      items := ring.items.drop maxSize
      bounded := by
        rw [List.length_drop]
        have bounded := ring.bounded
        omega })

def drainAll (ring : RingBuffer α) : List α × RingBuffer α :=
  (ring.items, { ring with items := [], bounded := Nat.zero_le _ })

end RingBuffer

/-- What the store writer did with an entry; `lost` is a failed write without a fallback path. -/
inductive WriteResult
  | stored | fallback | lost | raised
  deriving DecidableEq

inductive Fate
  | written | softFailed | failed | dropped | dumped | residual
  deriving DecidableEq

def WriteResult.bucket : WriteResult → Fate
  | .stored => .written
  | .fallback => .softFailed
  | .lost | .raised => .failed

/-- Where the writer thread stands; `last` marks the drain after the loop. -/
inductive Writer (κ : Type)
  | looping
  | flushing (last : Bool) (rest : List (Item κ))
  | writing (last : Bool) (item : Item κ) (rest : List (Item κ))
  | resolved (last : Bool) (rest : List (Item κ))
  | dying
  | dead
  | exited
  deriving DecidableEq

structure Stats where
  size : Nat
  totalDropped : Nat
  entriesWritten : Nat
  entriesSoftFailed : Nat
  entriesFailed : Nat
  inFlight : Nat
  entriesEmergencyDumped : Nat
  deriving DecidableEq

structure OutboxShutdownResult where
  pendingAtEntry : Nat
  dispatched : Nat
  softFailed : Nat
  failed : Nat
  emergencyDumped : Nat
  residual : Nat
  duplicated : Nat
  deriving DecidableEq

/-- How far `stop_outbox_for_shutdown` has come. Between `drained` and `dumping` it holds the
batch lock. -/
inductive Teardown (κ : Type)
  | ahead
  | coerced
  | flushing (before : Stats)
  | stopping (before : Stats)
  | drained (before : Stats) (remaining : List (Item κ))
  | dumping (before : Stats) (todo : List (Item κ))
  | returned (result : OutboxShutdownResult)
  deriving DecidableEq

def Teardown.begun {κ : Type} : Teardown κ → Bool
  | .ahead => false
  | _ => true

structure Outbox (κ : Type) where
  buffer : RingBuffer (Item κ)
  batchSize : Nat
  pendingBatch : List (Item κ)
  pendingIndex : Nat
  entriesWritten : Nat
  entriesSoftFailed : Nat
  entriesFailed : Nat
  inFlight : Nat
  entriesEmergencyDumped : Nat
  entriesShutdownResidual : Nat
  stopEvent : Bool
  writer : Writer κ
  teardown : Teardown κ
  early : List Nat
  fates : List (Nat × Fate)

namespace Outbox

variable {κ : Type}

def start (capacity batchSize : Nat) (strategy : BackpressureStrategy) (positive : 0 < capacity) : Outbox κ :=
  { buffer := .empty capacity strategy positive
    batchSize := batchSize
    pendingBatch := []
    pendingIndex := 0
    entriesWritten := 0
    entriesSoftFailed := 0
    entriesFailed := 0
    inFlight := 0
    entriesEmergencyDumped := 0
    entriesShutdownResidual := 0
    stopEvent := false
    writer := .looping
    teardown := .ahead
    early := []
    fates := [] }

def count (outbox : Outbox κ) (ticket : Nat) (fate : Fate) : Outbox κ :=
  let noted := { outbox with fates := (ticket, fate) :: outbox.fates }
  match fate with
  | .written => { noted with entriesWritten := outbox.entriesWritten + 1 }
  | .softFailed => { noted with entriesSoftFailed := outbox.entriesSoftFailed + 1 }
  | .failed => { noted with entriesFailed := outbox.entriesFailed + 1 }
  | .dumped => { noted with entriesEmergencyDumped := outbox.entriesEmergencyDumped + 1 }
  | .residual => { noted with entriesShutdownResidual := outbox.entriesShutdownResidual + 1 }
  | .dropped => noted

def put (outbox : Outbox κ) (kwargs : κ) : Outbox κ :=
  let item : Item κ := ⟨outbox.buffer.totalEnqueued, kwargs⟩
  let drops := (outbox.buffer.displaced item).toList.map fun lost => (lost.ticket, Fate.dropped)
  let known := !outbox.teardown.begun && outbox.buffer.accepts
  { outbox with
    buffer := outbox.buffer.put item
    fates := drops ++ outbox.fates
    early := if known then outbox.early ++ [item.ticket] else outbox.early }

def batchLocked (outbox : Outbox κ) : Bool :=
  match outbox.teardown with
  | .drained _ _ => true
  | _ => false

/-- One step under the batch lock, and the start of `_flush_batch`. -/
def popAndPublish (outbox : Outbox κ) (last : Bool) (maxSize : Nat) : Outbox κ :=
  if outbox.batchLocked then outbox
  else
    let (batch, buffer) := outbox.buffer.getBatch maxSize
    { outbox with
      buffer := buffer
      pendingBatch := batch
      pendingIndex := 0
      inFlight := outbox.inFlight + batch.length
      writer := .flushing last batch }

def resolve (outbox : Outbox κ) (writer : Writer κ) : Outbox κ :=
  { outbox with
    inFlight := outbox.inFlight - 1
    pendingIndex := outbox.pendingIndex + 1
    writer := writer }

/-- One step of the writer thread. `result` is what the store writer answers; without one the
thread dies inside the write. -/
def writerStep (outbox : Outbox κ) (result : Option WriteResult) : Outbox κ :=
  match outbox.writer with
  | .looping =>
      if outbox.stopEvent then outbox.popAndPublish true (outbox.batchSize * 4)
      else outbox.popAndPublish false outbox.batchSize
  | .flushing last (item :: rest) => { outbox with writer := .writing last item rest }
  | .flushing last [] => { outbox with writer := if last then .exited else .looping }
  | .writing last item rest =>
      match result with
      | some result => { outbox.count item.ticket result.bucket with writer := .resolved last rest }
      | none => { outbox with writer := .dying }
  | .resolved last rest => outbox.resolve (.flushing last rest)
  | .dying => outbox.resolve .dead
  | .dead | .exited => outbox

def latePop (outbox : Outbox κ) : Outbox κ :=
  match outbox.writer with
  | .looping => outbox.popAndPublish false outbox.batchSize
  | _ => outbox

def spawnThread (outbox : Outbox κ) : Outbox κ :=
  match outbox.writer with
  | .dead | .exited => { outbox with inFlight := 0, writer := .looping }
  | _ => outbox

def getStats (outbox : Outbox κ) : Stats :=
  { size := outbox.buffer.items.length
    totalDropped := outbox.buffer.totalDropped
    entriesWritten := outbox.entriesWritten
    entriesSoftFailed := outbox.entriesSoftFailed
    entriesFailed := outbox.entriesFailed
    inFlight := outbox.inFlight
    entriesEmergencyDumped := outbox.entriesEmergencyDumped }

def report (outbox : Outbox κ) (before : Stats) : OutboxShutdownResult :=
  let pendingAtEntry := before.size + before.inFlight
  let dispatched := outbox.entriesWritten - before.entriesWritten
  let softFailed := outbox.entriesSoftFailed - before.entriesSoftFailed
  let failed := outbox.entriesFailed - before.entriesFailed
  let emergencyDumped := outbox.entriesEmergencyDumped - before.entriesEmergencyDumped
  let residual := outbox.entriesShutdownResidual
  { pendingAtEntry := pendingAtEntry
    dispatched := dispatched
    softFailed := softFailed
    failed := failed
    emergencyDumped := emergencyDumped
    residual := residual
    duplicated := dispatched + softFailed + failed + emergencyDumped + residual - pendingAtEntry }

/-- One step of the teardown. `stored` is the answer of the fallback for the next entry of the
dump; without one the dump gives up and the rest is residual. -/
def teardownStep (outbox : Outbox κ) (stored : Option Bool) : Outbox κ :=
  match outbox.teardown with
  | .ahead => { outbox with teardown := .coerced }
  | .coerced => { outbox with teardown := .flushing outbox.getStats }
  | .flushing before => { outbox with stopEvent := true, teardown := .stopping before }
  | .stopping before =>
      let (remaining, buffer) := outbox.buffer.drainAll
      { outbox with
        buffer := buffer
        teardown := .drained before remaining }
  | .drained before remaining =>
      let pendingTail := outbox.pendingBatch.drop outbox.pendingIndex
      { outbox with teardown := .dumping before (pendingTail ++ remaining) }
  | .dumping before (item :: todo) =>
      let fate := if stored = some true then Fate.dumped else .residual
      { outbox.count item.ticket fate with teardown := .dumping before todo }
  | .dumping before [] => { outbox with teardown := .returned (outbox.report before) }
  | .returned _ => outbox

inductive Action (κ : Type)
  | put (kwargs : κ)
  | write (result : Option WriteResult)
  | latePop
  | respawn
  | teardown (stored : Option Bool)

def step (outbox : Outbox κ) : Action κ → Outbox κ
  | .put kwargs => outbox.put kwargs
  | .write result => outbox.writerStep result
  | .latePop => outbox.latePop
  | .respawn => outbox.spawnThread
  | .teardown stored => outbox.teardownStep stored

def run (outbox : Outbox κ) (actions : List (Action κ)) : Outbox κ :=
  actions.foldl step outbox

end Outbox

end Baldur.DlqOutbox
