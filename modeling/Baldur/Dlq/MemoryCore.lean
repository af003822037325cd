import Baldur.Lib.Table
import Mathlib.Data.Finset.Basic

/-!
The dead letter queue entry (`interfaces/repositories.py`), instants in microseconds, and the in-memory queue
(`adapters/memory/failed_operation.py`), each operation under one lock hold.
-/

namespace Baldur.Dlq

inductive FailedOperationStatus
  | pending
  | replaying
  | reviewing
  | replayed
  | requiresReview
  | resolved
  | rejected
  | archived
  | expired
  | permanentlyFailed
  deriving DecidableEq

def FailedOperationStatus.text : FailedOperationStatus → String
  | .pending => "pending"
  | .replaying => "replaying"
  | .reviewing => "reviewing"
  | .replayed => "replayed"
  | .requiresReview => "requires_review"
  | .resolved => "resolved"
  | .rejected => "rejected"
  | .archived => "archived"
  | .expired => "expired"
  | .permanentlyFailed => "permanently_failed"

abbrev Time := Int

def minutes (amount : Int) : Time :=
  amount * 60000000

inductive MetadataValue
  | number (value : Int)
  | flag (value : Bool)
  | text (value : String)
  deriving DecidableEq

/-- The number Python's `+` takes the value for; a text raises. -/
def MetadataValue.asNumber : MetadataValue → Option Int
  | .number value => some value
  | .flag value => some (if value then 1 else 0)
  | .text _ => none

abbrev Metadata := String → Option MetadataValue

namespace Metadata

def empty : Metadata := fun _ => none

def set (metadata : Metadata) (key : String) (value : MetadataValue) : Metadata :=
  fun other => if other = key then some value else metadata other

def merge (metadata changes : Metadata) : Metadata :=
  fun key => (changes key).or (metadata key)

/-- `metadata.get(key, 0)` as a summand. -/
def number (metadata : Metadata) (key : String) : Option Int :=
  match metadata key with
  | none => some 0
  | some value => value.asNumber

theorem number_set_self (metadata : Metadata) (key : String) (value : Int) :
    (metadata.set key (.number value)).number key = some value := by
  simp [number, set, MetadataValue.asNumber]

theorem number_set_of_ne (metadata : Metadata) {key other : String} (apart : other ≠ key)
    (value : MetadataValue) : (metadata.set key value).number other = metadata.number other := by
  simp [number, set, apart]

end Metadata

structure FailedOperationData where
  id : String
  domain : String
  failureType : String
  status : FailedOperationStatus
  errorMessage : String := ""
  retryCount : Int := 0
  maxRetries : Int := 2
  lastRetryAt : Option Time := none
  metadata : Metadata := Metadata.empty
  resolvedAt : Option Time := none
  resolvedById : Option Int := none
  resolutionType : String := ""
  resolutionNote : String := ""
  recommendedAction : String := ""
  createdAt : Option Time := none
  updatedAt : Option Time := none

abbrev Entry := FailedOperationData

/-- `first or second` on texts. -/
def orText (first second : String) : String :=
  if first = "" then second else first

/-- `first or second` on an optional user id: zero is false. -/
def orId (first second : Option Int) : Option Int :=
  match first with
  | none => second
  | some id => if id = 0 then second else some id

def staleReleaseAtCapNote : String :=
  "interrupted on its last allowed attempt"

structure StatusUpdate where
  status : FailedOperationStatus
  resolutionType : String
  resolutionNote : String
  resolvedById : Option Int
  recommendedAction : String

structure Completion where
  success : Bool
  resolutionType : String := ""
  note : String := ""
  resolvedById : Option Int := none
  errorDetails : Metadata := Metadata.empty

/-- The answer of `try_acquire_for_replay`; `raised` is the `TypeError` of a scar that is a text. -/
inductive Acquisition
  | acquired (entry : FailedOperationData)
  | refused
  | raised

namespace FailedOperationData

variable (entry : Entry) (now : Time)

/-- `try_acquire_for_replay` on a stored entry. A forced acquisition stamps the history before
it grants a fresh budget. -/
def tryAcquireForReplay (maxRetries : Int) (force : Bool) : Acquisition :=
  if force then
    if entry.status = .pending ∨ entry.status = .requiresReview then
      match entry.metadata.number "previous_total_retries", entry.metadata.number "force_redrive_count" with
      | some total, some redrives =>
          .acquired { entry with
            status := .replaying
            retryCount := 1
            lastRetryAt := some now
            updatedAt := some now
            metadata :=
              (entry.metadata.set "previous_total_retries" (.number (total + entry.retryCount))).set
                "force_redrive_count" (.number (redrives + 1)) }
      | _, _ => .raised
    else
      .refused
  else if entry.status ≠ .pending then
    .refused
  else if maxRetries ≤ entry.retryCount then
    .refused
  else
    .acquired { entry with
      status := .replaying
      retryCount := entry.retryCount + 1
      lastRetryAt := some now
      updatedAt := some now }

def completedStatus (success : Bool) : FailedOperationStatus :=
  if success then
    .resolved
  else if entry.maxRetries ≤ entry.retryCount then
    .requiresReview
  else
    .pending

def completeReplay (completion : Completion) : Entry :=
  { entry with
    status := entry.completedStatus completion.success
    errorMessage := orText completion.note entry.errorMessage
    metadata := entry.metadata.merge completion.errorDetails
    resolvedAt := if completion.success then some now else entry.resolvedAt
    resolvedById := orId completion.resolvedById entry.resolvedById
    resolutionType := orText completion.resolutionType entry.resolutionType
    resolutionNote := orText completion.note entry.resolutionNote
    updatedAt := some now }

def holdsAttempt (acquiredRetryCount : Int) : Bool :=
  entry.status = .replaying && entry.retryCount = acquiredRetryCount

def isStaleReplaying (cutoff : Time) : Bool :=
  entry.status = .replaying && match entry.lastRetryAt with
    | none => false
    | some instant => instant < cutoff

def releaseStale : Entry :=
  if entry.maxRetries ≤ entry.retryCount then
    { entry with
      status := .requiresReview
      resolutionNote := staleReleaseAtCapNote
      updatedAt := some now }
  else
    { entry with status := .pending, updatedAt := some now }

def updateStatus (update : StatusUpdate) : Entry :=
  { entry with
    status := update.status
    resolvedAt := if update.status = .resolved then some now else entry.resolvedAt
    resolvedById := orId update.resolvedById entry.resolvedById
    resolutionType := orText update.resolutionType entry.resolutionType
    resolutionNote := orText update.resolutionNote entry.resolutionNote
    recommendedAction := orText update.recommendedAction entry.recommendedAction
    updatedAt := some now }

end FailedOperationData

abbrev Storage := Table String Entry FailedOperationData.id

structure MemoryStore where
  storage : Storage := Table.empty
  nextId : Nat := 1
  indexByStatus : FailedOperationStatus → Finset String := fun _ => ∅
  indexByDomain : String → Finset String := fun _ => ∅
  indexByStatusDomain : FailedOperationStatus → String → Finset String := fun _ _ => ∅

namespace MemoryStore

variable (store : MemoryStore) (now : Time)

def find (id : String) : Option Entry :=
  store.storage.find id

def addToIndex (id : String) (status : FailedOperationStatus) (domain : String) : MemoryStore :=
  { store with
    indexByStatus := fun other =>
      if other = status then insert id (store.indexByStatus other) else store.indexByStatus other
    indexByDomain := fun other =>
      if other = domain then insert id (store.indexByDomain other) else store.indexByDomain other
    indexByStatusDomain := fun other otherDomain =>
      if other = status ∧ otherDomain = domain then
        insert id (store.indexByStatusDomain other otherDomain)
      else
        store.indexByStatusDomain other otherDomain }

def removeFromIndex (id : String) (status : FailedOperationStatus) (domain : String) : MemoryStore :=
  { store with
    indexByStatus := fun other =>
      if other = status then (store.indexByStatus other).erase id else store.indexByStatus other
    indexByDomain := fun other =>
      if other = domain then (store.indexByDomain other).erase id else store.indexByDomain other
    indexByStatusDomain := fun other otherDomain =>
      if other = status ∧ otherDomain = domain then
        (store.indexByStatusDomain other otherDomain).erase id
      else
        store.indexByStatusDomain other otherDomain }

def updateIndexStatus (id : String) (oldStatus newStatus : FailedOperationStatus) (domain : String) : MemoryStore :=
  (store.removeFromIndex id oldStatus domain).addToIndex id newStatus domain

def rewrite (entry updated : Entry) : MemoryStore :=
  let written := { store with storage := store.storage.put updated }
  if entry.status = updated.status then
    written
  else
    written.updateIndexStatus entry.id entry.status updated.status entry.domain

def create (entry : Entry) : MemoryStore × Entry :=
  let stored := { entry with
    id := toString store.nextId
    status := .pending
    createdAt := some now
    updatedAt := some now }
  (({ store with storage := store.storage.put stored, nextId := store.nextId + 1 } : MemoryStore).addToIndex
    stored.id .pending stored.domain, stored)

def tryAcquireForReplay (id : String) (maxRetries : Int) (force : Bool) : MemoryStore × Acquisition :=
  match store.find id with
  | none => (store, .refused)
  | some entry =>
      match entry.tryAcquireForReplay now maxRetries force with
      | .acquired updated => (store.rewrite entry updated, .acquired updated)
      | verdict => (store, verdict)

def completeReplay (id : String) (completion : Completion) : MemoryStore × Bool :=
  match store.find id with
  | none => (store, false)
  | some entry => (store.rewrite entry (entry.completeReplay now completion), true)

def returnReplayAttempt (id : String) (acquiredRetryCount : Int) : MemoryStore × Bool :=
  match store.find id with
  | none => (store, false)
  | some entry =>
      if entry.holdsAttempt acquiredRetryCount then
        ({ store with
            storage := store.storage.put { entry with retryCount := acquiredRetryCount - 1 } }, true)
      else
        (store, false)

def releaseStaleReplaying (olderThanMinutes : Int) : MemoryStore × Nat :=
  let cutoff := now - minutes olderThanMinutes
  store.storage.entries.foldl (fun released entry =>
    if entry.isStaleReplaying cutoff then
      (released.1.rewrite entry (entry.releaseStale now), released.2 + 1)
    else
      released) (store, 0)

def updateStatus (id : String) (update : StatusUpdate) : MemoryStore × Bool :=
  match store.find id with
  | none => (store, false)
  | some entry => (store.rewrite entry (entry.updateStatus now update), true)

end MemoryStore

/-!
The repository calls of the replay lifecycle, each atomic under the lock.
-/

inductive MemoryCall
  | getById (id : String)
  | tryAcquireForReplay (id : String) (maxRetries : Int) (force : Bool)
  | completeReplay (id : String) (completion : Completion)
  | returnReplayAttempt (id : String) (acquiredRetryCount : Int)
  | releaseStaleReplaying (olderThanMinutes : Int)
  | updateStatus (id : String) (update : StatusUpdate)

@[reducible] def MemoryCall.Answer : MemoryCall → Type
  | .getById _ => Option Entry
  | .tryAcquireForReplay .. => Acquisition
  | .completeReplay .. => Bool
  | .returnReplayAttempt .. => Bool
  | .releaseStaleReplaying _ => Nat
  | .updateStatus .. => Bool

def MemoryCall.exec (now : Time) (store : MemoryStore) : (call : MemoryCall) → MemoryStore × call.Answer
  | .getById id => (store, store.find id)
  | .tryAcquireForReplay id maxRetries force => store.tryAcquireForReplay now id maxRetries force
  | .completeReplay id completion => store.completeReplay now id completion
  | .returnReplayAttempt id acquiredRetryCount => store.returnReplayAttempt id acquiredRetryCount
  | .releaseStaleReplaying olderThanMinutes => store.releaseStaleReplaying now olderThanMinutes
  | .updateStatus id update => store.updateStatus now id update

section

open Option

namespace FailedOperationData

variable {entry updated : Entry} {now : Time}

theorem kept_of_acquired {maxRetries : Int} {force : Bool}
    (acquired : entry.tryAcquireForReplay now maxRetries force = .acquired updated) :
    updated.id = entry.id ∧ updated.domain = entry.domain ∧ updated.createdAt = entry.createdAt ∧
      updated.status = .replaying := by
  unfold tryAcquireForReplay at acquired
  split at acquired
  · split at acquired
    · split at acquired
      · cases acquired
        exact ⟨rfl, rfl, rfl, rfl⟩
      · cases acquired
    · cases acquired
  · split at acquired
    · cases acquired
    · split at acquired
      · cases acquired
      · cases acquired
        exact ⟨rfl, rfl, rfl, rfl⟩

theorem id_releaseStale : (entry.releaseStale now).id = entry.id := by
  unfold releaseStale
  split <;> rfl

end FailedOperationData

namespace MemoryStore

variable {store : MemoryStore} {id other : String} {entry : Entry}

theorem find_rewrite (store : MemoryStore) (entry updated : Entry) (id : String) :
    (store.rewrite entry updated).find id = if updated.id = id then some updated else store.find id := by
  have written : (store.rewrite entry updated).storage = store.storage.put updated := by
    unfold rewrite
    split <;> rfl
  rw [find, written, Table.find_put]
  rfl

theorem id_of_find (found : store.find id = some entry) : entry.id = id := by
  exact Table.key_of_find found

theorem find_unchanged (id : String) (found : store.find other = some entry) :
    store.find id = if other = id then some entry else store.find id := by
  split
  · rename_i same
    rw [← same, found]
  · rfl

theorem find_of_change {after : MemoryStore} {change : Entry → Entry}
    (absent : store.find other = none → after.find id = store.find id)
    (present : ∀ entry, store.find other = some entry →
      after.find id = if other = id then some (change entry) else store.find id) :
    after.find id = (store.find id).map fun entry => if other = id then change entry else entry := by
  by_cases same : other = id
  · subst same
    cases found : store.find other with
    | none => rw [absent found, found, map_none]
    | some entry => rw [present entry found, if_pos rfl, map_some, if_pos rfl]
  · simp only [if_neg same, map_id']
    cases found : store.find other with
    | none => exact absent found
    | some entry => rw [present entry found, if_neg same]

theorem storage_releaseStale (now cutoff : Time) (entries : List Entry) (start : MemoryStore × Nat) :
    (entries.foldl (fun released entry =>
      if entry.isStaleReplaying cutoff then
        (released.1.rewrite entry (entry.releaseStale now), released.2 + 1)
      else
        released) start).1.storage =
      entries.foldl (fun table entry =>
        if entry.isStaleReplaying cutoff then table.put (entry.releaseStale now) else table)
        start.1.storage := by
  induction entries generalizing start with
  | nil => rfl
  | cons entry rest ih =>
    rw [List.foldl_cons, List.foldl_cons, ih]
    congr 1
    split
    · unfold rewrite
      split <;> rfl
    · rfl

end MemoryStore

namespace MemoryCall

def effect (now : Time) (id : String) (call : MemoryCall) (entry : Entry) : Entry :=
  match call with
  | .getById _ => entry
  | .tryAcquireForReplay other maxRetries force =>
      if other = id then
        match entry.tryAcquireForReplay now maxRetries force with
        | .acquired updated => updated
        | _ => entry
      else
        entry
  | .completeReplay other completion =>
      if other = id then entry.completeReplay now completion else entry
  | .returnReplayAttempt other acquiredRetryCount =>
      if other = id then
        if entry.holdsAttempt acquiredRetryCount then
          { entry with retryCount := acquiredRetryCount - 1 }
        else
          entry
      else
        entry
  | .releaseStaleReplaying olderThanMinutes =>
      if entry.isStaleReplaying (now - minutes olderThanMinutes) then entry.releaseStale now else entry
  | .updateStatus other update =>
      if other = id then
        entry.updateStatus now update
      else
        entry

variable (now : Time) (store : MemoryStore) (id : String)

theorem find_releaseStaleReplaying (olderThanMinutes : Int) :
    (store.releaseStaleReplaying now olderThanMinutes).1.find id =
      (store.find id).map (effect now id (.releaseStaleReplaying olderThanMinutes)) := by
  simp only [MemoryStore.find, MemoryStore.releaseStaleReplaying, MemoryStore.storage_releaseStale]
  rw [Table.find_foldl_put _ _ (fun _ => FailedOperationData.id_releaseStale) _ store.storage.distinct]
  cases found : store.storage.find id with
  | none =>
    have absent : store.storage.entries.find? (fun entry => entry.id = id) = none := found
    simp only [absent, Option.map_none]
  | some entry =>
    have present : store.storage.entries.find? (fun entry => entry.id = id) = some entry := found
    simp only [present, Option.map_some, effect]
    split <;> rfl

theorem find_exec (call : MemoryCall) : (call.exec now store).1.find id = (store.find id).map (call.effect now id) := by
  cases call with
  | getById => exact Option.map_id'.symm
  | tryAcquireForReplay other maxRetries force =>
    simp only [exec, MemoryStore.tryAcquireForReplay]
    refine MemoryStore.find_of_change ?_ ?_
    · intro absent
      rw [absent]
    · intro entry found
      simp only [found]
      cases verdict : entry.tryAcquireForReplay now maxRetries force with
      | acquired updated =>
        have kept : updated.id = other :=
          (FailedOperationData.kept_of_acquired verdict).1.trans (MemoryStore.id_of_find found)
        rw [MemoryStore.find_rewrite, kept]
      | refused | raised => exact MemoryStore.find_unchanged id found
  | returnReplayAttempt other acquiredRetryCount =>
    simp only [exec, MemoryStore.returnReplayAttempt]
    refine MemoryStore.find_of_change ?_ ?_
    · intro absent
      rw [absent]
    · intro entry found
      simp only [found]
      split
      · have named : entry.id = other := MemoryStore.id_of_find found
        simp only [MemoryStore.find, Table.find_put, named]
      · exact MemoryStore.find_unchanged id found
  | releaseStaleReplaying olderThanMinutes => exact find_releaseStaleReplaying now store id olderThanMinutes
  | completeReplay other | updateStatus other =>
    simp only [exec, MemoryStore.completeReplay, MemoryStore.updateStatus]
    refine MemoryStore.find_of_change ?_ ?_
    · intro absent
      rw [absent]
    · intro entry found
      have named : entry.id = other := MemoryStore.id_of_find found
      simp only [found, MemoryStore.find_rewrite, FailedOperationData.completeReplay,
        FailedOperationData.updateStatus, named]

end MemoryCall

end

end Baldur.Dlq
