import Baldur.Dlq.RedisIndexes
import Mathlib.Algebra.Order.Ring.Int

/-!
The in-memory and the Redis lifecycle of one entry, each a function of the entry, compared.
-/

namespace Baldur.Dlq

open RedisWorld

open Prog (run_bind)
open Metadata

variable {set : SortedSet} {listed : Bool}

inductive LifecycleStep
  | tryAcquireForReplay (maxRetries : Int) (force : Bool)
  | completeReplay (completion : Completion) (errorDetails : Option Metadata)
  | returnReplayAttempt (acquiredRetryCount : Int)
  | releaseStaleReplaying (olderThanMinutes : Int)
  | advance (passed : Nat)

inductive LifecycleAnswer
  | created
  | acquired
  | notAcquired
  | raised
  | answered (value : Bool)
  | released (count : Nat)
  | advanced
  deriving DecidableEq

def LifecycleAnswer.ofAcquisition : Acquisition → LifecycleAnswer
  | .acquired _ => .acquired
  | .refused => .notAcquired
  | .raised => .raised

structure LifecycleView where
  answer : LifecycleAnswer
  status : FailedOperationStatus
  retryCount : Int
  maxRetries : Int
  previousTotalRetries : Option MetadataValue
  forceRedriveCount : Option MetadataValue
  deriving DecidableEq

def FailedOperationData.view (entry : Entry) (answer : LifecycleAnswer) : LifecycleView where
  answer := answer
  status := entry.status
  retryCount := entry.retryCount
  maxRetries := entry.maxRetries
  previousTotalRetries := entry.metadata "previous_total_retries"
  forceRedriveCount := entry.metadata "force_redrive_count"

/-- `_to_data` reads a cap of zero as the default. -/
def FailedOperationData.toData (entry : Entry) : Entry :=
  { entry with maxRetries := if entry.maxRetries = 0 then 2 else entry.maxRetries }

def Completion.withDetails (completion : Completion) (errorDetails : Option Metadata) : Completion :=
  { completion with errorDetails := errorDetails.getD Metadata.empty }

structure MemoryQueue where
  clock : Time
  store : MemoryStore

def MemoryQueue.step (id : String) (queue : MemoryQueue) : LifecycleStep → MemoryQueue × LifecycleAnswer
  | .tryAcquireForReplay maxRetries force =>
      let out := queue.store.tryAcquireForReplay queue.clock id maxRetries force
      ({ queue with store := out.1 }, .ofAcquisition out.2)
  | .completeReplay completion errorDetails =>
      let out := queue.store.completeReplay queue.clock id (completion.withDetails errorDetails)
      ({ queue with store := out.1 }, .answered out.2)
  | .returnReplayAttempt acquiredRetryCount =>
      let out := queue.store.returnReplayAttempt id acquiredRetryCount
      ({ queue with store := out.1 }, .answered out.2)
  | .releaseStaleReplaying olderThanMinutes =>
      let out := queue.store.releaseStaleReplaying queue.clock olderThanMinutes
      ({ queue with store := out.1 }, .released out.2)
  | .advance passed => ({ queue with clock := queue.clock + passed }, .advanced)

def RedisWorld.perform {α : Type} (world : RedisWorld) (program : RedisProg α) (read : α → LifecycleAnswer) :
    RedisWorld × LifecycleAnswer :=
  ((program.run exec world).1, read (program.run exec world).2)

def RedisWorld.step (id : String) (world : RedisWorld) : LifecycleStep → RedisWorld × LifecycleAnswer
  | .tryAcquireForReplay maxRetries force =>
      world.perform (RedisDlq.tryAcquireForReplay id maxRetries force RedisDlq.watchMaxAttempts) .ofAcquisition
  | .completeReplay completion errorDetails =>
      world.perform (RedisDlq.completeReplay id completion errorDetails) .answered
  | .returnReplayAttempt acquiredRetryCount =>
      world.perform (RedisDlq.returnReplayAttempt id acquiredRetryCount RedisDlq.watchMaxAttempts) .answered
  | .releaseStaleReplaying olderThanMinutes =>
      world.perform (RedisDlq.releaseStaleReplaying olderThanMinutes) .released
  | .advance passed => ({ world with clock := world.clock + passed }, .advanced)

def MemoryQueue.views (id : String) : MemoryQueue → List LifecycleStep → List (Option LifecycleView)
  | _, [] => []
  | queue, step :: rest =>
      ((queue.step id step).1.store.find id).map (fun entry => entry.view (queue.step id step).2) ::
        MemoryQueue.views id (queue.step id step).1 rest

def RedisWorld.views (id : String) : RedisWorld → List LifecycleStep → List (Option LifecycleView)
  | _, [] => []
  | world, step :: rest =>
      ((world.step id step).1.find id).map (fun entry => entry.toData.view (world.step id step).2) ::
        views id (world.step id step).1 rest

namespace LifecycleStep

def ofVerdict (entry : Entry) : Acquisition → Entry × LifecycleAnswer
  | .acquired updated => (updated, .acquired)
  | .refused => (entry, .notAcquired)
  | .raised => (entry, .raised)

/-- What a step makes of the entry, where a repository has its own completion and its own stale release. -/
def onEntry (completed : Completion → Option Metadata → Entry) (isStale : Time → Bool) (released : Entry) (now : Time)
    (entry : Entry) : LifecycleStep → Entry × LifecycleAnswer
  | tryAcquireForReplay maxRetries force => ofVerdict entry (entry.tryAcquireForReplay now maxRetries force)
  | completeReplay completion errorDetails => (completed completion errorDetails, .answered true)
  | returnReplayAttempt acquiredRetryCount =>
      if entry.holdsAttempt acquiredRetryCount then
        ({ entry with retryCount := acquiredRetryCount - 1 }, .answered true)
      else
        (entry, .answered false)
  | releaseStaleReplaying olderThanMinutes =>
      if isStale (now - minutes olderThanMinutes) then (released, .released 1) else (entry, .released 0)
  | advance _ => (entry, .advanced)

def onMemory (now : Time) (entry : Entry) : LifecycleStep → Entry × LifecycleAnswer :=
  onEntry (fun completion errorDetails => entry.completeReplay now (completion.withDetails errorDetails))
    entry.isStaleReplaying (entry.releaseStale now) now entry

def completionFields (now : Time) (entry : Entry) (completion : Completion) (errorDetails : Option Metadata) :
    UpdateFields :=
  if completion.success then
    { status := some .resolved
      resolutionType := some (orText completion.resolutionType entry.resolutionType)
      resolutionNote := some completion.note
      resolvedAt := some now
      resolvedById := completion.resolvedById }
  else
    { status := some (if entry.maxRetries ≤ entry.retryCount then .requiresReview else .pending)
      resolutionNote := some completion.note
      metadata := errorDetails }

def onRedis (now : Time) (entry : Entry) : LifecycleStep → Entry × LifecycleAnswer :=
  onEntry (fun completion errorDetails => (completionFields now entry completion errorDetails).apply now entry)
    entry.isStaleBlob (entry.markStaleReleased now) now entry

def passed : LifecycleStep → Nat
  | advance passed => passed
  | _ => 0

end LifecycleStep

open FailedOperationData LifecycleStep
open RedisWorld (exec perform)

structure MemoryQueue.Holds (queue : MemoryQueue) (clock : Time) (entry : Entry) : Prop where
  clock : queue.clock = clock
  only : queue.store.storage.entries = [entry]

section

variable {queue : MemoryQueue} {clock : Time} {entry : Entry}

theorem MemoryQueue.Holds.find (holds : queue.Holds clock entry) : queue.store.find entry.id = some entry := by
  simp [MemoryStore.find, Table.find, holds.only]

theorem entries_rewrite {store : MemoryStore} {updated : Entry} (only : store.storage.entries = [entry])
    (same : updated.id = entry.id) : (store.rewrite entry updated).storage.entries = [updated] := by
  have written : (store.rewrite entry updated).storage = store.storage.put updated := by
    unfold MemoryStore.rewrite
    split <;> rfl
  rw [written]
  simp [Table.put, only, Table.writeEntry, same]

theorem id_onEntry {completed : Completion → Option Metadata → Entry} {isStale : Time → Bool} {released : Entry}
    (completes : ∀ completion errorDetails, (completed completion errorDetails).id = entry.id)
    (releases : released.id = entry.id) (step : LifecycleStep) :
    (step.onEntry completed isStale released clock entry).1.id = entry.id := by
  cases step with
  | tryAcquireForReplay maxRetries force =>
    simp only [onEntry]
    cases verdict : entry.tryAcquireForReplay clock maxRetries force with
    | acquired => exact (kept_of_acquired verdict).1
    | refused => rfl
    | raised => rfl
  | completeReplay completion errorDetails => exact completes completion errorDetails
  | returnReplayAttempt =>
    simp only [onEntry]
    split <;> rfl
  | releaseStaleReplaying =>
    simp only [onEntry]
    split
    · exact releases
    · rfl
  | advance => rfl

theorem id_onMemory (clock : Time) (entry : Entry) (step : LifecycleStep) :
    (step.onMemory clock entry).1.id = entry.id := by
  refine id_onEntry (fun _ _ => ?_) id_releaseStale step
  rfl

theorem memory_step (holds : queue.Holds clock entry) (step : LifecycleStep) :
    (queue.step entry.id step).1.Holds (clock + step.passed) (step.onMemory clock entry).1 ∧
      (queue.step entry.id step).2 = (step.onMemory clock entry).2 := by
  have found := holds.find
  obtain ⟨same, only⟩ := holds
  have named := id_onMemory clock entry step
  subst same
  cases step with
  | tryAcquireForReplay maxRetries force =>
    simp only [MemoryQueue.step, MemoryStore.tryAcquireForReplay, found, onMemory, onEntry] at named ⊢
    cases verdict : entry.tryAcquireForReplay queue.clock maxRetries force with
    | acquired =>
      rw [verdict] at named
      exact ⟨⟨(add_zero _).symm, entries_rewrite only named⟩, rfl⟩
    | refused | raised => exact ⟨⟨(add_zero _).symm, only⟩, rfl⟩
  | completeReplay =>
    simp only [MemoryQueue.step, MemoryStore.completeReplay, found, onMemory, onEntry]
    exact ⟨⟨(add_zero _).symm, entries_rewrite only named⟩, trivial⟩
  | returnReplayAttempt =>
    simp only [MemoryQueue.step, MemoryStore.returnReplayAttempt, found, onMemory, onEntry]
    split
    · refine ⟨⟨(add_zero _).symm, ?_⟩, rfl⟩
      simp [Table.put, only, Table.writeEntry]
    · exact ⟨⟨(add_zero _).symm, only⟩, rfl⟩
  | releaseStaleReplaying =>
    simp only [MemoryQueue.step, MemoryStore.releaseStaleReplaying, only, List.foldl_cons, List.foldl_nil, onMemory,
      onEntry]
    split
    · exact ⟨⟨(add_zero _).symm, entries_rewrite only id_releaseStale⟩, rfl⟩
    · exact ⟨⟨(add_zero _).symm, only⟩, rfl⟩
  | advance => exact ⟨⟨rfl, only⟩, rfl⟩

end

namespace RedisWorld

variable {member id : String}

def replayingIds (world : RedisWorld) : List String :=
  (world.index (.status .replaying)).entries.map Prod.fst

structure InPlace (world : RedisWorld) (id : String) (listed : Bool) (entry : Entry) : Prop where
  found : world.find id = some entry
  replaying : world.replayingIds = if listed then [id] else []

def About (id : String) : RedisWrite → Prop
  | .setBlob entry => entry.id = id
  | .delete _ => False
  | .zadd key member _ => key = .status .replaying → member = id
  | .zrem key member => key = .status .replaying → member = id

def listedAfter (listed : Bool) : RedisWrite → Bool
  | .zadd key _ _ => listed || key = .status .replaying
  | .zrem key _ => listed && key ≠ .status .replaying
  | _ => listed

def entryAfter (entry : Entry) : RedisWrite → Entry
  | .setBlob updated => updated
  | _ => entry

theorem members_put {score : Time} (members : set.entries.map Prod.fst = if listed then [member] else []) :
    (set.put (member, score)).entries.map Prod.fst = [member] := by
  obtain ⟨entries, distinct⟩ := set
  cases entries with
  | nil => simp [Table.put, Table.writeEntry]
  | cons =>
    cases listed with
    | false => simp at members
    | true => simp_all [Table.put, Table.writeEntry]

theorem members_erase (members : set.entries.map Prod.fst = if listed then [member] else []) :
    (set.erase member).entries.map Prod.fst = [] := by
  have named : ∀ entry ∈ set.entries, entry.1 = member := by
    intro entry inside
    have listing := List.mem_map_of_mem (f := Prod.fst) inside
    rw [members] at listing
    split at listing <;> simp_all
  simpa [Table.erase] using named

attribute [local simp] apply listedAfter replayingIds

theorem InPlace.apply {world : RedisWorld} {entry : Entry}
    (place : world.InPlace id listed entry) {write : RedisWrite} (about : About id write) :
    (world.apply write).InPlace id (listedAfter listed write) (entryAfter entry write) := by
  obtain ⟨found, replaying⟩ := place
  unfold replayingIds at replaying
  cases write with
  | setBlob =>
    refine ⟨?_, replaying⟩
    rw [find_apply]
    exact if_pos about
  | delete => exact about.elim
  | zadd key =>
    refine ⟨found, ?_⟩
    by_cases same : key = .status .replaying
    · obtain rfl := about same
      simpa [same] using members_put replaying
    · simpa [same, Ne.symm same] using replaying
  | zrem key =>
    refine ⟨found, ?_⟩
    by_cases same : key = .status .replaying
    · obtain rfl := about same
      simpa [same] using members_erase replaying
    · simpa [same, Ne.symm same] using replaying

theorem InPlace.applyAll (writes : List RedisWrite) :
    ∀ {world : RedisWorld} {listed : Bool} {entry : Entry}, world.InPlace id listed entry →
      (∀ write ∈ writes, About id write) →
      (world.applyAll writes).InPlace id (writes.foldl listedAfter listed) (writes.foldl entryAfter entry) := by
  induction writes with
  | nil => exact fun place _ => place
  | cons write rest ih =>
    intro world listed entry place about
    exact ih (place.apply (about write List.mem_cons_self)) fun later inside =>
      about later (List.mem_cons_of_mem _ inside)

theorem clock_applyAll (writes : List RedisWrite) (world : RedisWorld) :
    (world.applyAll writes).clock = world.clock := by
  induction writes generalizing world with
  | nil => rfl
  | cons write rest ih =>
    refine (ih (world.apply write)).trans ?_
    cases write <;> rfl

end RedisWorld

section

open RedisWorld RedisDlq

variable {world : RedisWorld} {id : String} {entry : Entry}

-- The answers' types are written out: the programs carry them in this form.
theorem run_now (world : RedisWorld) : Prog.run (α := Time) exec (command .now) world = (world, world.clock) := by
  rfl

theorem run_get (id : String) (world : RedisWorld) :
    Prog.run (α := Option Entry) exec (command (.get id)) world = (world, world.find id) := by
  rfl

theorem run_loadForUpdate (id : String) (world : RedisWorld) :
    Prog.run (α := Option Entry) exec (command (.loadForUpdate id)) world = (world, world.find id) := by
  rfl

theorem run_watch (id : String) (world : RedisWorld) :
    Prog.run (α := Nat) exec (command (.watch id)) world = (world, world.version id) := by
  rfl

theorem run_zrange (key : IndexKey) (start stop : Int) (world : RedisWorld) :
    Prog.run (α := List String) exec (command (.zrange key start stop)) world =
      (world, (world.index key).zrange start stop) := by
  rfl

theorem run_execute {watched : Nat} (unchanged : world.version id = watched) (writes : List RedisWrite) :
    Prog.run (α := Bool) exec (command (.execute id watched writes)) world = (world.applyAll writes, true) := by
  exact if_pos unchanged

theorem run_return {α : Type} (value : α) (world : RedisWorld) :
    (return value : RedisProg α).run exec world = (world, value) := by
  rfl

theorem run_batchWriteOps (writes : List RedisWrite) (world : RedisWorld) :
    (batchWriteOps writes).run exec world = (world.applyAll writes, ()) := by
  induction writes generalizing world with
  | nil => rfl
  | cons write rest ih =>
    rw [batchWriteOps, run_bind]
    exact ih (world.apply write)

theorem run_update (fields : UpdateFields) (moved : fields.status.isNone = false) :
    (update id fields).run exec world = match world.find id with
      | none => (world, false)
      | some entry =>
        (world.applyAll (statusMoves entry (fields.apply world.clock entry) (entry.createdAtScore world.clock)),
          true) := by
  simp only [update, run_bind, run_loadForUpdate]
  cases world.find id with
  | none => rfl
  | some =>
    simp only [run_bind, now, run_now, moved, run_batchWriteOps, run_return, Bool.false_eq_true, if_false]

theorem run_tryAcquireForReplay (maxRetries : Int) (force : Bool) (attempts : Nat) :
    (RedisDlq.tryAcquireForReplay id maxRetries force (attempts + 1)).run exec world = match world.find id with
      | none => (world, .refused)
      | some entry => match entry.tryAcquireForReplay world.clock maxRetries force with
        | .acquired updated =>
          (world.applyAll (acquisitionMoves entry updated (entry.createdAtScore world.clock)), .acquired updated)
        | verdict => (world, verdict) := by
  simp only [RedisDlq.tryAcquireForReplay, watchLoop, run_bind, run_watch, getById, run_get]
  cases world.find id with
  | none => rfl
  | some entry =>
    simp only [run_bind, now, run_now]
    cases entry.tryAcquireForReplay world.clock maxRetries force with
    | acquired => simp only [run_bind, run_execute, run_watch, run_return, if_true]
    | refused => rfl
    | raised => rfl

theorem run_returnReplayAttempt (acquiredRetryCount : Int) (attempts : Nat) :
    (RedisDlq.returnReplayAttempt id acquiredRetryCount (attempts + 1)).run exec world = match world.find id with
      | none => (world, false)
      | some entry =>
        if entry.holdsAttempt acquiredRetryCount then
          (world.applyAll [.setBlob { entry with retryCount := acquiredRetryCount - 1 }], true)
        else
          (world, false) := by
  simp only [RedisDlq.returnReplayAttempt, watchLoop, run_bind, run_watch, getById, run_get]
  cases world.find id with
  | none => rfl
  | some =>
    simp only
    split
    · simp only [run_bind, run_execute, run_watch, run_return, if_true]
    · rfl

theorem run_releaseOneStale (cutoff : Time) (attempts : Nat) :
    (releaseOneStale id cutoff (attempts + 1)).run exec world = match world.find id with
      | none => (world, false)
      | some entry =>
        if entry.isStaleBlob cutoff then
          (world.applyAll (releaseMoves entry (entry.markStaleReleased world.clock)
            (entry.createdAtScore world.clock)), true)
        else
          (world, false) := by
  simp only [releaseOneStale, watchLoop, run_bind, run_watch, getById, run_get]
  cases world.find id with
  | none => rfl
  | some =>
    simp only
    split
    · simp only [run_bind, now, run_now, run_execute, run_watch, run_return, if_true]
    · rfl

theorem zrange_of_members (members : set.entries.map Prod.fst = if listed then [id] else []) :
    set.zrange 0 999 = if listed then [id] else [] := by
  obtain ⟨entries, distinct⟩ := set
  cases listed with
  | false =>
    obtain rfl : entries = [] := by simpa using members
    rfl
  | true =>
    obtain ⟨first, rfl⟩ : ∃ first, entries = [first] := by
      have single : entries.length = 1 := by simpa using congrArg List.length members
      exact List.length_eq_one_iff.mp single
    obtain rfl : first.1 = id := by simpa using members
    simp [SortedSet.zrange, zindex]

attribute [local simp] Prog.run

theorem run_releaseStaleReplaying (found : world.find id = some entry) (named : entry.id = id)
    (listed : world.replayingIds = if entry.status = .replaying then [id] else []) (olderThanMinutes : Int) :
    (RedisDlq.releaseStaleReplaying olderThanMinutes).run exec world =
      if entry.isStaleBlob (world.clock - minutes olderThanMinutes) then
        (world.applyAll (releaseMoves entry (entry.markStaleReleased world.clock)
          (entry.createdAtScore world.clock)), 1)
      else
        (world, 0) := by
  have range : (world.index (.status .replaying)).zrange 0 999 =
      if entry.status = .replaying then [id] else [] := by
    have members : (world.index (.status .replaying)).entries.map Prod.fst =
        if decide (entry.status = .replaying) then [id] else [] := by
      simpa [replayingIds] using listed
    simpa using zrange_of_members members
  simp only [RedisDlq.releaseStaleReplaying, run_bind, run_zrange, range, now, run_now]
  by_cases replaying : entry.status = .replaying
  · have loaded : (loadEntries [id]).run exec world = (world, [entry]) := by
      simp only [loadEntries, List.foldlM_cons, List.foldlM_nil, run_bind, getById, run_get, found, run_return,
        List.nil_append]
    simp only [if_pos replaying, loaded, List.foldlM_cons, List.foldlM_nil, run_bind, named]
    cases dated : entry.updatedAt with
    | none => simp [isStaleBlob, dated]
    | some written =>
      have stale : entry.isStaleBlob (world.clock - minutes olderThanMinutes) =
          decide (written < world.clock - minutes olderThanMinutes) := by
        simp [isStaleBlob, replaying, dated]
      simp only [stale]
      split
      · rename_i old
        rw [← stale] at old
        simp [watchMaxAttempts, run_releaseOneStale, found, old]
      · simp
  · have fresh : entry.isStaleBlob (world.clock - minutes olderThanMinutes) = false := by
      simp [isStaleBlob, replaying]
    simp only [if_neg replaying, loadEntries, List.foldlM_nil, run_return, fresh, Bool.false_eq_true, if_false]

theorem run_completeReplay (found : world.find id = some entry) (completion : Completion)
    (errorDetails : Option Metadata) :
    (RedisDlq.completeReplay id completion errorDetails).run exec world =
      (world.applyAll (statusMoves entry
        ((completionFields world.clock entry completion errorDetails).apply world.clock entry)
        (entry.createdAtScore world.clock)), true) := by
  simp only [RedisDlq.completeReplay, run_bind, getById, run_get, found, completionFields]
  cases completion.success with
  | true =>
    simp only [if_true, run_bind, now, run_now]
    rw [run_update _ rfl, found]
  | false =>
    simp only [Bool.false_eq_true, if_false]
    rw [run_update _ rfl, found]

/-- Redis holds this entry alone, listed as REPLAYING exactly when it is. -/
structure RedisWorld.Holds (world : RedisWorld) (clock : Time) (entry : Entry) : Prop where
  clock : world.clock = clock
  place : world.InPlace entry.id (entry.status = .replaying) entry

variable {clock : Time} {updated : Entry}

theorem statusKey_eq_replaying {status : FailedOperationStatus} :
    statusKey status = .status .replaying ↔ status = .replaying := by
  rw [← statusKey_replaying]
  exact statusKey_inj

section

variable (holds : world.Holds clock entry) (named : updated.id = entry.id)

include holds named

theorem RedisWorld.Holds.moved {writes : List RedisWrite} (about : ∀ write ∈ writes, About entry.id write)
    (written : writes.foldl entryAfter entry = updated)
    (listed : writes.foldl listedAfter (entry.status = .replaying) = decide (updated.status = .replaying)) :
    (world.applyAll writes).Holds clock updated := by
  refine ⟨(clock_applyAll writes world).trans holds.clock, ?_⟩
  have place := holds.place.applyAll writes about
  rwa [written, listed, ← named] at place

attribute [local simp] entryAfter statusKey_eq_replaying whenDomain

theorem holds_statusMoves (score : Time) : (world.applyAll (statusMoves entry updated score)).Holds clock updated := by
  refine holds.moved named ?_ ?_ ?_ <;> by_cases domained : entry.domain = "" <;>
    simp [statusMoves, domained, About, named, listedAfter]

theorem holds_releaseMoves (score : Time) :
    (world.applyAll (releaseMoves entry updated score)).Holds clock updated := by
  refine holds.moved named ?_ ?_ ?_ <;> by_cases domained : entry.domain = "" <;>
    simp [releaseMoves, domained, About, named, listedAfter]

theorem holds_acquisitionMoves (replaying : updated.status = .replaying) (score : Time) :
    (world.applyAll (acquisitionMoves entry updated score)).Holds clock updated := by
  refine holds.moved named ?_ ?_ ?_ <;> by_cases domained : entry.domain = "" <;>
    simp [acquisitionMoves, domained, About, named, listedAfter, replaying]

end

theorem id_onRedis (clock : Time) (entry : Entry) (step : LifecycleStep) :
    (step.onRedis clock entry).1.id = entry.id := by
  refine id_onEntry (fun _ _ => ?_) (kept_by_release entry clock).1 step
  rfl

theorem redis_step (holds : world.Holds clock entry) (step : LifecycleStep) :
    (world.step entry.id step).1.Holds (clock + step.passed) (step.onRedis clock entry).1 ∧
      (world.step entry.id step).2 = (step.onRedis clock entry).2 := by
  have found := holds.place.found
  have listed := holds.place.replaying
  have named := id_onRedis clock entry step
  obtain rfl := holds.clock
  cases step with
  | tryAcquireForReplay maxRetries force =>
    simp only [step, perform, watchMaxAttempts, run_tryAcquireForReplay, found,
      onRedis, onEntry, passed, Nat.cast_zero, add_zero] at named ⊢
    cases verdict : entry.tryAcquireForReplay world.clock maxRetries force with
    | acquired =>
      rw [verdict] at named
      exact ⟨holds_acquisitionMoves holds named (kept_of_acquired verdict).2.2.2 _, rfl⟩
    | refused | raised => exact ⟨holds, rfl⟩
  | completeReplay =>
    simp only [step, perform, run_completeReplay found, onRedis, onEntry, passed, Nat.cast_zero, add_zero]
    exact ⟨holds_statusMoves holds named _, trivial⟩
  | returnReplayAttempt =>
    simp only [step, perform, watchMaxAttempts, run_returnReplayAttempt, found,
      onRedis, onEntry, passed, Nat.cast_zero, add_zero]
    split
    · refine ⟨holds.moved ?_ ?_ rfl rfl, rfl⟩
      · rfl
      · simp [About]
    · exact ⟨holds, rfl⟩
  | releaseStaleReplaying =>
    simp only [decide_eq_true_eq] at listed
    simp only [step, perform, run_releaseStaleReplaying found rfl listed,
      onRedis, onEntry, passed, Nat.cast_zero, add_zero] at named ⊢
    split
    · rename_i stale
      rw [if_pos stale] at named
      exact ⟨holds_releaseMoves holds named _, rfl⟩
    · exact ⟨holds, rfl⟩
  | advance => exact ⟨⟨rfl, holds.place.found, holds.place.replaying⟩, rfl⟩

end

/-- A successful completion's details leave the history of forced redrives as it is. -/
def LifecycleStep.KeepsScars (entry : Entry) : LifecycleStep → Prop
  | completeReplay completion (some details) => completion.success = true →
      (∀ value, details "previous_total_retries" = some value → entry.metadata "previous_total_retries" = some value) ∧
      ∀ value, details "force_redrive_count" = some value → entry.metadata "force_redrive_count" = some value
  | _ => True

structure Agrees (memory redis : Entry) : Prop where
  status : memory.status = redis.status
  retryCount : memory.retryCount = redis.retryCount
  maxRetries : memory.maxRetries = redis.maxRetries
  capped : redis.maxRetries ≠ 0
  previousTotalRetries : memory.metadata "previous_total_retries" = redis.metadata "previous_total_retries"
  forceRedriveCount : memory.metadata "force_redrive_count" = redis.metadata "force_redrive_count"
  /-- An entry is written once on the way into REPLAYING and not again before it leaves. -/
  held : memory.status = .replaying → memory.lastRetryAt = redis.updatedAt

abbrev StepAgrees (now : Time) (memory redis : Entry) (step : LifecycleStep) : Prop :=
  Agrees (step.onMemory now memory).1 (step.onRedis now redis).1 ∧
    (step.onMemory now memory).2 = (step.onRedis now redis).2

section

variable {step : LifecycleStep} {memory redis : Entry} {now : Time}

theorem Agrees.view (agrees : Agrees memory redis) (answer : LifecycleAnswer) :
    memory.view answer = redis.toData.view answer := by
  simp [FailedOperationData.view, FailedOperationData.toData, agrees.status, agrees.retryCount,
    agrees.maxRetries, agrees.capped, agrees.previousTotalRetries, agrees.forceRedriveCount]

theorem number_eq {first second : Metadata} {key : String} (same : first key = second key) :
    first.number key = second.number key := by
  simp [number, same]

section

variable (agrees : Agrees memory redis)

include agrees

attribute [local simp] LifecycleStep.ofVerdict Metadata.set FailedOperationData.isStaleReplaying

theorem agrees_acquired (maxRetries : Int) (force : Bool) :
    StepAgrees now memory redis (tryAcquireForReplay maxRetries force) := by
  have previous := number_eq agrees.previousTotalRetries
  have redrives := number_eq agrees.forceRedriveCount
  simp only [StepAgrees, onMemory, onRedis, onEntry, FailedOperationData.tryAcquireForReplay, agrees.status,
    agrees.retryCount, previous, redrives]
  cases force with
  | true =>
    simp only [if_true]
    split
    · split
      · refine ⟨⟨rfl, rfl, agrees.maxRetries, agrees.capped, ?_, ?_, fun _ => rfl⟩, rfl⟩
        · simp
        · simp
      · exact ⟨agrees, rfl⟩
    · exact ⟨agrees, rfl⟩
  | false =>
    simp only [Bool.false_eq_true, if_false]
    split
    · exact ⟨agrees, rfl⟩
    · split
      · exact ⟨agrees, rfl⟩
      · exact ⟨{ agrees with status := rfl, retryCount := rfl, held := fun _ => rfl }, rfl⟩

theorem isStale_eq (cutoff : Time) : memory.isStaleReplaying cutoff = redis.isStaleBlob cutoff := by
  by_cases replaying : memory.status = .replaying
  · have held := agrees.held replaying
    rw [agrees.status] at replaying
    cases dated : redis.updatedAt <;> simp [isStaleBlob, agrees.status, replaying, held, dated]
  · have other : redis.status ≠ .replaying := agrees.status ▸ replaying
    simp [isStaleBlob, replaying, other]

theorem agrees_stale : Agrees (memory.releaseStale now) (redis.markStaleReleased now) := by
  have spent : memory.maxRetries ≤ memory.retryCount ↔ redis.maxRetries ≤ redis.retryCount := by
    rw [agrees.maxRetries, agrees.retryCount]
  simp only [releaseStale, markStaleReleased, spent]
  split <;>
    exact { agrees with
      status := rfl
      previousTotalRetries := by simpa using agrees.previousTotalRetries
      forceRedriveCount := by simpa using agrees.forceRedriveCount
      held := fun replaying => nomatch replaying }

end

theorem merge_eq_iff (metadata details : Metadata) (key : String) :
    metadata.merge details key = metadata key ↔ ∀ value, details key = some value → metadata key = some value := by
  unfold merge
  cases named : details key with
  | none => simp
  | some => simp [eq_comm]

attribute [local simp] Metadata.merge

theorem merge_getD (metadata : Metadata) (details : Option Metadata) : (match details with
      | none => metadata
      | some changes => metadata.merge changes) = metadata.merge (details.getD empty) := by
  cases details with
  | none => funext key; simp [empty]
  | some => rfl

variable (agrees : Agrees memory redis)

include agrees

theorem agrees_failed {completion : Completion} (fails : completion.success = false) (errorDetails : Option Metadata) :
    Agrees ((completeReplay completion errorDetails).onMemory now memory).1
      ((completeReplay completion errorDetails).onRedis now redis).1 := by
  obtain ⟨success, _, _, _, _⟩ := completion
  obtain rfl : success = false := fails
  have merged (key : String) (same : memory.metadata key = redis.metadata key) :
      memory.metadata.merge (errorDetails.getD empty) key = redis.metadata.merge (errorDetails.getD empty) key := by
    simp [same]
  exact { agrees with
      status := by
        simp [onMemory, onRedis, onEntry, Completion.withDetails, FailedOperationData.completeReplay,
          FailedOperationData.completedStatus, completionFields, UpdateFields.apply, agrees.maxRetries,
          agrees.retryCount]
      previousTotalRetries := (merged _ agrees.previousTotalRetries).trans
        (congrFun (merge_getD redis.metadata errorDetails).symm _)
      forceRedriveCount := (merged _ agrees.forceRedriveCount).trans
        (congrFun (merge_getD redis.metadata errorDetails).symm _)
      held := by
        simp only [onMemory, onEntry, Completion.withDetails, FailedOperationData.completeReplay,
          FailedOperationData.completedStatus, Bool.false_eq_true, if_false]
        split <;> simp }

theorem agrees_succeeded {completion : Completion} (succeeds : completion.success = true)
    {errorDetails : Option Metadata} (keeps : (completeReplay completion errorDetails).KeepsScars memory) :
    Agrees ((completeReplay completion errorDetails).onMemory now memory).1
      ((completeReplay completion errorDetails).onRedis now redis).1 := by
  obtain ⟨success, _, _, _, _⟩ := completion
  obtain rfl : success = true := succeeds
  have merged : memory.metadata.merge (errorDetails.getD empty) "previous_total_retries" =
        memory.metadata "previous_total_retries" ∧
      memory.metadata.merge (errorDetails.getD empty) "force_redrive_count" =
        memory.metadata "force_redrive_count" := by
    cases errorDetails with
    | none => simp [empty]
    | some => exact ⟨(merge_eq_iff _ _ _).mpr (keeps rfl).1, (merge_eq_iff _ _ _).mpr (keeps rfl).2⟩
  exact { agrees with
      status := rfl
      previousTotalRetries := merged.1.trans agrees.previousTotalRetries
      forceRedriveCount := merged.2.trans agrees.forceRedriveCount
      held := fun replaying => nomatch replaying }

theorem agrees_step (keeps : step.KeepsScars memory) : StepAgrees now memory redis step := by
  cases step with
  | tryAcquireForReplay maxRetries force => exact agrees_acquired agrees maxRetries force
  | completeReplay completion errorDetails =>
    cases success : completion.success with
    | true => exact ⟨agrees_succeeded agrees success keeps, rfl⟩
    | false => exact ⟨agrees_failed agrees success errorDetails, rfl⟩
  | returnReplayAttempt acquiredRetryCount =>
    have fence : memory.holdsAttempt acquiredRetryCount = redis.holdsAttempt acquiredRetryCount := by
      simp [holdsAttempt, agrees.status, agrees.retryCount]
    simp only [StepAgrees, onMemory, onRedis, onEntry, fence]
    split
    · exact ⟨{ agrees with retryCount := rfl }, rfl⟩
    · exact ⟨agrees, rfl⟩
  | releaseStaleReplaying olderThanMinutes =>
    simp only [StepAgrees, onMemory, onRedis, onEntry, isStale_eq agrees]
    split
    · exact ⟨agrees_stale agrees, rfl⟩
    · exact ⟨agrees, rfl⟩
  | advance => exact ⟨agrees, rfl⟩

theorem keepsScars_of_view (same : (step.onMemory now memory).1.view (step.onMemory now memory).2 =
      (step.onRedis now redis).1.toData.view (step.onRedis now redis).2) : step.KeepsScars memory := by
  cases step with
  | completeReplay completion errorDetails =>
    cases errorDetails with
    | none => trivial
    | some =>
      intro succeeds
      obtain ⟨success, _, _, _, _⟩ := completion
      obtain rfl : success = true := succeeds
      have previous := congrArg LifecycleView.previousTotalRetries same
      have redrives := congrArg LifecycleView.forceRedriveCount same
      exact ⟨(merge_eq_iff _ _ _).mp (previous.trans agrees.previousTotalRetries.symm),
        (merge_eq_iff _ _ _).mp (redrives.trans agrees.forceRedriveCount.symm)⟩
  | _ => trivial

end

structure NewOperation where
  domain : String
  failureType : String
  errorMessage : String := ""
  metadata : Metadata := Metadata.empty
  retryCount : Int := 0
  maxRetries : Int := 2
  recommendedAction : String := ""

namespace NewOperation

variable (operation : NewOperation)

def entry (id : String) (instant : Time) : Entry :=
  RedisDlq.newEntry operation.domain operation.failureType operation.errorMessage operation.metadata
    operation.retryCount operation.maxRetries operation.recommendedAction id instant

def inMemory (clock : Time) (nextId : Nat) : MemoryQueue × Entry :=
  let out := MemoryStore.create { nextId } clock (operation.entry "" clock)
  (⟨clock, out.1⟩, out.2)

def inRedis (clock : Time) (namespaceText : String) (nextSeq : Nat) : RedisWorld × Entry :=
  (RedisDlq.create operation.domain operation.failureType operation.errorMessage operation.metadata
    operation.retryCount operation.maxRetries operation.recommendedAction).run exec { clock, namespaceText, nextSeq }

def memoryLifecycle (clock : Time) (nextId : Nat) (steps : List LifecycleStep) : List (Option LifecycleView) :=
  let (queue, created) := operation.inMemory clock nextId
  (queue.store.find created.id).map (fun entry => entry.view .created) :: queue.views created.id steps

def redisLifecycle (clock : Time) (namespaceText : String) (nextSeq : Nat) (steps : List LifecycleStep) :
    List (Option LifecycleView) :=
  let (world, created) := operation.inRedis clock namespaceText nextSeq
  (world.find created.id).map (fun entry => entry.toData.view .created) :: world.views created.id steps

end NewOperation

def MemoryQueue.ScarsKept (id : String) : MemoryQueue → List LifecycleStep → Prop
  | _, [] => True
  | queue, step :: rest =>
      (∀ entry, queue.store.find id = some entry → step.KeepsScars entry) ∧
        MemoryQueue.ScarsKept id (queue.step id step).1 rest

theorem inRedis_eq (operation : NewOperation) (clock : Time) (namespaceText : String) (nextSeq : Nat) :
    ∃ id, operation.inRedis clock namespaceText nextSeq =
      (applyAll { clock, namespaceText, nextSeq := nextSeq + 1 }
        (RedisDlq.creationMoves (operation.entry id clock) clock), operation.entry id clock) := by
  exact ⟨namespaceText ++ ":" ++ nextSeq.repr, rfl⟩

theorem redis_created (operation : NewOperation) (clock : Time) (namespaceText : String) (nextSeq : Nat) :
    (operation.inRedis clock namespaceText nextSeq).1.Holds clock
      (operation.inRedis clock namespaceText nextSeq).2 := by
  obtain ⟨id, made⟩ := inRedis_eq operation clock namespaceText nextSeq
  rw [made]
  refine ⟨clock_applyAll _ _, ?_⟩
  have stored : (apply { clock, namespaceText, nextSeq := nextSeq + 1 }
      (.setBlob (operation.entry id clock))).InPlace id false (operation.entry id clock) := by
    refine ⟨?_, rfl⟩
    rw [find_apply]
    exact if_pos rfl
  refine stored.applyAll (RedisDlq.creationMoves (operation.entry id clock) clock).tail ?_
  simp [RedisDlq.creationMoves, About]

theorem agrees_created (operation : NewOperation) (cap : 1 ≤ operation.maxRetries) (clock : Time) (nextId : Nat)
    (namespaceText : String) (nextSeq : Nat) :
    Agrees (operation.inMemory clock nextId).2 (operation.inRedis clock namespaceText nextSeq).2 := by
  obtain ⟨id, made⟩ := inRedis_eq operation clock namespaceText nextSeq
  rw [made]
  have capped : operation.maxRetries ≠ 0 := by omega
  exact ⟨rfl, rfl, rfl, capped, rfl, rfl, fun replaying => nomatch replaying⟩

attribute [local simp] MemoryQueue.ScarsKept

theorem views_eq_iff (steps : List LifecycleStep) :
    ∀ {queue : MemoryQueue} {world : RedisWorld} {clock : Time} {memory redis : Entry},
      queue.Holds clock memory → world.Holds clock redis → Agrees memory redis →
      (queue.views memory.id steps = world.views redis.id steps ↔ queue.ScarsKept memory.id steps) := by
  induction steps with
  | nil => intros; simp [MemoryQueue.views, views]
  | cons step rest ih =>
    intro queue world clock memory redis inMemory inRedis agrees
    obtain ⟨memoryHolds, memoryAnswer⟩ := memory_step inMemory step
    obtain ⟨redisHolds, redisAnswer⟩ := redis_step inRedis step
    have memoryFound := memoryHolds.find
    have redisFound := redisHolds.place.found
    rw [id_onMemory] at memoryFound
    rw [id_onRedis] at redisFound
    simp only [MemoryQueue.views, views, MemoryQueue.ScarsKept, memoryFound, redisFound, memoryAnswer,
      redisAnswer, inMemory.find, Option.map_some, List.cons.injEq, Option.some.injEq, forall_eq']
    -- A step whose views agree keeps the relation, and the rest of the run follows from it.
    have later (keeps : step.KeepsScars memory) :
        ((queue.step memory.id step).1.views memory.id rest = (world.step redis.id step).1.views redis.id rest ↔
          (queue.step memory.id step).1.ScarsKept memory.id rest) := by
      have next := ih memoryHolds redisHolds (agrees_step agrees keeps).1
      rwa [id_onMemory, id_onRedis] at next
    constructor
    · rintro ⟨same, tail⟩
      have keeps := keepsScars_of_view agrees same
      exact ⟨keeps, (later keeps).mp tail⟩
    · rintro ⟨keeps, tail⟩
      obtain ⟨related, answers⟩ := agrees_step agrees keeps
      refine ⟨?_, (later keeps).mpr tail⟩
      rw [answers]
      exact related.view _

def redriveRun : List LifecycleStep :=
  [.tryAcquireForReplay 0 true, .returnReplayAttempt 1, .advance 120000000, .releaseStaleReplaying 1,
    .tryAcquireForReplay 2 false,
    .completeReplay ⟨true, "manual", "", none, empty⟩ (some (Metadata.empty.set "handler" (.text "retry")))]

end Baldur.Dlq
