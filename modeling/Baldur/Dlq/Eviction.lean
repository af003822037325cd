import Baldur.Dlq.AttemptCount
import Baldur.Dlq.EvictionCore
import Baldur.Dlq.LifecycleParity

/-!
Eviction against work in progress. An eviction looks at an entry and deletes it later; nobody must take the
entry up in between.
-/

namespace Baldur.Dlq

open RedisMaintenance FailedOperationData MemoryCall RedisDlq Pool
open Prog hiding call

variable {now : Time} {id : String} {status : FailedOperationStatus} {entry : Entry}
  {world : RedisWorld} {thread : Nat}

namespace MemoryStore

variable (store : MemoryStore)

theorem find_pop (popped id : String) : (store.pop popped).1.find id = if popped = id then none else store.find id := by
  unfold pop
  cases found : store.find popped with
  | none =>
    by_cases same : popped = id
    · subst same
      simp [found]
    · simp [same]
  | some => exact Table.find_erase store.storage popped id

theorem find_popAll_from (evicted : MemoryStore × Nat) (ids : List String) (id : String) :
    (ids.foldl popCounted evicted).1.find id = if id ∈ ids then none else evicted.1.find id := by
  induction ids generalizing evicted with
  | nil => simp
  | cons head rest ih =>
    rw [List.foldl_cons, ih]
    simp only [popCounted, find_pop, List.mem_cons]
    by_cases later : id ∈ rest
    · simp [later]
    · by_cases same : head = id
      · simp [same]
      · simp [later, same, Ne.symm same]

theorem find_popUnprotected_from (evicted : MemoryStore × Nat) (ids : List String) (id : String) :
    (ids.foldl popUnprotectedCounted evicted).1.find id = evicted.1.find id ∨
      (ids.foldl popUnprotectedCounted evicted).1.find id = none ∧
        ∀ entry, evicted.1.find id = some entry → entry.status.evictionProtected = false := by
  induction ids generalizing evicted with
  | nil => exact .inl rfl
  | cons head rest ih =>
    rw [List.foldl_cons]
    have later := ih (popUnprotectedCounted evicted head)
    unfold popUnprotectedCounted at later ⊢
    split
    · rename_i held
      simpa only [held, if_true] using later
    · rename_i free
      simp only [free, Bool.false_eq_true, if_false, popCounted, find_pop] at later ⊢
      by_cases same : head = id
      · subst same
        simp only [if_true] at later
        refine .inr ⟨?_, fun entry found => ?_⟩
        · rcases later with gone | ⟨gone, _⟩ <;> exact gone
        · simpa [found] using free
      · simpa only [same, if_false] using later

theorem evictable_of_oldest {iteration : SetIteration} {count : Int} {domain : Option String}
    (listed : id ∈ store.getOldestIds iteration now count domain) :
    ∃ entry, store.find id = some entry ∧ entry.status.nonEvictable = false := by
  simp only [getOldestIds, List.mem_map] at listed
  obtain ⟨entry, sliced, named⟩ := listed
  have sorted : entry ∈ ((store.candidates iteration domain).filter
      fun entry => !entry.status.nonEvictable).insertionSort
        fun left right => left.createdAtScore now ≤ right.createdAtScore now := by
    unfold sliceTo at sliced
    split at sliced <;> exact List.mem_of_mem_take sliced
  rw [List.mem_insertionSort, List.mem_filter] at sorted
  obtain ⟨candidate, evictable⟩ := sorted
  refine ⟨entry, ?_, by simpa using evictable⟩
  unfold candidates at candidate
  split at candidate
  · obtain ⟨key, _, found⟩ := List.mem_filterMap.mp candidate
    have same : entry.id = key := id_of_find found
    rw [← named, same]
    exact found
  · rw [← named]
    exact (Table.mem_entries_iff store.storage entry).mp candidate

end MemoryStore

def MemoryCall.takesUp (id : String) : (call : MemoryCall) → call.Answer → Bool
  | .tryAcquireForReplay other _ _, .acquired _ => other = id
  | .updateStatus other update, true => other = id && update.status.evictionProtected
  | _, _ => false

def Unheld (id : String) (find : String → Option Entry) : Prop :=
  ∀ entry, find id = some entry → entry.status.evictionProtected = false

attribute [local simp] effect takesUp

theorem unheld_effect {store : MemoryStore} (call : MemoryCall) (found : store.find id = some entry)
    (free : entry.status.evictionProtected = false)
    (untaken : call.takesUp id (call.exec now store).2 = false) :
    (call.effect now id entry).status.evictionProtected = false := by
  cases call with
  | getById => exact free
  | tryAcquireForReplay other maxRetries force =>
    by_cases same : other = id
    · subst same
      rw [show (exec now store (.tryAcquireForReplay other maxRetries force)).2 = _ from
        answer_tryAcquireForReplay found maxRetries force] at untaken
      simp only [effect, if_true]
      cases verdict : entry.tryAcquireForReplay now maxRetries force with
      | acquired => simp [verdict] at untaken
      | refused => exact free
      | raised => exact free
    · simpa [same] using free
  | completeReplay =>
    simp only [effect]
    split
    · simp only [FailedOperationData.completeReplay, completedStatus]
      split
      · rfl
      · split <;> rfl
    · exact free
  | returnReplayAttempt =>
    simp only [effect]
    split
    · split <;> exact free
    · exact free
  | releaseStaleReplaying =>
    simp only [effect]
    split
    · unfold releaseStale
      split <;> rfl
    · exact free
  | updateStatus other =>
    by_cases same : other = id
    · subst same
      simpa [exec, MemoryStore.updateStatus, found, FailedOperationData.updateStatus] using untaken
    · simpa [same] using free

def memoryVetting (id : String) : Vetting MemoryEvictionCall MemoryEvictionCall.Answer where
  looks
    | .getOldestIds _ _, ids => if id ∈ ids then some true else none
    | _, _ => none
  spoils
    | .lifecycle call, answer => call.takesUp id answer
    | _, _ => false

def MemoryEvictionCall.discards : MemoryEvictionCall → List String
  | .popAll ids => ids
  | _ => []

def runsMemoryEviction (_ : MemoryEvictionConfig) : MemoryEvictionAction → Prop
  | .spawn program => ∃ job : MemoryEvictionJob, program = job.program
  | _ => True

def memoryUndisturbed (config : MemoryEvictionConfig) : MemoryEvictionAction → Prop
  | .step thread => ∀ call ∈ config.pending thread, ∀ id ∈ call.discards,
      (memoryVetting id).disturbed thread config.trace = false
  | _ => True

instance (config : MemoryEvictionConfig) :
    (action : MemoryEvictionAction) → Decidable (memoryUndisturbed config action)
  | .step thread => inferInstanceAs (Decidable (∀ call ∈ config.pending thread, ∀ id ∈ call.discards,
      (memoryVetting id).disturbed thread config.trace = false))
  | .disturb _ => isTrue trivial
  | .spawn _ => isTrue trivial

def memorySpares (config : MemoryEvictionConfig) (action : MemoryEvictionAction) : Prop :=
  ∀ id entry, config.state.store.find id = some entry →
    (memoryEviction.act config action).state.store.find id = none → entry.status.evictionProtected = false

def memoryEvictionDiscipline (id : String) : Discipline MemoryEvictionCall MemoryEvictionCall.Answer Bool where
  may listed call := id ∈ call.discards → listed = true
  valid _ _ _ := True
  after listed
    | .getOldestIds _ _, ids => listed || decide (id ∈ ids)
    | _, _ => listed

theorem keeps_storeSummaries (id : String) (inv : Bool → Prop) (summaries : List CompressedEntry) :
    Keeps (memoryEvictionDiscipline id) inv (MemoryDlq.storeSummaries summaries) := by
  induction summaries with
  | nil => exact keeps_ret ()
  | cons summary rest ih =>
    refine keeps_bind (keeps_perform ?_ ?_) fun _ => ih
    · intro listed _ discarded
      cases discarded
    · exact fun _ _ holds _ => holds

theorem memoryEvictionJob_obeys (id : String) (job : MemoryEvictionJob) :
    Obeys (memoryEvictionDiscipline id) (fun _ _ => True) false job.program := by
  cases job with
  | evictOldest =>
    refine ⟨fun discarded => (by cases discarded), fun ids _ => ?_⟩
    exact ⟨fun discarded => (by cases discarded), fun _ _ => trivial⟩
  | compressAndEvictOldest compressEntries =>
    refine (obeys_bind ..).mpr ?_
    refine ⟨fun discarded => (by cases discarded), fun ids _ => ?_⟩
    refine (obeys_ite _ _ _ _ _ _).mpr ⟨fun _ => trivial, fun _ => ?_⟩
    refine ⟨fun discarded => (by cases discarded), fun entries _ => ?_⟩
    refine (obeys_ite _ _ _ _ _ _).mpr ⟨fun _ => trivial, fun _ => ?_⟩
    have stored := keeps_storeSummaries id (fun listed => id ∈ ids → listed = true) (compressEntries entries)
    rw [obeys_bind]
    refine (stored _ fun member => ?_).mono fun listed _ kept => ⟨kept, fun _ _ => trivial⟩
    change (false || decide (id ∈ ids)) = true
    simpa using member
  | lifecycle => exact ⟨fun discarded => (by cases discarded), fun _ _ => trivial⟩

theorem memory_looked (id : String) (call : MemoryEvictionCall) (world : MemoryEvictionWorld)
    (seen : (memoryVetting id).looks call (world.exec call).2 = some true) :
    Unheld id (world.exec call).1.store.find := by
  cases call with
  | getOldestIds =>
    simp only [memoryVetting, MemoryEvictionWorld.exec] at seen
    split at seen
    · rename_i listed
      obtain ⟨entry, found, evictable⟩ := world.store.evictable_of_oldest listed
      intro stored located
      obtain rfl : stored = entry := Option.mem_unique located found
      simp only [FailedOperationStatus.nonEvictable, Bool.or_eq_false_iff] at evictable
      exact evictable.2
    · cases seen
  | _ => cases seen

theorem memory_kept (id : String) (call : MemoryEvictionCall) (world : MemoryEvictionWorld)
    (unheld : Unheld id world.store.find)
    (unspoiled : (memoryVetting id).spoils call (world.exec call).2 = false) :
    Unheld id (world.exec call).1.store.find := by
  cases call with
  | lifecycle call =>
    intro entry found
    have moved : (call.exec world.clock world.store).1.find id = some entry := found
    rw [find_exec, Option.map_eq_some_iff] at moved
    obtain ⟨stored, located, rfl⟩ := moved
    exact unheld_effect call located (unheld stored located) unspoiled
  | popUnprotected ids =>
    intro entry found
    have moved : (world.store.popUnprotected ids).1.find id = some entry := found
    rcases MemoryStore.find_popUnprotected_from (world.store, 0) ids id with same | ⟨gone, _⟩
    · exact unheld entry (same.symm.trans moved)
    · cases gone.symm.trans moved
  | popAll ids =>
    intro entry found
    have moved := (MemoryStore.find_popAll_from (world.store, 0) ids id).symm.trans found
    split at moved
    · cases moved
    · exact unheld entry moved
  | _ => exact unheld

def MemoryVetted (id : String) (world : MemoryEvictionWorld)
    (trace : List (Event MemoryEvictionCall MemoryEvictionCall.Answer)) (locals : List Bool) : Prop :=
  (memoryVetting id).Vouched (fun world : MemoryEvictionWorld => Unheld id world.store.find) world trace ∧
    ∀ thread : Nat, locals[thread]? = some true → (memoryVetting id).verdict thread trace = some true

theorem memoryEviction_sound (id : String) :
    Sound memoryEviction (memoryEvictionDiscipline id) (fun _ _ => True) (MemoryVetted id) runsMemoryEviction where
  step config locals thread listed call _ _ vetted located _ := by
    obtain ⟨vouched, seen⟩ := vetted
    refine ⟨trivial, [], .nil, ?_, ?_⟩
    · exact Vetting.vouched_step (memory_looked id) (memory_kept id) vouched thread call
    · intro other there
      rcases located_after located there with ⟨rfl, moved⟩ | ⟨apart, before⟩ | ⟨_, none⟩
      · simp only [Vetting.verdict, if_true]
        cases call with
        | getOldestIds =>
          simp only [memoryVetting]
          split
          · rfl
          · rename_i unlisted
            refine seen other ?_
            have stays : (listed || decide (id ∈ _)) = true := moved.symm
            rw [Bool.or_eq_true] at stays
            rcases stays with already | member
            · rw [located, already]
            · exact absurd (of_decide_eq_true member) unlisted
        | _ => exact seen other (located.trans (congrArg some moved.symm))
      · simp only [Vetting.verdict, Ne.symm apart, if_false]
        exact seen other before
      · cases none
  disturb config locals change _ vetted := by
    cases change with
    | advance => exact vetted
  spawn config locals program job vetted := by
    obtain ⟨job, rfl⟩ := job
    refine ⟨false, memoryEvictionJob_obeys id job, vetted.1, fun thread there => vetted.2 thread ?_⟩
    rcases located_append there with before | ⟨_, new⟩
    · exact before
    · cases new

theorem memory_removes (call : MemoryEvictionCall)
    (world : MemoryEvictionWorld) (found : world.store.find id = some entry)
    (gone : (world.exec call).1.store.find id = none) :
    id ∈ call.discards ∨ entry.status.evictionProtected = false := by
  cases call with
  | lifecycle call =>
    have moved : (call.exec world.clock world.store).1.find id = none := gone
    rw [find_exec, found] at moved
    cases moved
  | popUnprotected ids =>
    have moved : (world.store.popUnprotected ids).1.find id = none := gone
    rcases MemoryStore.find_popUnprotected_from (world.store, 0) ids id with same | ⟨_, free⟩
    · cases found.symm.trans (same.symm.trans moved)
    · exact .inr (free entry found)
  | popAll ids =>
    have moved := (MemoryStore.find_popAll_from (world.store, 0) ids id).symm.trans gone
    split at moved
    · rename_i listed
      exact .inl listed
    · cases found.symm.trans moved
  | _ => cases found.symm.trans gone

theorem memory_spares (world : MemoryEvictionWorld) (schedule : List MemoryEvictionAction)
    (jobs : memoryEviction.Always runsMemoryEviction (start world) schedule)
    (undisturbed : memoryEviction.Always memoryUndisturbed (start world) schedule) :
    memoryEviction.Always memorySpares (start world) schedule := by
  rw [Machine.always_iff_split] at undisturbed ⊢
  intro first action rest split id entry found gone
  have allowed := undisturbed first action rest split
  subst split
  have coherent : Coherent (memoryEvictionDiscipline id) (fun _ (_ : Unit) => True) (MemoryVetted id)
      (memoryEviction.run (start world) first) := by
    refine (memoryEviction_sound id).run ((Machine.always_append _ _ _ _).mp jobs).1 ?_
    exact ⟨[], .nil, fun _ unseen => (by cases unseen), fun _ none => (by cases none)⟩
  cases action with
  | step thread =>
    cases pending : (memoryEviction.run (start world) first).pending thread with
    | none =>
      rw [memoryEviction.act_idle pending] at gone
      cases found.symm.trans gone
    | some call =>
      obtain ⟨next, threadAt⟩ := Config.pending_eq_some.mp pending
      obtain ⟨locals, listed, ⟨vouched, seen⟩, located, may⟩ := coherent.may_of_pending pending
      rw [memoryEviction.act_step threadAt] at gone
      rcases memory_removes call _ found gone with discarded | free
      · obtain rfl : listed = true := may discarded
        exact vouched thread (seen thread located) (allowed call pending id discarded) entry found
      · exact free
  | disturb change =>
    cases change
    cases found.symm.trans gone
  | spawn => cases found.symm.trans gone

/-!
The Redis repository: what each operation, run alone, does to one entry.
-/

/-- The entry stays stored, and stays in no protected status unless it was taken up. -/
structure Carried (id : String) (taken : Prop) (before after : RedisWorld) : Prop where
  present : before.find id ≠ none → after.find id ≠ none
  unheld : Unheld id before.find → ¬taken → Unheld id after.find

section

variable {id : String} {taken : Prop} {before after : RedisWorld}

theorem carried_of_same (same : after.find id = before.find id) : Carried id taken before after := by
  refine ⟨fun stored => by rwa [same], fun unheld _ entry found => unheld entry ?_⟩
  rw [← same]
  exact found

theorem Carried.trans {middle : RedisWorld} (first : Carried id taken before middle)
    (second : Carried id taken middle after) : Carried id taken before after := by
  refine ⟨fun stored => second.present (first.present stored), fun unheld untaken => ?_⟩
  exact second.unheld (first.unheld unheld untaken) untaken

theorem Carried.mono {wider : Prop} (carried : Carried id taken before after) (implied : taken → wider) :
    Carried id wider before after := by
  exact ⟨carried.present, fun unheld untaken => carried.unheld unheld fun took => untaken (implied took)⟩

theorem carried_applyAll (target : String) (updated : Entry) {writes : List RedisWrite}
    (writesIt : (∀ write ∈ writes, write.concerns target) ∧ (before.applyAll writes).find target = some updated)
    (free : target = id → Unheld id before.find → ¬taken → updated.status.evictionProtected = false) :
    Carried id taken before (before.applyAll writes) := by
  obtain ⟨own, stored⟩ := writesIt
  by_cases same : target = id
  · subst same
    refine ⟨fun _ => by simp [stored], fun unheld untaken entry found => ?_⟩
    obtain rfl : updated = entry := Option.mem_unique stored found
    exact free rfl unheld untaken
  · exact carried_of_same (RedisWorld.find_applyAll_of_ne (Ne.symm same) writes before own)

end

section

variable {world : RedisWorld} (id : String) (target : String)

attribute [local simp] RedisWorld.applyAll RedisWorld.find_apply RedisWrite.concerns UpdateFields.apply

abbrev CarriedBy {α : Type} (program : RedisProg α) (world : RedisWorld) (taken : α → Prop) : Prop :=
  Carried id (taken (program.run RedisWorld.exec world).2) world (program.run RedisWorld.exec world).1

theorem carriedBy_update {fields : UpdateFields} (moves : fields.status = some status) :
    CarriedBy id (update target fields) world fun answer =>
      target = id ∧ answer = true ∧ status.evictionProtected = true := by
  rw [CarriedBy, run_update fields (by rw [moves]; rfl)]
  cases found : world.find target with
  | none => exact carried_of_same rfl
  | some existing =>
    have named : existing.id = target := id_of_find found
    refine carried_applyAll target (fields.apply world.clock existing) ?_ fun here _ untaken => ?_
    · unfold statusMoves whenDomain
      split <;> simp [named]
    · have entered : (fields.apply world.clock existing).status = status := by
        simp [moves]
      rw [entered]
      cases held : status.evictionProtected with
      | false => rfl
      | true => exact absurd ⟨here, rfl, held⟩ untaken

theorem carriedBy_updateStatus (update : StatusUpdate) :
    CarriedBy id (updateStatus target update) world
      fun answer => target = id ∧ answer = true ∧ update.status.evictionProtected = true := by
  rw [CarriedBy, RedisDlq.updateStatus, run_bind]
  exact carriedBy_update id target rfl

theorem carriedBy_completeReplay (completion : Completion) (errorDetails : Option Metadata) :
    CarriedBy id (completeReplay target completion errorDetails) world fun _ => False := by
  rw [CarriedBy, RedisDlq.completeReplay, run_bind]
  split
  · refine (carriedBy_update id target rfl).mono ?_
    rintro ⟨_, _, held⟩
    cases held
  · refine (carriedBy_update id target rfl).mono ?_
    rintro ⟨_, _, held⟩
    split at held
    · split at held <;> cases held
    · cases held

theorem carriedBy_tryAcquireForReplay (maxRetries : Int) (force : Bool) :
    CarriedBy id (tryAcquireForReplay target maxRetries force watchMaxAttempts) world fun answer =>
      target = id ∧ ∃ updated, answer = .acquired updated := by
  rw [CarriedBy, watchMaxAttempts, run_tryAcquireForReplay]
  cases found : world.find target with
  | none => exact carried_of_same rfl
  | some entry =>
    have named : entry.id = target := id_of_find found
    simp only
    cases verdict : entry.tryAcquireForReplay world.clock maxRetries force with
    | acquired updated =>
      have kept := (kept_of_acquired verdict).1
      refine carried_applyAll target updated ?_ fun here _ untaken => ?_
      · unfold acquisitionMoves whenDomain
        split <;> simp [kept, named]
      · exact absurd ⟨here, updated, rfl⟩ untaken
    | refused | raised => exact carried_of_same rfl

theorem carriedBy_returnReplayAttempt (acquiredRetryCount : Int) :
    CarriedBy id (returnReplayAttempt target acquiredRetryCount watchMaxAttempts) world fun _ => False := by
  rw [CarriedBy, watchMaxAttempts, run_returnReplayAttempt]
  cases found : world.find target with
  | none => exact carried_of_same rfl
  | some entry =>
    have named : entry.id = target := id_of_find found
    simp only
    split
    · refine carried_applyAll target { entry with retryCount := acquiredRetryCount - 1 } ?_ ?_
      · simp [named]
      · rintro rfl unheld _
        exact unheld entry found
    · exact carried_of_same rfl

theorem carriedBy_releaseOneStale (cutoff : Time) :
    CarriedBy id (releaseOneStale target cutoff watchMaxAttempts) world fun _ => False := by
  rw [CarriedBy, watchMaxAttempts, run_releaseOneStale]
  cases found : world.find target with
  | none => exact carried_of_same rfl
  | some entry =>
    have named : entry.id = target := id_of_find found
    simp only
    split
    · have kept := (kept_by_release entry world.clock).1
      refine carried_applyAll target (entry.markStaleReleased world.clock) ?_ fun _ _ _ => ?_
      · unfold releaseMoves whenDomain
        split <;> simp [kept, named]
      · unfold markStaleReleased
        split <;> rfl
    · exact carried_of_same rfl

theorem carriedBy_releaseStaleReplaying (olderThanMinutes : Int) :
    CarriedBy id (releaseStaleReplaying olderThanMinutes) world fun _ => False := by
  simp only [CarriedBy, RedisDlq.releaseStaleReplaying, run_bind]
  refine run_foldlM_keeps (Carried id False world) (fun _ entry during carried => ?_) _ _ ?_
  · split
    · exact carried
    · split
      · rw [run_bind]
        exact carried.trans (carriedBy_releaseOneStale id entry.id _)
      · exact carried
  · change Carried id False world ((loadEntries _).run RedisWorld.exec world).1
    refine run_foldlM_keeps (Carried id False world) (fun _ target during carried => ?_) _ _ (carried_of_same rfl)
    rw [run_bind]
    split <;> exact carried

theorem find_delete :
    ((delete target).run RedisWorld.exec world).1.find id = if target = id then none else world.find id := by
  simp only [delete, run_bind, RedisDlq.getById, run_get]
  cases found : world.find target with
  | none => exact RedisWorld.find_apply world (.delete target) id
  | some entry =>
    have named : entry.id = target := id_of_find found
    simp only [run_bind, run_batchWriteOps, run_return]
    unfold deletionMoves whenDomain
    split <;> simp [named]

end

abbrev RedisEvictionEvent := Event RedisEvictionCall RedisEvictionCall.Answer

def heldBlob (blob : Option Entry) : Bool :=
  blob.any fun entry => entry.status.evictionProtected

def RedisEvictionCall.takesUp (id : String) : (call : RedisEvictionCall) → call.Answer → Bool
  | .tryAcquireForReplay other _ _, .acquired _ => other = id
  | .updateStatus other update, true => other = id && update.status.evictionProtected
  | _, _ => false

def redisVetting (id : String) : Vetting RedisEvictionCall RedisEvictionCall.Answer where
  looks
    | .getById other, blob => if other = id then some (!heldBlob blob) else none
    | .loadBlob other, blob => if other = id then some (!heldBlob blob) else none
    | _, _ => none
  spoils call answer := call.takesUp id answer

def RedisEvictionCall.discards : RedisEvictionCall → List String
  | .delete id => [id]
  | _ => []

def readHeld (id : String) (thread : Nat) : List RedisEvictionEvent → Bool
  | [] => false
  | ⟨mover, call, answer⟩ :: rest =>
      if mover = thread then
        match call, answer with
        | .getById other, blob => if other = id then heldBlob blob else readHeld id thread rest
        | .loadBlob other, _ => if other = id then false else readHeld id thread rest
        | _, _ => readHeld id thread rest
      else
        readHeld id thread rest

def runsRedisEviction (_ : RedisEvictionConfig) : RedisEvictionAction → Prop
  | .spawn program => ∃ job : RedisEvictionJob, program = job.program
  | _ => True

/-- Nobody took up what is deleted since the deleting worker last looked at it, and a compression
did not read it in a protected status. -/
def redisUndisturbed (config : RedisEvictionConfig) : RedisEvictionAction → Prop
  | .step thread => ∀ call ∈ config.pending thread, ∀ id ∈ call.discards,
      (redisVetting id).disturbed thread config.trace = false ∧ readHeld id thread config.trace = false
  | _ => True

instance (config : RedisEvictionConfig) :
    (action : RedisEvictionAction) → Decidable (redisUndisturbed config action)
  | .step thread => inferInstanceAs (Decidable (∀ call ∈ config.pending thread, ∀ id ∈ call.discards,
      (redisVetting id).disturbed thread config.trace = false ∧ readHeld id thread config.trace = false))
  | .disturb _ => isTrue trivial
  | .spawn _ => isTrue trivial

def redisSpares (config : RedisEvictionConfig) (action : RedisEvictionAction) : Prop :=
  ∀ id entry, config.state.redis.find id = some entry →
    (redisEviction.act config action).state.redis.find id = none → entry.status.evictionProtected = false

def redisEvictionDiscipline (id : String) : Discipline RedisEvictionCall RedisEvictionCall.Answer Bool where
  may cleared call := id ∈ call.discards → cleared = true
  valid _
    | .getById other, blob => ∀ entry, blob = some entry → entry.id = other
    | _, _ => True
  after cleared
    | .getById other, _ => if other = id then true else cleared
    | .loadBlob other, blob => if other = id then !heldBlob blob else cleared
    | _, _ => cleared

section

variable (id : String)

theorem keeps_redisStoreSummaries (inv : Bool → Prop) (summaries : List CompressedEntry) :
    Keeps (redisEvictionDiscipline id) inv (storeSummaries summaries) := by
  induction summaries with
  | nil => exact keeps_ret ()
  | cons summary rest ih =>
    refine keeps_bind (keeps_perform ?_ ?_) fun _ => ih
    · intro cleared _ discarded
      cases discarded
    · exact fun _ _ holds _ => holds

theorem keeps_evictOne (evicted : Nat) (target : String) :
    Keeps (redisEvictionDiscipline id) (fun _ => True) (evictOne evicted target) := by
  intro cleared _
  refine ⟨fun discarded => (by cases discarded), fun blob _ => ?_⟩
  refine (obeys_ite _ _ _ _ _ _).mpr ⟨fun _ => trivial, fun free => ?_⟩
  refine ⟨fun discarded => ?_, fun _ _ => trivial⟩
  obtain rfl : id = target := List.mem_singleton.mp discarded
  have passed : heldBlob blob = false := by simpa [heldBlob] using free
  simp [redisEvictionDiscipline, passed]

theorem obeys_readEntries (ids : List String) (cleared : Bool) :
    Obeys (redisEvictionDiscipline id)
      (fun cleared entries => ∀ entry ∈ entries, entry.id = id → cleared = true) cleared
      (readEntries ids) := by
  refine obeys_foldlM _ _ _ ids ?_ cleared [] (by simp)
  intro cleared entries target _ known
  refine ⟨fun discarded => (by cases discarded), fun blob valid => ?_⟩
  intro entry member named
  by_cases same : target = id
  · exact if_pos same
  · have before : entry ∈ entries := by
      cases blob with
      | none => exact member
      | some =>
        rcases List.mem_append.mp member with already | last
        · exact already
        · obtain rfl := List.mem_singleton.mp last
          exact absurd ((valid entry rfl).symm.trans named) same
    have stays : (redisEvictionDiscipline id).after cleared (.getById target) blob = cleared := if_neg same
    exact stays.trans (known entry before named)

theorem redisEvictionJob_obeys (job : RedisEvictionJob) :
    Obeys (redisEvictionDiscipline id) (fun _ _ => True) false job.program := by
  cases job with
  | evictOldest =>
    refine ⟨fun discarded => (by cases discarded), fun ids _ => ?_⟩
    have loop : Keeps (redisEvictionDiscipline id) (fun _ => True) (ids.foldlM evictOne 0) :=
      keeps_foldlM (fun evicted target _ => keeps_evictOne id evicted target) 0
    exact (obeys_bind _ _ _ _ _).mpr ((loop _ trivial).mono fun _ _ _ => trivial)
  | compressAndEvictOldest compressEntries =>
    refine (obeys_bind ..).mpr ?_
    refine ⟨fun discarded => (by cases discarded), fun ids _ => ?_⟩
    refine (obeys_ite _ _ _ _ _ _).mpr ⟨fun _ => trivial, fun _ => ?_⟩
    rw [obeys_bind]
    refine (obeys_readEntries id ids _).mono fun cleared entries known => ?_
    refine (obeys_ite _ _ _ _ _ _).mpr ⟨fun _ => trivial, fun _ => ?_⟩
    rw [obeys_bind]
    have stored := keeps_redisStoreSummaries id
      (fun cleared => ∀ entry ∈ entries, entry.id = id → cleared = true) (compressEntries entries)
    refine (stored cleared known).mono fun cleared' _ known' => ?_
    refine (obeys_foldlM _ (fun cleared _ => ∀ entry ∈ entries, entry.id = id → cleared = true) _
      entries ?_ cleared' 0 known').mono fun _ _ _ => trivial
    intro cleared'' evicted entry member holds
    refine ⟨fun discarded => ?_, fun _ _ => holds⟩
    exact holds entry member (List.mem_singleton.mp discarded).symm
  | tryAcquireForReplay
  | completeReplay
  | updateStatus
  | returnReplayAttempt
  | releaseStaleReplaying =>
    exact ⟨fun discarded => (by cases discarded), fun _ _ => trivial⟩

end

theorem find_getOldestIds (world : RedisWorld) (id : String) (count : Int) (domain : Option String) :
    ((getOldestIds count domain).run RedisWorld.exec world).1.find id = world.find id := by
  unfold getOldestIds
  split <;> rfl

attribute [local simp] RedisEvictionCall.takesUp Vetting.verdict readHeld redisVetting

theorem redis_carried (id : String) (call : RedisEvictionCall) (world : RedisEvictionWorld)
    (spared : id ∉ call.discards) :
    Carried id (call.takesUp id (world.exec call).2 = true) world.redis (world.exec call).1.redis := by
  cases call with
  | tryAcquireForReplay target maxRetries force =>
    refine (carriedBy_tryAcquireForReplay id target maxRetries force).mono ?_
    rintro ⟨rfl, updated, acquired⟩
    simp only [RedisEvictionWorld.exec, RedisEvictionWorld.perform, acquired]
    simp
  | completeReplay target completion errorDetails =>
    exact (carriedBy_completeReplay id target completion errorDetails).mono False.elim
  | updateStatus target update =>
    refine (carriedBy_updateStatus id target update).mono ?_
    rintro ⟨rfl, answered, held⟩
    simp only [RedisEvictionWorld.exec, RedisEvictionWorld.perform, answered]
    simp [held]
  | returnReplayAttempt target acquiredRetryCount =>
    exact (carriedBy_returnReplayAttempt id target acquiredRetryCount).mono False.elim
  | releaseStaleReplaying olderThanMinutes =>
    exact (carriedBy_releaseStaleReplaying id olderThanMinutes).mono False.elim
  | getOldestIds count domain => exact carried_of_same (find_getOldestIds world.redis id count domain)
  | delete target =>
    refine carried_of_same ((find_delete id target).trans (if_neg ?_))
    rintro rfl
    exact spared (by simp [RedisEvictionCall.discards])
  | _ => exact carried_of_same rfl

theorem redis_kept (id : String) (call : RedisEvictionCall) (world : RedisEvictionWorld)
    (unheld : Unheld id world.redis.find)
    (unspoiled : (redisVetting id).spoils call (world.exec call).2 = false) :
    Unheld id (world.exec call).1.redis.find := by
  by_cases deleted : id ∈ call.discards
  · cases call with
    | delete =>
      obtain rfl := List.mem_singleton.mp deleted
      intro entry found
      have gone := @find_delete world.redis id id
      rw [if_pos rfl] at gone
      cases gone.symm.trans found
    | _ => cases deleted
  · refine (redis_carried id call world deleted).unheld unheld ?_
    intro took
    exact absurd (unspoiled.symm.trans took) (by decide)

theorem redis_looked (id : String) (call : RedisEvictionCall) (world : RedisEvictionWorld)
    (seen : (redisVetting id).looks call (world.exec call).2 = some true) :
    Unheld id (world.exec call).1.redis.find := by
  cases call with
  | getById target | loadBlob target =>
    simp only [redisVetting] at seen
    split at seen
    · rename_i same
      subst same
      have free : (!heldBlob (world.redis.find target)) = true := Option.some.inj seen
      intro entry (found : world.redis.find target = some entry)
      simpa [heldBlob, found] using free
    · cases seen
  | _ => cases seen

def RedisVetted (id : String) (world : RedisEvictionWorld) (trace : List RedisEvictionEvent)
    (locals : List Bool) : Prop :=
  (redisVetting id).Vouched (fun world : RedisEvictionWorld => Unheld id world.redis.find) world trace ∧
    ∀ thread : Nat, locals[thread]? = some true →
      (redisVetting id).verdict thread trace = some true ∨ readHeld id thread trace = true

theorem cleared_step {trace : List RedisEvictionEvent} {cleared : Bool}
    (call : RedisEvictionCall) (answer : call.Answer)
    (known : cleared = true → (redisVetting id).verdict thread trace = some true ∨ readHeld id thread trace = true)
    (moved : (redisEvictionDiscipline id).after cleared call answer = true) :
    (redisVetting id).verdict thread (⟨thread, call, answer⟩ :: trace) = some true ∨
      readHeld id thread (⟨thread, call, answer⟩ :: trace) = true := by
  cases call with
  | getById target =>
    by_cases same : target = id
    · cases held : heldBlob answer with
      | false => simp [same, held]
      | true => simp [same, held]
    · simp only [redisEvictionDiscipline, same, if_false] at moved
      simpa [same] using known moved
  | loadBlob target =>
    by_cases same : target = id
    · simp only [redisEvictionDiscipline, same, if_true, Bool.not_eq_true'] at moved
      simp [same, moved]
    · simp only [redisEvictionDiscipline, same, if_false] at moved
      simpa [same] using known moved
  | _ => simpa using known moved

theorem redisEviction_sound (id : String) :
    Sound redisEviction (redisEvictionDiscipline id) (fun _ _ => True) (RedisVetted id) runsRedisEviction where
  step config locals thread cleared call _ _ vetted located _ := by
    obtain ⟨vouched, seen⟩ := vetted
    refine ⟨?_, [], .nil, ?_, ?_⟩
    · cases call with
      | getById => exact fun entry found => id_of_find found
      | _ => trivial
    · exact Vetting.vouched_step (redis_looked id) (redis_kept id) vouched thread call
    · intro other there
      rcases located_after located there with ⟨rfl, moved⟩ | ⟨apart, before⟩ | ⟨_, none⟩
      · refine cleared_step call _ (fun already => seen other ?_) moved.symm
        rw [located, already]
      · simp only [readHeld, Vetting.verdict, Ne.symm apart, if_false]
        exact seen other before
      · cases none
  disturb config locals change _ vetted := by
    cases change with
    | advance => exact vetted
  spawn config locals program job vetted := by
    obtain ⟨job, rfl⟩ := job
    refine ⟨false, redisEvictionJob_obeys id job, vetted.1, fun thread there => vetted.2 thread ?_⟩
    rcases located_append there with before | ⟨_, new⟩
    · exact before
    · cases new

theorem redis_spares (world : RedisEvictionWorld) (schedule : List RedisEvictionAction)
    (jobs : redisEviction.Always runsRedisEviction (start world) schedule)
    (undisturbed : redisEviction.Always redisUndisturbed (start world) schedule) :
    redisEviction.Always redisSpares (start world) schedule := by
  rw [Machine.always_iff_split] at undisturbed ⊢
  intro first action rest split id entry found gone
  have allowed := undisturbed first action rest split
  subst split
  have coherent : Coherent (redisEvictionDiscipline id) (fun _ (_ : Unit) => True) (RedisVetted id)
      (redisEviction.run (start world) first) := by
    refine (redisEviction_sound id).run ((Machine.always_append _ _ _ _).mp jobs).1 ?_
    exact ⟨[], .nil, fun _ unseen => (by cases unseen), fun _ none => (by cases none)⟩
  cases action with
  | step thread =>
    cases pending : (redisEviction.run (start world) first).pending thread with
    | none =>
      rw [redisEviction.act_idle pending] at gone
      cases found.symm.trans gone
    | some call =>
      obtain ⟨next, threadAt⟩ := Config.pending_eq_some.mp pending
      obtain ⟨locals, cleared, ⟨vouched, seen⟩, located, may⟩ := coherent.may_of_pending pending
      rw [redisEviction.act_step threadAt] at gone
      by_cases discarded : id ∈ call.discards
      · obtain ⟨calm, free⟩ := allowed call pending id discarded
        obtain rfl : cleared = true := may discarded
        rcases seen thread located with fit | held
        · exact vouched thread fit calm entry found
        · cases free.symm.trans held
      · refine absurd gone ((redis_carried id call _ discarded).present ?_)
        rw [found]
        exact Option.some_ne_none entry
  | disturb change =>
    cases change
    cases found.symm.trans gone
  | spawn => cases found.symm.trans gone

/-- In both repositories an eviction deletes nothing that is being replayed or reviewed, as long as
nobody takes an entry up between the deleting worker's last look at it and the deletion, and a
compression in Redis does not read it held. -/
theorem eviction_spares_work (memory : MemoryEvictionWorld) (memoryRun : List MemoryEvictionAction)
    (redis : RedisEvictionWorld) (redisRun : List RedisEvictionAction) :
    (memoryEviction.Always runsMemoryEviction (start memory) memoryRun →
      memoryEviction.Always memoryUndisturbed (start memory) memoryRun →
      memoryEviction.Always memorySpares (start memory) memoryRun) ∧
    (redisEviction.Always runsRedisEviction (start redis) redisRun →
      redisEviction.Always redisUndisturbed (start redis) redisRun →
      redisEviction.Always redisSpares (start redis) redisRun) := by
  exact ⟨memory_spares memory memoryRun, redis_spares redis redisRun⟩

def evictableMemory : MemoryEvictionWorld where
  clock := 0
  store := (({} : MemoryStore).create 0
    { id := "", domain := "payments", failureType := "timeout", status := .pending }).1
  iteration := .listing ∅ [] List.nodup_nil (by simp)

def evictableRedis : RedisEvictionWorld where
  redis := ({ emptyRedis 0 "pod:7" with nextSeq := 1 } : RedisWorld).applyAll (creationMoves
    (newEntry "payments" "timeout" "" Metadata.empty 0 3 "" "pod:7:0" 0) 0)

def oneSummary (_ : List Entry) : List CompressedEntry :=
  [⟨"summary"⟩]

def pairedMemory : MemoryEvictionWorld :=
  { evictableMemory with store := (evictableMemory.store.create 1
      { id := "", domain := "orders", failureType := "timeout", status := .pending }).1 }

def pairedRedis : RedisEvictionWorld where
  redis := ({ evictableRedis.redis with nextSeq := 2 } : RedisWorld).applyAll (creationMoves
    (newEntry "orders" "timeout" "" Metadata.empty 0 3 "" "pod:7:1" 1) 1)

def sparingMemoryRun : List MemoryEvictionAction :=
  [.spawn (MemoryEvictionJob.evictOldest 2 none).program, .step 0,
    .spawn (MemoryEvictionJob.lifecycle (.tryAcquireForReplay "1" 3 false)).program, .step 1, .step 0]

def sparingRedisRun : List RedisEvictionAction :=
  [.spawn (RedisEvictionJob.evictOldest 2 none).program, .step 0,
    .spawn (RedisEvictionJob.tryAcquireForReplay "pod:7:0" 3 false).program, .step 1, .step 0, .step 0, .step 0]

theorem acquired_entry_is_spared :
    (memoryEviction.Always memorySpares (start pairedMemory) sparingMemoryRun ∧
      ["1", "2"].map (fun id => ((memoryEviction.run (start pairedMemory) sparingMemoryRun).state.store.find id).map
        FailedOperationData.status) = [some .replaying, none]) ∧
    (redisEviction.Always redisSpares (start pairedRedis) sparingRedisRun ∧
      ["pod:7:0", "pod:7:1"].map (fun id => ((redisEviction.run (start pairedRedis) sparingRedisRun).state.redis.find
        id).map FailedOperationData.status) = [some .replaying, none]) := by
  have spares := eviction_spares_work pairedMemory sparingMemoryRun pairedRedis sparingRedisRun
  refine ⟨⟨spares.1 ?_ (by decide +kernel), by decide +kernel⟩, spares.2 ?_ (by decide +kernel), by decide +kernel⟩
  · exact ⟨⟨_, rfl⟩, trivial, ⟨_, rfl⟩, trivial, trivial, trivial⟩
  · exact ⟨⟨_, rfl⟩, trivial, ⟨_, rfl⟩, trivial, trivial, trivial, trivial, trivial⟩

def overtakenMemoryRun : List MemoryEvictionAction :=
  [.spawn (MemoryEvictionJob.compressAndEvictOldest oneSummary 1 none).program, .step 0, .step 0, .step 0,
    .spawn (MemoryEvictionJob.lifecycle (.tryAcquireForReplay "1" 3 false)).program, .step 1]

def overtakenRedisRun : List RedisEvictionAction :=
  [.spawn (RedisEvictionJob.evictOldest 1 none).program, .step 0, .step 0,
    .spawn (RedisEvictionJob.tryAcquireForReplay "pod:7:0" 3 false).program, .step 1]

def heldRedisRun : List RedisEvictionAction :=
  [.spawn (RedisEvictionJob.tryAcquireForReplay "pod:7:0" 3 false).program, .step 0,
    .spawn (RedisEvictionJob.compressAndEvictOldest oneSummary 1 (some "payments")).program, .step 1, .step 1,
    .step 1]

theorem not_spared {find after : String → Option Entry} (id : String)
    (replaying : (find id).map FailedOperationData.status = some .replaying) (gone : after id = none) :
    ¬∀ id entry, find id = some entry → after id = none → entry.status.evictionProtected = false := by
  intro spares
  obtain ⟨entry, found, held⟩ := Option.map_eq_some_iff.mp replaying
  have free := spares id entry found gone
  rw [held] at free
  cases free

theorem evictions_destroy_work :
    (memoryEviction.Always runsMemoryEviction (start evictableMemory) (overtakenMemoryRun ++ [.step 0]) ∧
      ¬memorySpares (memoryEviction.run (start evictableMemory) overtakenMemoryRun) (.step 0)) ∧
    (redisEviction.Always runsRedisEviction (start evictableRedis) (overtakenRedisRun ++ [.step 0]) ∧
      ¬redisSpares (redisEviction.run (start evictableRedis) overtakenRedisRun) (.step 0)) ∧
    (redisEviction.Always runsRedisEviction (start evictableRedis) (heldRedisRun ++ [.step 1]) ∧
      ¬redisSpares (redisEviction.run (start evictableRedis) heldRedisRun) (.step 1)) := by
  refine ⟨⟨?_, ?_⟩, ⟨?_, ?_⟩, ⟨?_, ?_⟩⟩
  · exact ⟨⟨_, rfl⟩, trivial, trivial, trivial, ⟨_, rfl⟩, trivial, trivial, trivial⟩
  · exact not_spared "1" (by decide +kernel) (by decide +kernel)
  · exact ⟨⟨_, rfl⟩, trivial, trivial, ⟨_, rfl⟩, trivial, trivial, trivial⟩
  · exact not_spared "pod:7:0" (by decide +kernel) (by decide +kernel)
  · exact ⟨⟨_, rfl⟩, trivial, ⟨_, rfl⟩, trivial, trivial, trivial, trivial, trivial⟩
  · exact not_spared "pod:7:0" (by decide +kernel) (by decide +kernel)

end Baldur.Dlq
