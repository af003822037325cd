import Baldur.CircuitBreaker.HealthyWorker
import Baldur.CircuitBreaker.SystemCore

/-!
The row all workers share. What its six lanes may send is fixed by the healthy discipline.
-/

namespace Baldur.CircuitBreaker

open Hash List Option Pool RedisCommand

variable {thread worker : Nat} {trace : List ClusterEvent}

def Hash.isTripped (hash : Hash) : Bool :=
  match hash.state with
  | some .opened | some .halfOpen => true
  | _ => false

def tripsRow (name : String) (event : ClusterEvent) : Bool :=
  match event with
  | ⟨_, ⟨_, .l2 _ (.evalTripToOpen other _ _)⟩, .answered attempt⟩ => other = name && attempt.didOpen
  | _ => false

def closesRow (name : String) (event : ClusterEvent) : Bool :=
  match event with
  | ⟨_, ⟨_, .l2 _ (.evalRecordSuccessWithCloseCheck other _ _)⟩, .answered attempt⟩ =>
      other = name && attempt.didClose
  | _ => false

def operatorWrites (name : String) (event : ClusterEvent) : Bool :=
  match event.call.call with
  | .l2 .manual (.hset other _) => other = name
  | _ => false

/-- The `HSET` of `get_or_create`: no other lane but the operator's sets the state by an `HSET`. -/
def createsRow (name : String) (call : WorkerCall) : Bool :=
  match call.call with
  | .l2 lane (.hset other update) => other = name && lane ≠ .manual && update.state.isSome
  | _ => false

def createsOverTrip (name : String) (config : ClusterConfig) : ClusterAction → Bool
  | .step thread =>
      match config.pending thread with
      | some call => createsRow name call && (config.state.keys name).isTripped
      | none => false
  | _ => false

theorem isTripped_hset (hash : Hash) (update : HashUpdate) :
    (hash.hset update).isTripped =
      match update.state with
      | some state => decide (state ≠ .closed)
      | none => hash.isTripped := by
  obtain ⟨state⟩ := update
  cases state with
  | none => rfl
  | some state => cases state <;> rfl

theorem tripped_iff (hash : Hash) :
    hash.isTripped = true ↔ hash.state = some .opened ∨ hash.state = some .halfOpen := by
  unfold isTripped
  split <;> simp_all

section

variable (hash : Hash) (now : Time)

theorem isTripped_acquire (limit stuckTimeoutSeconds : Int) :
    (hash.luaTryAcquireHalfOpenSlot limit stuckTimeoutSeconds now).1.isTripped = hash.isTripped := by
  have held : ∀ state, hash.state.getD .closed = state → state ≠ .closed → hash.isTripped = true := by
    intro state found open'
    rw [tripped_iff]
    cases stored : hash.state with
    | none => simp_all
    | some other => cases other <;> simp_all
  unfold luaTryAcquireHalfOpenSlot
  dsimp only
  split
  · rename_i full
    have was := held _ full.1 (by simp)
    split
    · rw [isTripped_hset, was]
      rfl
    · rfl
  · split
    · rename_i opened
      rw [isTripped_hset, held _ opened (by simp)]
      rfl
    · split
      · split
        · rw [isTripped_hset, isTripped_hset]
        · rw [isTripped_hset]
      · rfl

theorem isTripped_openCheck : (hash.luaRecordFailureWithOpenCheck now).1.isTripped = hash.isTripped := by
  unfold luaRecordFailureWithOpenCheck
  split
  · rename_i trial
    rw [isTripped_hset, (tripped_iff hash).mpr (Or.inr trial)]
    rfl
  · split <;> rfl

theorem isTripped_closeCheck (threshold : Int) :
    let out := hash.luaRecordSuccessWithCloseCheck threshold now
    if out.2.didClose then hash.isTripped = true ∧ out.1.isTripped = false
    else out.1.isTripped = hash.isTripped := by
  intro out
  simp only [out]
  unfold luaRecordSuccessWithCloseCheck
  dsimp only
  split
  · rename_i trial
    split
    · refine ⟨(tripped_iff hash).mpr (Or.inr trial), ?_⟩
      rw [isTripped_hset]
      rfl
    · exact isTripped_hset hash _
  · rfl

theorem isTripped_trip (failureCount : Int) :
    let out := hash.luaTripToOpen failureCount now
    if out.2.didOpen then hash.isTripped = false ∧ out.1.isTripped = true
    else out.1.isTripped = hash.isTripped := by
  intro out
  simp only [out]
  unfold luaTripToOpen
  split
  · rfl
  · split
    · rename_i unpinned shut
      refine ⟨?_, ?_⟩
      · rcases shut with shut | shut <;> simp [isTripped, shut]
      · rw [isTripped_hset]
        rfl
    · split <;> rfl

theorem isTripped_update (update : HashUpdate) :
    (hash.luaUpdateState true true update now).1.isTripped = hash.isTripped ∨
      hash.isTripped = false ∧
        (hash.luaUpdateState true true update now).1.isTripped = (hash.hset update).isTripped := by
  unfold luaUpdateState
  split
  · exact .inl rfl
  · split
    · exact .inl rfl
    · rename_i unpinned shut
      refine .inr ⟨?_, rfl⟩
      by_contra tripped
      rw [Bool.not_eq_false, tripped_iff] at tripped
      simp [tripped] at shut

variable {hash} {lane : Lane} {snapshot : Option (String × CircuitState)} {command : RedisCommand}

theorem lowered_by (sends : Sends lane snapshot command) (was : hash.isTripped = true)
    (ends : (command.onHash hash).1.isTripped = false) :
    (∃ name update, command = .hset name update ∧ (lane = .manual ∨ update.state.isSome = true)) ∨
      ∃ name threshold now, command = .evalRecordSuccessWithCloseCheck name threshold now ∧
        (hash.luaRecordSuccessWithCloseCheck threshold now).2.didClose = true := by
  have stays : ∀ {after : Hash}, after.isTripped = hash.isTripped → after.isTripped ≠ false := by
    intro after same shut
    rw [same, was] at shut
    simp at shut
  cases command with
  | hgetall => exact absurd ends (stays rfl)
  | hset name update =>
    refine .inl ⟨name, update, rfl, ?_⟩
    rcases sends with manual | stateless | ⟨stamp, rfl⟩
    · exact .inl manual
    · refine absurd ends (stays ?_)
      rw [onHash, isTripped_hset, stateless]
    · exact .inr rfl
  | evalUpdateState name guardPin guardKeepOpen update now =>
    obtain ⟨_, rfl, rfl, _⟩ := sends
    rcases isTripped_update hash now update with same | ⟨shut, _⟩
    · exact absurd ends (stays same)
    · rw [was] at shut
      simp at shut
  | evalTryAcquireHalfOpenSlot name limit stuck now =>
    exact absurd ends (stays (isTripped_acquire hash now limit stuck))
  | evalRecordSuccessWithCloseCheck name threshold now =>
    refine .inr ⟨name, threshold, now, rfl, ?_⟩
    by_contra kept
    have verdict := isTripped_closeCheck hash now threshold
    rw [if_neg kept] at verdict
    exact stays verdict ends
  | evalRecordFailureWithOpenCheck name now => exact absurd ends (stays (isTripped_openCheck hash now))
  | evalTripToOpen name failureCount now =>
    have verdict := isTripped_trip hash now failureCount
    dsimp only at verdict
    split at verdict
    · rw [was] at verdict
      simp at verdict
    · exact absurd ends (stays verdict)

theorem raised_by (sends : Sends lane snapshot command) (was : hash.isTripped = false)
    (ends : (command.onHash hash).1.isTripped = true) :
    (∃ name failureCount now, command = .evalTripToOpen name failureCount now ∧
        (hash.luaTripToOpen failureCount now).2.didOpen = true) ∨
      (lane = .manual ∧ ∃ name update, command = .hset name update) ∨
      ∃ name update now state, command = .evalUpdateState name true true update now ∧
        (lane = .mirror ∨ lane = .repair) ∧ update.state = some state ∧ state ≠ .closed ∧
        snapshot = some (name, state) := by
  have stays : ∀ {after : Hash}, after.isTripped = hash.isTripped → after.isTripped ≠ true := by
    intro after same tripped
    rw [same, was] at tripped
    simp at tripped
  cases command with
  | hgetall => exact absurd ends (stays rfl)
  | hset name update =>
    refine .inr (Or.inl ?_)
    rcases sends with manual | stateless | ⟨stamp, rfl⟩
    · exact ⟨manual, name, update, rfl⟩
    · refine absurd ends (stays ?_)
      rw [onHash, isTripped_hset, stateless]
    · rw [onHash, isTripped_hset] at ends
      simp [Redis.defaultFields] at ends
  | evalUpdateState name guardPin guardKeepOpen update now =>
    obtain ⟨permitted, rfl, rfl, state, written, held⟩ := sends
    refine .inr (Or.inr ⟨name, update, now, state, rfl, permitted, written, ?_, held⟩)
    rintro rfl
    rcases isTripped_update hash now update with same | ⟨_, same⟩
    · exact stays same ends
    · rw [onHash, same, isTripped_hset, written] at ends
      simp at ends
  | evalTryAcquireHalfOpenSlot name limit stuck now =>
    exact absurd ends (stays (isTripped_acquire hash now limit stuck))
  | evalRecordSuccessWithCloseCheck name threshold now =>
    have verdict := isTripped_closeCheck hash now threshold
    dsimp only at verdict
    split at verdict
    · rw [was] at verdict
      simp at verdict
    · exact absurd ends (stays verdict)
  | evalRecordFailureWithOpenCheck name now => exact absurd ends (stays (isTripped_openCheck hash now))
  | evalTripToOpen name failureCount now =>
    refine .inl ⟨name, failureCount, now, rfl, ?_⟩
    by_contra declined
    have verdict := isTripped_trip hash now failureCount
    rw [if_neg declined] at verdict
    exact stays verdict ends

end

section

variable {worker : Nat} {target name : String} {cluster : Cluster} {local' : WorkerLocal} {call : WorkerCall}

theorem exec_l2 (steady : cluster.Steady) (v : Nat) (lane : Lane) (command : RedisCommand) :
    cluster.exec ⟨v, .l2 lane command⟩ =
      ({ cluster with keys := (command.exec cluster.keys).1 }, .answered (command.exec cluster.keys).2) := by
  simp only [Cluster.exec, LayeredCall.exec, send, steady.link]

theorem keys_self (command : RedisCommand) (keys : Keyspace) :
    (command.exec keys).1 command.serviceName = (command.onHash (keys command.serviceName)).1 := by
  exact Function.update_self ..

variable (name call) in
theorem keys_exec (steady : cluster.Steady) :
    (cluster.exec call).1.keys name = cluster.keys name ∨
      ∃ v lane command, call = ⟨v, .l2 lane command⟩ ∧ command.serviceName = name ∧
        (cluster.exec call).1.keys name = (command.onHash (cluster.keys name)).1 := by
  obtain ⟨v, call⟩ := call
  cases call with
  | l2 lane command =>
    rw [exec_l2 steady]
    by_cases same : name = command.serviceName
    · subst same
      exact .inr ⟨v, lane, command, rfl, rfl, keys_self command cluster.keys⟩
    · exact .inl (Function.update_of_ne same ..)
  | _ => exact .inl rfl

attribute [local simp] RedisCommand.exec RedisCommand.onHash RedisCommand.serviceName tripsRow

theorem lowered_step (steady : cluster.Steady) (thread : Nat) (may : (clusterDiscipline worker target).may local' call)
    (was : (cluster.keys name).isTripped = true)
    (ends : ((cluster.exec call).1.keys name).isTripped = false) :
    createsRow name call = true ∨ closesRow name ⟨thread, call, (cluster.exec call).2⟩ = true ∨
      operatorWrites name ⟨thread, call, (cluster.exec call).2⟩ = true := by
  rcases keys_exec name call steady with same | ⟨v, lane, command, rfl, keyed, changed⟩
  · rw [same, was] at ends
    simp at ends
  · rw [changed] at ends
    rcases lowered_by may.2 was ends with ⟨other, update, rfl, set⟩ | ⟨other, threshold, now, rfl, closes⟩
    · obtain rfl : other = name := keyed
      by_cases manual : lane = .manual
      · subst manual
        exact .inr (Or.inr (decide_eq_true rfl))
      · refine .inl ?_
        simpa [createsRow, manual] using set
    · obtain rfl : other = name := keyed
      rw [exec_l2 steady]
      refine .inr (Or.inl ?_)
      simpa [closesRow] using closes

def writesSnapshot (name : String) (call : WorkerCall) (state : CircuitState) : Prop :=
  ∃ lane update stamp, call.call = .l2 lane (.evalUpdateState name true true update stamp) ∧
    (lane = .mirror ∨ lane = .repair) ∧ update.state = some state

theorem raised_step (steady : cluster.Steady) (thread : Nat) (may : (clusterDiscipline worker target).may local' call)
    (was : (cluster.keys name).isTripped = false)
    (ends : ((cluster.exec call).1.keys name).isTripped = true) :
    tripsRow name ⟨thread, call, (cluster.exec call).2⟩ = true ∨
      operatorWrites name ⟨thread, call, (cluster.exec call).2⟩ = true ∨
      ∃ state, state ≠ .closed ∧ writesSnapshot name call state ∧ local'.snapshot = some (name, state) := by
  rcases keys_exec name call steady with same | ⟨v, lane, command, rfl, keyed, changed⟩
  · rw [same, was] at ends
    simp at ends
  · rw [changed] at ends
    rcases raised_by may.2 was ends with ⟨other, failureCount, now, rfl, opened⟩ |
      ⟨rfl, other, update, rfl⟩ | ⟨other, update, now, state, rfl, permitted, written, open', held⟩
    · obtain rfl : other = name := keyed
      rw [exec_l2 steady]
      refine .inl ?_
      simpa using opened
    · obtain rfl : other = name := keyed
      exact .inr (Or.inl (decide_eq_true rfl))
    · obtain rfl : other = name := keyed
      exact .inr (Or.inr ⟨state, open', ⟨lane, update, now, rfl, permitted, written⟩, held⟩)

theorem trips_step (steady : cluster.Steady) (thread : Nat)
    (trips : tripsRow name ⟨thread, call, (cluster.exec call).2⟩ = true) :
    (cluster.keys name).isTripped = false ∧ ((cluster.exec call).1.keys name).isTripped = true := by
  obtain ⟨v, call⟩ := call
  cases call with
  | l2 lane command =>
    rw [exec_l2 steady] at trips ⊢
    cases command with
    | evalTripToOpen other failureCount now =>
      simp only [tripsRow, Bool.and_eq_true, decide_eq_true_eq] at trips
      obtain ⟨rfl, opened⟩ := trips
      have verdict := isTripped_trip (cluster.keys other) now failureCount
      have opens : ((cluster.keys other).luaTripToOpen failureCount now).2.didOpen = true := opened
      rw [if_pos opens] at verdict
      refine ⟨verdict.1, ?_⟩
      rw [← verdict.2]
      exact congrArg isTripped (keys_self (.evalTripToOpen other failureCount now) cluster.keys)
    | _ => simp at trips
  | _ => simp at trips

end

def repairFinding (event : ClusterEvent) : Option (Option (Nat × String × CircuitState)) :=
  match event with
  | ⟨_, ⟨worker, .inside (.repairRead _ name)⟩, found⟩ =>
      some (found.map fun row => (worker, name, row.state))
  | _ => none

def lastRepairRead (thread : Nat) : List ClusterEvent → Option (Nat × String × CircuitState)
  | [] => none
  | event :: older =>
      if event.thread = thread then
        (repairFinding event).getD (lastRepairRead thread older)
      else
        lastRepairRead thread older

theorem lastRepairRead_unseen
    (unseen : ∀ event ∈ trace, event.thread ≠ thread) : lastRepairRead thread trace = none := by
  induction trace with
  | nil => rfl
  | cons event older ih =>
    rw [lastRepairRead, if_neg (unseen event mem_cons_self)]
    exact ih fun other member => unseen other (mem_cons_of_mem _ member)

structure SnapshotInvariant (cluster : Cluster) (trace : List ClusterEvent)
    (locals : List WorkerLocal) : Prop where
  steady : cluster.Steady
  numbered : ∀ event ∈ trace, event.thread < locals.length
  tracked : ∀ thread g, locals[thread]? = some g →
    lastRepairRead thread trace = g.snapshot.map fun found => (g.home, found.1, found.2)

theorem started_snapshot (worker : Nat) (target : String) (call : WorkerCall) (answer : call.Answer) :
    ∀ g ∈ startedLocals worker target call answer, g.snapshot = none := by
  have plain : ∀ (taken : Bool) (local' : WorkerLocal), local'.snapshot = none →
      ∀ g ∈ (if taken then [local'] else []), g.snapshot = none := by
    intro taken local' fresh g member
    cases taken <;> simp_all
  obtain ⟨v, call⟩ := call
  cases call with
  | inside call =>
    cases call with
    | submitMirrorTask other | submitConvergence other | handleL2Success => exact plain answer _ rfl
    | mirrorRelease =>
      cases answer with
      | false => exact plain true _ rfl
      | true => exact fun g member => nomatch member
    | _ => exact fun g member => nomatch member
  | _ => exact fun g member => nomatch member

theorem snapshot_sound (worker : Nat) (target : String) :
    Sound clusterMachine (clusterDiscipline worker target) (fun g _ => AtRole .idle g)
      SnapshotInvariant runsCalmly where
  step config locals thread g call allowed pending holds located may := by
    have bound : thread < locals.length := (List.getElem?_eq_some_iff.mp located).1
    refine ⟨holds.steady.valid call, startedLocals worker target call _,
      started_obey worker target call _, holds.steady.exec may, ?_, ?_⟩
    · intro event member
      rw [length_append, length_set]
      rcases mem_cons.mp member with rfl | older
      · exact Nat.lt_add_right _ bound
      · exact Nat.lt_add_right _ (holds.numbered event older)
    · intro other next found
      rcases located_after located found with ⟨rfl, rfl⟩ | ⟨apart, stays⟩ | ⟨new, started⟩
      · have tracked := holds.tracked other g located
        have home : ((clusterDiscipline worker target).after g call (clusterMachine.exec call config.state).2).home =
            g.home := home_after _ target g call.call _
        rw [home]
        obtain ⟨v, call⟩ := call
        obtain rfl : v = g.home := may.1
        rw [lastRepairRead, if_pos rfl]
        cases call with
        | inside call =>
          cases call with
          | repairRead => exact (Option.map_map ..).symm
          | _ => exact tracked
        | _ => exact tracked
      · rw [lastRepairRead, if_neg fun same => apart same.symm]
        exact holds.tracked other next stays
      · rw [started_snapshot worker target call _ next started, map_none]
        apply lastRepairRead_unseen
        intro event member same
        rcases mem_cons.mp member with rfl | older
        · dsimp only at same
          omega
        · have seen := holds.numbered event older
          omega
  disturb config locals change allowed holds := by
    exact ⟨holds.steady.disturb (allowed.2 change rfl), holds.numbered, holds.tracked⟩
  spawn config locals program allowed holds := by
    obtain ⟨v, job, rfl⟩ := allowed.1
    refine ⟨_, job_obeys worker target v job, holds.steady, ?_, ?_⟩
    · intro event member
      rw [length_append]
      exact Nat.lt_add_right _ (holds.numbered event member)
    · intro other next found
      rcases located_append found with before | ⟨rfl, rfl⟩
      · exact holds.tracked other next before
      · apply lastRepairRead_unseen
        intro event member same
        have seen := holds.numbered event member
        omega

theorem snapshot_initial {cluster : Cluster} (steady : cluster.Steady) (worker : Nat) (target : String) :
    Coherent (clusterDiscipline worker target) (fun g _ => AtRole .idle g) SnapshotInvariant
      (start cluster : ClusterConfig) := by
  exact ⟨[], .nil, steady, by simp [start], by simp⟩

theorem act_performs (config : ClusterConfig) (action : ClusterAction) :
    ((clusterMachine.act config action).state.keys = config.state.keys ∧
        (clusterMachine.act config action).trace = config.trace) ∨
      ∃ thread call next, action = .step thread ∧ config.threads[thread]? = some (.call call next) := by
  cases action with
  | step thread =>
    cases pending : config.pending thread with
    | none =>
      rw [clusterMachine.act_idle pending]
      exact .inl ⟨rfl, rfl⟩
    | some call =>
      obtain ⟨next, found⟩ := Config.pending_eq_some.mp pending
      exact .inr ⟨thread, call, next, rfl, found⟩
  | disturb change => cases change <;> exact .inl ⟨rfl, rfl⟩
  | spawn => exact .inl ⟨rfl, rfl⟩

theorem trips_act {config : ClusterConfig} {action : ClusterAction} {event : ClusterEvent} {name : String}
    (steady : config.state.Steady)
    (grows : (clusterMachine.act config action).trace = event :: config.trace)
    (trips : tripsRow name event = true) :
    (config.state.keys name).isTripped = false ∧
      ((clusterMachine.act config action).state.keys name).isTripped = true := by
  rcases act_performs config action with ⟨_, sameTrace⟩ | ⟨thread, call, rest, rfl, found⟩
  · exact absurd (grows.symm.trans sameTrace) (cons_ne_self _ _)
  · rw [clusterMachine.act_step found] at grows ⊢
    obtain rfl : _ = event := (cons.inj grows).1
    exact trips_step steady thread trips

/-- While Redis answers, the shared row is opened by trips answered `did_open=True`, by operators, and
by guarded mirrors that write what their own thread last read from L1. -/
theorem opening_of_shared_row {cluster : Cluster} {schedule : List ClusterAction} (steady : cluster.Steady)
    (calm : clusterMachine.Always runsCalmly (start cluster) schedule) (name : String)
    (action : ClusterAction) :
    let config := clusterMachine.run (start cluster) schedule
    let next := clusterMachine.act config action
    ((config.state.keys name).isTripped = false → (next.state.keys name).isTripped = true →
      ∃ event, next.trace = event :: config.trace ∧
        (tripsRow name event = true ∨ operatorWrites name event = true ∨
          ∃ state, state ≠ .closed ∧ writesSnapshot name event.call state ∧
            lastRepairRead event.thread config.trace = some (event.call.worker, name, state))) ∧
      ∀ event, next.trace = event :: config.trace → tripsRow name event = true →
        (config.state.keys name).isTripped = false ∧ (next.state.keys name).isTripped = true := by
  intro config next
  obtain ⟨locals, obeys, holds⟩ : Coherent (clusterDiscipline 0 name) (fun g _ => AtRole .idle g)
      SnapshotInvariant config := (snapshot_sound 0 name).run calm (snapshot_initial steady 0 name)
  refine ⟨fun was ends => ?_, fun event grows trips => trips_act holds.steady grows trips⟩
  rcases act_performs config action with ⟨sameKeys, _⟩ | ⟨thread, call, rest, rfl, found⟩
  · simp only [next, sameKeys, was, Bool.false_eq_true] at ends
  · obtain ⟨g, located, follows⟩ := forall₂_getElem? obeys found
    have stepped : next = _ := clusterMachine.act_step found
    rw [stepped] at ends ⊢
    refine ⟨_, rfl, ?_⟩
    rcases raised_step holds.steady thread follows.1 was ends with
      trips | operator | ⟨state, open', writes, held⟩
    · exact .inl trips
    · exact .inr (Or.inl operator)
    · refine .inr (Or.inr ⟨state, open', writes, ?_⟩)
      rw [holds.tracked thread g located, held, follows.1.1]
      rfl

def operationJob (worker : Nat) (operation : Operation) : ClusterAction :=
  .spawn (onWorker worker (Job.program (.service operation.program)))

theorem operationJob_spawns {operation : Operation} {program : ClusterProg Unit}
    (spawns : Action.spawn program = operationJob worker operation) :
    ∃ worker job, program = onWorker worker (Job.program job) := by
  exact ⟨worker, .service operation.program, Action.spawn.inj spawns⟩

def eagerService : Service :=
  ⟨{ failureThreshold := 1, failureRateThreshold := 0, successThreshold := 1 },
    fun _ => { failureThreshold := 1, failureRateThreshold := 0, successThreshold := 1 }, []⟩

def tripSchedule : List ClusterAction :=
  operationJob 0 (.recordFailure eagerService "api") :: List.replicate 17 (.step 0)

attribute [local simp] operationJob tripSchedule

theorem trip_opens_shared_row :
    let config := clusterMachine.run (start { clock := 0 }) tripSchedule
    let next := clusterMachine.act config (.step 0)
    (config.state.keys "api").isTripped = false ∧ (next.state.keys "api").isTripped = true ∧
      ∃ event, next.trace = event :: config.trace ∧
        (tripsRow "api" event = true ∨ operatorWrites "api" event = true ∨
          ∃ state, state ≠ .closed ∧ writesSnapshot "api" event.call state ∧
            lastRepairRead event.thread config.trace = some (event.call.worker, "api", state)) := by
  intro config next
  have shut : (config.state.keys "api").isTripped = false := by decide +kernel
  have opened : (next.state.keys "api").isTripped = true := by decide +kernel
  refine ⟨shut, opened, ?_⟩
  refine (opening_of_shared_row (steady_initial 0 _) ?_ "api" (.step 0)).1 shut opened
  refine always_runsCalmly (fun program member => ?_) ?_ _
  · exact operationJob_spawns (by simpa using member)
  · simp

def propagatingCluster : Cluster :=
  { clock := 0, workers := fun _ => { clusterStatePropagationEnabled := true } }

def staleSchedule : List ClusterAction :=
  operationJob 0 (.recordFailure eagerService "api") :: List.replicate 27 (.step 0) ++
    List.replicate 8 (.step 1) ++
    .disturb (.advance 60000000) :: operationJob 1 (.shouldAllowWithState eagerService "api") ::
    List.replicate 20 (.step 2) ++
    operationJob 1 (.recordSuccess eagerService "api" none none) :: List.replicate 14 (.step 3) ++
    operationJob 0 (.recordFailure eagerService "api") :: List.replicate 13 (.step 4) ++
    List.replicate 5 (.step 5)

theorem stale_mirror_reopens_row :
    let config := clusterMachine.run (start propagatingCluster) staleSchedule
    let next := clusterMachine.act config (.step 5)
    propagatingCluster.Steady ∧
      clusterMachine.Always runsCalmly (start propagatingCluster) staleSchedule ∧
      config.trace.any (closesRow "api") = true ∧
      (config.state.keys "api").state = some .closed ∧ (next.state.keys "api").state = some .opened ∧
      next.trace.head?.map (fun event => tripsRow "api" event || operatorWrites "api" event) = some false := by
  intro config next
  refine ⟨⟨rfl, fun _ => ⟨rfl, rfl, rfl⟩⟩, ?_, by decide +kernel, by decide +kernel, by decide +kernel,
    by decide +kernel⟩
  refine always_runsCalmly (fun program member => ?_) (fun change member => ?_) _
  · have spawned : Action.spawn program = operationJob 0 (.recordFailure eagerService "api") ∨
        Action.spawn program = operationJob 1 (.shouldAllowWithState eagerService "api") ∨
        Action.spawn program = operationJob 1 (.recordSuccess eagerService "api" none none) ∨
        Action.spawn program = operationJob 0 (.recordFailure eagerService "api") := by
      simpa [staleSchedule] using member
    rcases spawned with spawns | spawns | spawns | spawns <;> exact operationJob_spawns spawns
  · obtain rfl : change = .advance 60000000 := by simpa [staleSchedule] using member
    rfl

def afterStep (cluster : Cluster) (before : List ClusterAction) (thread : Nat) : ClusterConfig :=
  (clusterMachine.act (clusterMachine.run (Pool.start cluster) before) (.step thread)).forget

structure TripInvariant (name : String) (cluster : Cluster) (trace : List ClusterEvent)
    (_ : List WorkerLocal) : Prop where
  steady : cluster.Steady
  kept : (cluster.keys name).isTripped = true ∨
    ∃ event ∈ trace, closesRow name event = true ∨ operatorWrites name event = true

theorem trip_sound (name : String) :
    Sound clusterMachine (clusterDiscipline 0 name) (fun g _ => AtRole .idle g) (TripInvariant name)
      (fun config action => runsCalmly config action ∧ createsOverTrip name config action = false) where
  step config locals thread g call allowed pending holds located may := by
    refine ⟨holds.steady.valid call, startedLocals 0 name call _, started_obey 0 name call _, holds.steady.exec may, ?_⟩
    rcases holds.kept with was | ⟨event, member, moved⟩
    · cases ends : ((config.state.exec call).1.keys name).isTripped with
      | true => exact .inl ends
      | false =>
        refine .inr ⟨_, mem_cons_self, ?_⟩
        rcases lowered_step holds.steady thread may was ends with creates | moved
        · have apart := allowed.2
          simp [createsOverTrip, pending, creates, was] at apart
        · exact moved
    · exact .inr ⟨event, mem_cons_of_mem _ member, moved⟩
  disturb config locals change allowed holds := by
    refine ⟨holds.steady.disturb (allowed.1.2 change rfl), ?_⟩
    have same : (config.state.disturb change).keys = config.state.keys := by
      cases change <;> rfl
    change ((config.state.disturb change).keys name).isTripped = true ∨ _
    rw [same]
    exact holds.kept
  spawn config locals program allowed holds := by
    obtain ⟨v, job, rfl⟩ := allowed.1.1
    exact ⟨_, job_obeys 0 name v job, holds.steady, holds.kept⟩

/-- A trip is not erased, as long as no `get_or_create` writes the default row over a tripped one. -/
theorem trip_stays_in_store (cluster : Cluster) (name : String) (before after : List ClusterAction)
    (thread : Nat) (event : ClusterEvent) (steady : cluster.Steady)
    (calm : clusterMachine.Always runsCalmly (start cluster) before)
    (commits : (clusterMachine.act (clusterMachine.run (start cluster) before) (.step thread)).trace =
      event :: (clusterMachine.run (start cluster) before).trace)
    (trips : tripsRow name event = true)
    (calmAfter : clusterMachine.Always runsCalmly (afterStep cluster before thread) after)
    (creates : clusterMachine.Always
      (fun config action => createsOverTrip name config action = false)
      (afterStep cluster before thread) after) :
    let final := clusterMachine.run (afterStep cluster before thread) after
    (final.state.keys name).isTripped = true ∨
      ∃ event ∈ final.trace, closesRow name event = true ∨ operatorWrites name event = true := by
  intro final
  have calmStep : runsCalmly (clusterMachine.run (start cluster) before) (.step thread) :=
    ⟨trivial, by simp⟩
  have coherent := (snapshot_sound 0 name).run calm (snapshot_initial steady 0 name)
  have steadyBefore : (clusterMachine.run (start cluster) before).state.Steady :=
    coherent.choose_spec.2.steady
  obtain ⟨locals, obeys, holds⟩ := (snapshot_sound 0 name).act calmStep coherent
  have committed : Coherent (clusterDiscipline 0 name) (fun g _ => AtRole .idle g)
      (TripInvariant name) (afterStep cluster before thread) :=
    ⟨locals, obeys, holds.steady, Or.inl (trips_act steadyBefore commits trips).2⟩
  obtain ⟨_, _, invariant⟩ := (trip_sound name).run (clusterMachine.always_and calmAfter creates) committed
  exact invariant.kept

def recordedSchedule : List ClusterAction :=
  List.replicate 6 (.step 0) ++ List.replicate 8 (.step 1)

theorem trip_stays_after_mirror :
    let final := clusterMachine.run (afterStep { clock := 0 } tripSchedule 0) recordedSchedule
    final.trace.any (fun event => closesRow "api" event || operatorWrites "api" event) = false ∧
      ((final.state.keys "api").isTripped = true ∨
        ∃ event ∈ final.trace, closesRow "api" event = true ∨ operatorWrites "api" event = true) := by
  have ready : ((clusterMachine.run (start { clock := 0 }) tripSchedule).pending 0).isSome = true := by
    decide +kernel
  obtain ⟨call, pending⟩ := isSome_iff_exists.mp ready
  have commits := clusterMachine.trace_step pending
  have trips : (clusterMachine.act (clusterMachine.run (start { clock := 0 }) tripSchedule)
      (.step 0)).trace.head?.map (tripsRow "api") = some true := by
    decide +kernel
  rw [commits, head?_cons, map_some, some.injEq] at trips
  have calm : clusterMachine.Always runsCalmly (start { clock := 0 }) tripSchedule := by
    refine always_runsCalmly (fun program member => ?_) ?_ _
    · exact operationJob_spawns (by simpa using member)
    · simp
  have calmAfter : clusterMachine.Always runsCalmly (afterStep { clock := 0 } tripSchedule 0)
      recordedSchedule := always_runsCalmly (by simp [recordedSchedule]) (by simp [recordedSchedule]) _
  have creates : clusterMachine.Always
      (fun config action => createsOverTrip "api" config action = false)
      (afterStep { clock := 0 } tripSchedule 0) recordedSchedule := by
    decide +kernel
  refine ⟨by decide +kernel, ?_⟩
  exact trip_stays_in_store { clock := 0 } "api" tripSchedule recordedSchedule 0 _
    (steady_initial 0 _) calm commits trips calmAfter creates

def patientService : Service :=
  ⟨{}, fun _ => {}, []⟩

def erasedBefore : List ClusterAction :=
  operationJob 0 (.recordFailure patientService "api") ::
    operationJob 1 (.recordFailure eagerService "api") :: List.replicate 10 (.step 0) ++
    List.replicate 7 (.step 2) ++ List.replicate 17 (.step 1)

theorem created_row_erases_trip :
    let config := clusterMachine.run (start { clock := 0 }) erasedBefore
    let committed := afterStep { clock := 0 } erasedBefore 1
    let final := clusterMachine.run committed [.step 2, .step 2]
    clusterMachine.Always runsCalmly (start { clock := 0 }) erasedBefore ∧
      (clusterMachine.act config (.step 1)).trace.head?.map (tripsRow "api") = some true ∧
      (committed.state.keys "api").state = some .opened ∧
      (final.state.keys "api").state = some .closed ∧
      final.trace.any (fun event => closesRow "api" event || operatorWrites "api" event) = false := by
  intro config committed final
  refine ⟨?_, by decide +kernel, by decide +kernel, by decide +kernel, by decide +kernel⟩
  refine always_runsCalmly (fun program member => ?_) ?_ _
  · have spawned : Action.spawn program = operationJob 0 (.recordFailure patientService "api") ∨
        Action.spawn program = operationJob 1 (.recordFailure eagerService "api") := by
      simpa [erasedBefore] using member
    rcases spawned with spawns | spawns <;> exact operationJob_spawns spawns
  · simp [erasedBefore]

end Baldur.CircuitBreaker
