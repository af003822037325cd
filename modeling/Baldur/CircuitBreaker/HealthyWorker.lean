import Baldur.CircuitBreaker.ClusterCore

/-!
What a worker sends while its link is healthy: a thread's part in the mirror protocol of one watched service,
and the row its last repair read.
-/

namespace Baldur.CircuitBreaker

open Prog Layered Redis Reply

inductive MirrorRole
  | idle
  | ticket
  | fresh
  | cleared
  | read
  deriving DecidableEq

structure WorkerLocal where
  home : Nat
  role : MirrorRole := .idle
  snapshot : Option (String × CircuitState) := none

def Sends (lane : Lane) (snapshot : Option (String × CircuitState)) : RedisCommand → Prop
  | .hgetall _ => True
  | .hset _ update => lane = .manual ∨ update.state = none ∨ ∃ stamp, update = Redis.defaultFields stamp
  | .evalUpdateState name guardPin guardKeepOpen update _ =>
      (lane = .mirror ∨ lane = .repair) ∧ guardPin = true ∧ guardKeepOpen = true ∧
        ∃ state, update.state = some state ∧ snapshot = some (name, state)
  | .evalTryAcquireHalfOpenSlot .. => lane = .acquire
  | .evalRecordSuccessWithCloseCheck .. => lane = .closeCheck
  | .evalRecordFailureWithOpenCheck .. => lane = .openCheck
  | .evalTripToOpen .. => lane = .trip

section

variable (own : Bool) (target : String)

def concerns (name : String) : Bool :=
  own && name = target

def roleMay (role : MirrorRole) : LocalCall → Prop
  | .mirrorEnqueue name => concerns own target name = true → role = .idle
  | .submitMirrorTask name => concerns own target name = true → role = .ticket
  | .mirrorWithdraw _ => False
  | .mirrorClearDirty name => concerns own target name = true → role = .fresh
  | .repairRead lane name => concerns own target name = true → lane = .mirror → role = .cleared
  | .mirrorRelease name => concerns own target name = true → role = .read
  | .handleL2Failure => False
  | _ => True

def roleAfter (role : MirrorRole) : (call : LocalCall) → call.Answer → MirrorRole
  | .mirrorEnqueue name, submits => if concerns own target name && submits then .ticket else role
  | .submitMirrorTask name, _ => if concerns own target name then .idle else role
  | .mirrorClearDirty name, _ => if concerns own target name then .cleared else role
  | .repairRead lane name, _ => if concerns own target name && lane = .mirror then .read else role
  | .mirrorRelease name, _ => if concerns own target name then .idle else role
  | _, _ => role

def snapshotAfter (snapshot : Option (String × CircuitState)) :
    (call : LocalCall) → call.Answer → Option (String × CircuitState)
  | .repairRead _ name, found => found.map fun row => (name, row.state)
  | _, _ => snapshot

def healthyAnswer : (call : LayeredCall) → call.Answer → Prop
  | .inside .l2Healthy, healthy => healthy = true
  | .inside .handleL2Success, recovered => recovered = false
  | .inside (.submitMirrorTask _), accepted => accepted = true
  | .l2 _ _, reply => ∃ value, reply = .answered value
  | _, _ => True

def healthyDiscipline : Discipline LayeredCall LayeredCall.Answer WorkerLocal where
  may local' call := match call with
    | .inside call => roleMay own target local'.role call
    | .l2 lane command => Sends lane local'.snapshot command
    | _ => True
  valid _ call answer := healthyAnswer call answer
  after local' call answer := match call, answer with
    | .inside call, answer =>
        { local' with
          role := roleAfter own target local'.role call answer
          snapshot := snapshotAfter local'.snapshot call answer }
    | _, _ => local'

end

def Reply.Answered {α : Type} (reply : Reply α) : Prop :=
  ∃ value, reply = .answered value

def LocalCall.neutral : LocalCall → Bool
  | .repairRead _ _ => false
  | .handleL2Failure => false
  | .mirrorEnqueue _ => false
  | .submitMirrorTask _ => false
  | .mirrorWithdraw _ => false
  | .mirrorClearDirty _ => false
  | .mirrorRelease _ => false
  | _ => true

def AtRole (role : MirrorRole) (local' : WorkerLocal) : Prop :=
  local'.role = role

def Holding (role : MirrorRole) (name : String) (state : CircuitState) (local' : WorkerLocal) : Prop :=
  local'.role = role ∧ local'.snapshot = some (name, state)

section

variable {call : LocalCall} {local' : WorkerLocal} {own : Bool} {target : String} {inv : WorkerLocal → Prop} {α : Type}

abbrev Healthy (own : Bool) (target : String) (inv : WorkerLocal → Prop) (post : α → Prop)
    (program : LayeredProg α) : Prop :=
  Yields (healthyDiscipline own target) inv post program

abbrev Idles (own : Bool) (target : String) (program : LayeredProg α) : Prop :=
  Healthy own target (AtRole .idle) (fun _ => True) program

theorem healthy_now : Healthy own target inv (fun _ => True) now := by
  exact yields_perform (fun _ _ => trivial) fun _ _ holds _ => ⟨holds, trivial⟩

theorem healthy_inside (neutral : call.neutral = true) :
    Healthy own target inv (fun answer => healthyAnswer (.inside call) answer) (inside call) := by
  refine yields_perform (fun local' _ => ?_) fun local' answer holds valid => ⟨?_, valid⟩
  · cases call <;> trivial
  · cases call <;> first | exact holds | simp [LocalCall.neutral] at neutral

theorem healthy_step (neutral : call.neutral = true) : Healthy own target inv (fun _ => True) (inside call) := by
  exact (healthy_inside neutral).mono fun _ _ => trivial

theorem healthy_l1 (call : RepoCall) : Healthy own target inv (fun _ => True) (l1 call) := by
  exact yields_perform (fun _ _ => trivial) fun _ _ holds _ => ⟨holds, trivial⟩

theorem healthy_l2 {lane : Lane} {command : RedisCommand}
    (sends : ∀ local', inv local' → Sends lane local'.snapshot command) :
    Healthy own target inv Reply.Answered (l2 lane command) := by
  exact yields_perform sends fun _ _ holds valid => ⟨holds, valid⟩

section

variable {β : Type} {post : β → Prop}

theorem after_inside (neutral : call.neutral = true) {rest : call.Answer → LayeredProg β}
    (goesOn : ∀ answer, Healthy own target inv post (rest answer)) :
    Healthy own target inv post (inside call >>= rest) := by
  exact yields_bind (healthy_inside neutral) fun answer _ => goesOn answer

theorem after_l1 {call : RepoCall} {rest : call.Answer → LayeredProg β}
    (goesOn : ∀ answer, Healthy own target inv post (rest answer)) :
    Healthy own target inv post (l1 call >>= rest) := by
  exact yields_bind (healthy_l1 call) fun answer _ => goesOn answer

theorem bind_answered {program : LayeredProg (Reply α)} {rest : Reply α → LayeredProg β}
    (first : Healthy own target inv Reply.Answered program)
    (goesOn : ∀ value, Healthy own target inv post (rest (.answered value))) :
    Healthy own target inv post (program >>= rest) := by
  refine yields_bind first fun reply answered => ?_
  obtain ⟨value, rfl⟩ := answered
  exact goesOn value

end

variable (lane : Lane) (name : String)

theorem healthy_getState : Healthy own target inv Reply.Answered (getState lane name) := by
  exact bind_answered (healthy_l2 fun _ _ => trivial) fun hash => yields_ret ⟨_, rfl⟩

theorem healthy_redisGetOrCreate : Healthy own target inv Reply.Answered (getOrCreate lane name) := by
  refine bind_answered (healthy_getState lane name) fun existing => ?_
  cases existing with
  | some => exact yields_ret ⟨_, rfl⟩
  | none =>
    refine yields_bind healthy_now fun instant _ => ?_
    exact bind_answered (healthy_l2 fun _ _ => .inr (Or.inr ⟨instant, rfl⟩)) fun _ => yields_ret ⟨_, rfl⟩

variable (update : StateUpdate)

theorem healthy_declines : Healthy own target inv (fun _ => True) (declinesClosedWriteOnDegradedBackend update) := by
  refine yields_branch ?_ (yields_ret trivial)
  exact healthy_step rfl

theorem healthy_guardedUpdate (permitted : lane = .mirror ∨ lane = .repair)
    (pin : update.skipIfPinned = true) (keep : update.keepOpen = true)
    (held : ∀ local', inv local' → local'.snapshot = some (name, update.state)) :
    Healthy own target inv Reply.Answered (updateState lane name update) := by
  refine yields_bind healthy_now fun instant _ => ?_
  refine yields_ite (fun _ => ?_) fun unguarded => ?_
  · refine yields_bind (healthy_declines update) fun declines _ => ?_
    refine yields_branch (yields_ret ⟨_, rfl⟩) ?_
    refine bind_answered (healthy_l2 fun local' holds =>
      ⟨permitted, pin, keep, update.state, rfl, held local' holds⟩) fun value => ?_
    exact yields_ret ⟨_, rfl⟩
  · simp [pin] at unguarded

variable (row : Row)

theorem healthy_mirrorSkipped (keepOpen : Bool) :
    Healthy own target inv (fun _ => True) (mirrorSkippedOnDegradedBackend row keepOpen) := by
  refine yields_unless fun _ => ?_
  exact healthy_step rfl

theorem healthy_ensureL2Row (keepOpen : Bool) :
    Healthy own target inv Reply.Answered (ensureL2RowForMirror lane name row keepOpen) := by
  have creates : Healthy own target inv Reply.Answered
      (do onAnswer (← getOrCreate lane name) fun _ => return .answered true) := by
    exact bind_answered (healthy_redisGetOrCreate lane name) fun _ => yields_ret ⟨_, rfl⟩
  refine yields_branch creates ?_
  refine bind_answered (healthy_getState lane name) fun existing => ?_
  cases existing with
  | some => exact yields_ret ⟨_, rfl⟩
  | none =>
    refine yields_bind (healthy_mirrorSkipped row keepOpen) fun skipped _ => ?_
    exact yields_branch (yields_ret ⟨_, rfl⟩) creates

theorem healthy_syncToL2 (skipIfPinned keepOpen : Bool) (writes : Healthy own target inv Reply.Answered
      (updateState lane name (snapshotUpdate row skipIfPinned keepOpen))) :
    Healthy own target inv (fun _ => True) (syncToL2 lane name row skipIfPinned keepOpen) := by
  refine yields_bind (healthy_mirrorSkipped row keepOpen) fun skipped _ => ?_
  refine yields_unless fun _ => ?_
  refine bind_answered (healthy_ensureL2Row lane name row keepOpen) fun present => ?_
  cases present with
  | false => exact yields_ret trivial
  | true =>
    refine bind_answered writes fun written => ?_
    exact (healthy_inside rfl).discard

variable (role : MirrorRole)

theorem healthy_mirrorRow (row : Row) (permitted : lane = .mirror ∨ lane = .repair) :
    Healthy own target (Holding role name row.state) (fun _ => True) (syncToL2 lane name row true true) := by
  refine healthy_syncToL2 lane name row true true ?_
  exact healthy_guardedUpdate lane name _ permitted rfl rfl fun _ holds => holds.2

section

variable {role before : MirrorRole} (at' : local'.role = before) (may : roleMay own target before (.repairRead lane name))
  (after : ∀ found, roleAfter own target before (.repairRead lane name) found = role)

include at' may after

theorem obeys_resolveRepairRow :
    Obeys (healthyDiscipline own target)
      (fun g resolved => g.role = role ∧ ∀ row ∈ resolved, g.snapshot = some (name, row.state))
      local' (resolveRepairRow lane name) := by
  subst at'
  refine ⟨may, fun found _ => ?_⟩
  have held := after found
  cases found with
  | none => exact ⟨held, by simp⟩
  | some row =>
    refine ⟨trivial, fun instant _ => ⟨held, fun resolved member => ?_⟩⟩
    split at member
    · simp at member
    · obtain rfl : row = resolved := by simpa using member
      rfl

theorem obeys_repairRow (permitted : lane = .mirror ∨ lane = .repair) :
    Obeys (healthyDiscipline own target) (fun g _ => AtRole role g) local' (repairRowToL2 lane name) := by
  rw [repairRowToL2, obeys_bind]
  refine (obeys_resolveRepairRow lane name at' may after).mono fun g resolved held => ?_
  cases resolved with
  | none => exact held.1
  | some row =>
    exact (healthy_mirrorRow lane name role row permitted g ⟨held.1, held.2 row rfl⟩).mono fun _ _ kept => kept.1.1

end

theorem healthy_repairRow : Healthy own target (AtRole role) (fun _ => True) (repairRowToL2 .repair name) := by
  intro g at'
  refine (obeys_repairRow .repair name at' ?_ ?_ (Or.inr rfl)).mono fun _ _ kept => ⟨kept, trivial⟩
  · intro _ mirror
    cases mirror
  · intro found
    simp [roleAfter]

def turnRole (own : Bool) (target name : String) : MirrorRole :=
  if concerns own target name then .fresh else .idle

theorem obeys_mirrorPass (starts : local'.role = turnRole own target name) :
    Obeys (healthyDiscipline own target) (fun g _ => AtRole .idle g) local' (mirrorPass name) := by
  rw [mirrorPass, inside, perform_bind, obeys_call]
  by_cases watched : concerns own target name = true
  · refine ⟨fun _ => by rw [starts, turnRole, if_pos watched], fun _ _ => ?_⟩
    rw [obeys_bind]
    refine (obeys_repairRow .mirror name (if_pos watched) (fun _ _ => rfl) (fun found => ?_)
      (Or.inl rfl)).mono fun g _ (read : g.role = .read) => ?_
    · exact if_pos (by simp [watched])
    · exact ⟨fun _ => read, fun _ _ => if_pos watched⟩
  · refine ⟨fun hit => absurd hit watched, fun _ _ => ?_⟩
    rw [obeys_bind]
    refine (obeys_repairRow .mirror name (if_neg watched) (fun hit => absurd hit watched) (fun found => ?_)
      (Or.inl rfl)).mono fun g _ (idle : g.role = .idle) => ?_
    · exact (if_neg (by simp [watched])).trans (starts.trans (if_neg watched))
    · exact ⟨fun hit => absurd hit watched, fun _ _ => (if_neg watched).trans idle⟩

theorem healthy_syncToL2Async : Idles own target (syncToL2Async name) := by
  refine yields_bind (healthy_inside rfl) fun healthy answered => ?_
  refine yields_branch ?_ (yields_ret trivial)
  intro g idle
  refine ⟨fun _ => idle, fun submits _ => ?_⟩
  cases submits with
  | false =>
    refine ⟨?_, trivial⟩
    simpa [AtRole, healthyDiscipline, roleAfter] using idle
  | true =>
    have ticket : concerns own target name = true →
        roleAfter own target g.role (.mirrorEnqueue name) true = .ticket := by
      intro watched
      simp [roleAfter, watched]
    refine ⟨ticket, fun accepted taken => ?_⟩
    obtain rfl : accepted = true := taken
    refine ⟨?_, trivial⟩
    by_cases watched : concerns own target name = true
    · simp [AtRole, healthyDiscipline, roleAfter, watched]
    · simpa [AtRole, healthyDiscipline, roleAfter, watched] using idle

theorem healthy_resolveConvergence : Idles own target (resolveRejectPathConvergence name) := by
  refine after_inside rfl fun healthy => ?_
  refine yields_unless fun _ => ?_
  refine after_inside rfl fun degraded => ?_
  refine yields_unless fun _ => ?_
  refine bind_answered (healthy_getState .read name) fun remote => ?_
  refine after_inside rfl fun degraded => ?_
  refine yields_unless fun _ => ?_
  refine after_inside rfl fun _ => ?_
  cases remote with
  | none =>
    refine yields_bind (healthy_repairRow name .idle) fun repaired _ => ?_
    cases repaired <;> exact yields_ret trivial
  | some =>
    refine yields_unless fun _ => ?_
    refine yields_branch ?_ ?_
    · exact (healthy_inside rfl).discard
    · exact (healthy_inside rfl).discard

theorem healthy_runConvergence : Idles own target (runRejectPathConvergence name) := by
  refine yields_bind (healthy_resolveConvergence name) fun _ _ => ?_
  exact healthy_step rfl

theorem healthy_maybeSchedule (allowed : Bool) (newState : CircuitState) :
    Idles own target (maybeScheduleRejectConvergence name allowed newState) := by
  have release : Idles own target (inside .releaseConvergenceSlot) := healthy_step rfl
  refine yields_unless fun _ => ?_
  refine after_inside rfl fun suppressed => ?_
  refine yields_unless fun _ => ?_
  refine after_inside rfl fun permit => ?_
  refine yields_branch ?_ (yields_ret trivial)
  refine after_l1 fun row => ?_
  refine yields_branch release ?_
  refine after_inside rfl fun reserved => ?_
  refine yields_branch ?_ release
  refine after_inside rfl fun submitted => ?_
  exact yields_branch (yields_ret trivial) release

theorem healthy_getByServiceName : Idles own target (getByServiceName name) := by
  refine after_l1 fun result => ?_
  cases result with
  | some => exact yields_ret trivial
  | none =>
    refine after_inside rfl fun healthy => ?_
    refine yields_branch ?_ (yields_ret trivial)
    refine bind_answered (healthy_getState .read name) fun remote => ?_
    cases remote with
    | none => exact yields_ret trivial
    | some =>
      refine after_inside rfl fun _ => ?_
      exact after_inside rfl fun _ => healthy_l1 _

theorem healthy_getOrCreate : Idles own target (getOrCreate name) := by
  refine after_inside rfl fun enabled => ?_
  refine yields_branch ?_ (healthy_l1 _)
  refine yields_bind (healthy_getByServiceName name) fun found _ => ?_
  cases found with
  | some => exact yields_ret trivial
  | none => exact healthy_l1 _

theorem healthy_redisResetHalfOpenCount : Healthy own target inv Reply.Answered (resetHalfOpenCount .counter name) := by
  refine yields_bind healthy_now fun instant _ => ?_
  exact healthy_l2 fun _ _ => .inr (Or.inl rfl)

theorem healthy_updateState : Idles own target (updateState name update) := by
  refine after_l1 fun result => ?_
  refine yields_branch ?_ (yields_ret trivial)
  refine yields_bind (healthy_syncToL2Async name) fun _ _ => ?_
  refine yields_branch ?_ (yields_ret trivial)
  exact (healthy_redisResetHalfOpenCount name).discard

theorem healthy_writebackClosed : Healthy own target inv (fun _ => True) (writebackClosed name) := by
  refine after_inside rfl fun _ => ?_
  exact (healthy_l1 _).discard

theorem healthy_tryAcquire (limit stuckTimeoutSeconds : Int) :
    Idles own target (tryAcquireHalfOpenSlot name limit stuckTimeoutSeconds) := by
  refine after_inside rfl fun healthy => ?_
  refine yields_branch ?_ (healthy_l1 _)
  refine bind_answered (yields_bind healthy_now fun instant _ => healthy_l2 fun _ _ => rfl) fun attempt => ?_
  refine after_inside rfl fun _ => ?_
  refine yields_branch ?_ ?_
  · have writeback : Idles own target (writebackL2StateToL1 name attempt) :=
      after_l1 fun _ =>
        after_l1 fun _ => yields_ret trivial
    exact writeback.discard
  · exact (healthy_maybeSchedule name _ _).discard

theorem healthy_mirroredWrite (call : RepoCall) : Idles own target
    (do let result ← l1 call
        syncToL2Async name
        return result) := by
  refine yields_bind (healthy_l1 call) fun result _ => ?_
  exact (healthy_syncToL2Async name).discard

theorem healthy_closeCheck (successThreshold : Int) :
    Idles own target (recordSuccessWithCloseCheck name successThreshold) := by
  refine yields_bind (healthy_inside rfl) fun healthy (up : healthy = true) => ?_
  refine yields_ite (fun _ => ?_) fun down => absurd up down
  refine bind_answered (yields_bind healthy_now fun instant _ => healthy_l2 fun _ _ => rfl) fun attempt => ?_
  refine after_inside rfl fun _ => ?_
  refine yields_branch ?_ ?_
  · have writeback : Idles own target (writebackCloseCheckToL1 name attempt) := by
      refine after_l1 fun _ => ?_
      refine yields_branch (healthy_writebackClosed name) ?_
      exact (healthy_l1 _).discard
    exact writeback.discard
  · exact (healthy_l1 _).discard

theorem healthy_openCheck : Idles own target (recordFailureWithOpenCheck name) := by
  have fallback : Idles own target (l1FallbackOpenCheck name) := healthy_mirroredWrite name _
  refine after_inside rfl fun healthy => ?_
  refine yields_branch ?_ fallback
  refine bind_answered (yields_bind healthy_now fun instant _ => healthy_l2 fun _ _ => rfl) fun attempt => ?_
  refine after_inside rfl fun _ => ?_
  refine yields_branch ?_ fallback
  have writeback : Idles own target (writebackOpenCheckToL1 name attempt) := by
    refine after_l1 fun _ => ?_
    refine yields_branch ?_ (healthy_writebackClosed name)
    exact (healthy_l1 _).discard
  exact writeback.discard

theorem healthy_hydratePinnedTrip (attempt : CircuitBreakerOpenAttempt) :
    Healthy own target inv (fun _ => True) (hydratePinnedTrip name attempt) := by
  refine bind_answered (healthy_getState .read name) fun remote => ?_
  cases remote with
  | none => exact yields_ret trivial
  | some => exact (healthy_inside rfl).discard

theorem healthy_tripToOpen (failureCount : Int) : Idles own target (tripToOpen name failureCount) := by
  have fallback : Idles own target (l1FallbackTrip name failureCount) := healthy_mirroredWrite name _
  refine after_inside rfl fun healthy => ?_
  refine yields_branch ?_ fallback
  refine bind_answered (yields_bind healthy_now fun instant _ => healthy_l2 fun _ _ => rfl) fun attempt => ?_
  refine after_inside rfl fun _ => ?_
  refine yields_branch (healthy_hydratePinnedTrip name attempt) ?_
  refine yields_branch ?_ fallback
  have writeback : Idles own target (writebackTripToL1 name attempt) := by
    refine after_l1 fun _ => ?_
    refine yields_branch ?_ ?_
    · exact (healthy_l1 _).discard
    · exact (healthy_l1 _).discard
  refine yields_bind writeback fun _ _ => ?_
  exact (healthy_syncToL2Async name).discard

theorem healthy_reset : Idles own target (reset name) := by
  refine after_l1 fun result => ?_
  refine yields_branch ?_ (yields_ret trivial)
  exact (healthy_syncToL2Async name).discard

theorem healthy_manualWrite (pin : update.skipIfPinned = false) (keep : update.keepOpen = false) :
    Healthy own target inv Reply.Answered (updateState .manual name update) := by
  refine yields_bind healthy_now fun instant _ => ?_
  refine yields_ite (fun guarded => by simp [pin, keep] at guarded) fun _ => ?_
  exact bind_answered (healthy_l2 fun _ _ => .inl rfl) fun _ => yields_ret ⟨_, rfl⟩

theorem healthy_manualControl (call : RepoCall) (succeeded : call.Answer → Bool)
    (pinWrite : Row → LayeredProg (Reply Unit))
    (pins : ∀ row, Healthy own target (AtRole .idle) Reply.Answered (pinWrite row)) :
    Idles own target (manualControl name call succeeded pinWrite) := by
  refine after_l1 fun result => ?_
  refine yields_branch ?_ (yields_ret trivial)
  have through : Idles own target (writeManualControlThrough name pinWrite) := by
    refine after_l1 fun updated => ?_
    cases updated with
    | none => exact yields_ret trivial
    | some row =>
      refine yields_bind (healthy_syncToL2 .manual name row false false
        (healthy_manualWrite name _ rfl rfl)) fun _ _ => ?_
      have pin : Idles own target (syncPinToL2 (pinWrite row)) := by
        refine bind_answered (pins row) fun _ => ?_
        exact (healthy_inside rfl).discard
      exact pin.discard
  exact through.discard

theorem healthy_repository (call : RepoCall) : Idles own target (repository call) := by
  cases call with
  | getOrCreate name => exact healthy_getOrCreate name
  | getByServiceName name => exact healthy_getByServiceName name
  | getAllStates => exact healthy_l1 _
  | updateState name update => exact healthy_updateState name update
  | recordFailure name | recordSuccess name => exact healthy_mirroredWrite name _
  | recordSuccessWithCloseCheck name threshold => exact healthy_closeCheck name threshold
  | recordFailureWithOpenCheck name => exact healthy_openCheck name
  | tripToOpen name failureCount => exact healthy_tripToOpen name failureCount
  | setManualControl name | atomicForceOpen name | atomicForceClose name | clearManualControl name =>
    refine healthy_manualControl name _ _ _ fun _ => ?_
    exact yields_bind healthy_now fun instant _ => healthy_l2 fun _ _ => .inl rfl
  | reset name => exact healthy_reset name
  | atomicReset name =>
    refine healthy_manualControl name _ _ _ fun _ => ?_
    refine bind_answered (healthy_redisGetOrCreate .manual name) fun _ => ?_
    exact yields_bind healthy_now fun instant _ => healthy_l2 fun _ _ => .inl rfl
  | tryAcquireHalfOpenSlot name limit stuck => exact healthy_tryAcquire name limit stuck
  | resetHalfOpenCount name =>
    exact yields_bind (healthy_redisResetHalfOpenCount name) fun _ _ => healthy_l1 _

theorem healthy_serve (call : ServiceCall) : Idles own target (serve call) := by
  cases call with
  | repo call => exact healthy_repository call
  | window => exact healthy_step rfl
  | now => exact healthy_now
  | systemEnabled
  | autoTransitionAllowed => exact yields_perform (fun _ _ => trivial) fun _ _ holds _ => ⟨holds, trivial⟩

theorem healthy_reconcileRow (report : DriftReport) (row : Row) : Idles own target (reconcileRow report row) := by
  refine bind_answered (healthy_getState .read _) fun remote => ?_
  have repairs : Idles own target (repairRowToL2 .repair row.serviceName) := healthy_repairRow _ .idle
  cases remote with
  | none => exact repairs.discard
  | some =>
    refine yields_unless fun _ => ?_
    refine yields_branch ?_ ?_
    · exact repairs.discard
    · exact (healthy_l1 _).discard

theorem healthy_reconcileAllDrift : Idles own target reconcileAllDrift := by
  refine after_l1 fun rows => ?_
  exact yields_foldlM (fun report row _ _ => healthy_reconcileRow report row) trivial

theorem healthy_reconcileSingleService : Idles own target (reconcileSingleService name) := by
  refine after_l1 fun stored => ?_
  cases stored with
  | none => exact yields_ret trivial
  | some =>
    refine bind_answered (healthy_getState .read name) fun remote => ?_
    cases remote with
    | none => exact (healthy_repairRow name .idle).discard
    | some =>
      refine yields_unless fun _ => ?_
      refine yields_branch ?_ ?_
      · exact (healthy_repairRow name .idle).discard
      · exact (healthy_l1 _).discard

theorem healthy_applyPeerCbState (newState : CircuitState) (openedAt : Option Time) :
    Healthy own target inv (fun _ => True) (applyPeerCbState name newState openedAt) := by
  refine after_l1 fun current => ?_
  refine yields_unless fun _ => ?_
  refine after_l1 fun _ => ?_
  refine yields_branch ?_ ?_
  · exact (healthy_l1 _).discard
  · exact (healthy_writebackClosed name).discard

theorem healthy_forceSyncToL2 : Idles own target forceSyncToL2 := by
  refine after_l1 fun rows => ?_
  refine yields_foldlM (fun report row _ _ => ?_) trivial
  exact (healthy_repairRow _ .idle).discard

theorem healthy_job (job : Job) : Idles own target job.program := by
  cases job with
  | service program =>
    exact (yields_translate healthy_serve program).discard
  | applyPeerCbState name newState openedAt =>
    exact (healthy_applyPeerCbState name newState openedAt).discard
  | forceSyncToL2 =>
    exact healthy_forceSyncToL2.discard
  | reconcileAllDrift =>
    exact healthy_reconcileAllDrift.discard
  | reconcileSingleService name =>
    exact (healthy_reconcileSingleService name).discard

end

section

open Prog

def clusterDiscipline (worker : Nat) (target : String) : Discipline WorkerCall WorkerCall.Answer WorkerLocal where
  may local' call :=
    call.worker = local'.home ∧ (healthyDiscipline (call.worker = worker) target).may local' call.call
  valid local' call answer := (healthyDiscipline (call.worker = worker) target).valid local' call.call answer
  after local' call answer := (healthyDiscipline (call.worker = worker) target).after local' call.call answer

theorem home_after (own : Bool) (target : String) (local' : WorkerLocal) (call : LayeredCall) (answer : call.Answer) :
    ((healthyDiscipline own target).after local' call answer).home = local'.home := by
  cases call <;> rfl

theorem obeys_onWorker {α : Type} {worker v : Nat} {target : String} {post : WorkerLocal → α → Prop}
    {program : LayeredProg α} {local' : WorkerLocal} (home : local'.home = v)
    (obeys : Obeys (healthyDiscipline (v = worker) target) post local' program) :
    Obeys (clusterDiscipline worker target) post local' (onWorker v program) := by
  induction program generalizing local' with
  | ret => exact obeys
  | call c next ih =>
    refine ⟨⟨home.symm, obeys.1⟩, fun answer valid => ?_⟩
    exact ih answer ((home_after _ target local' c answer).trans home) (obeys.2 answer valid)

structure Worker.Linked (worker : Worker) : Prop where
  healthy : worker.l2Healthy = true
  never : worker.l2WasUnhealthy = false
  accepts : worker.executorAccepts = true

structure Cluster.Steady (cluster : Cluster) : Prop where
  link : cluster.link = .answering
  linked : ∀ v, (cluster.workers v).Linked

def ClusterChange.isCalm : ClusterChange → Bool
  | .link _ => false
  | _ => true

def runsCalmly (config : ClusterConfig) (action : ClusterAction) : Prop :=
  runsJobs config action ∧ ∀ change, action = .disturb change → change.isCalm = true

theorem always_runsCalmly {schedule : List ClusterAction} (spawns : ∀ program, Pool.Action.spawn program ∈ schedule →
      ∃ worker job, program = onWorker worker (Job.program job))
    (calm : ∀ change, Pool.Action.disturb change ∈ schedule → change.isCalm = true)
    (config : ClusterConfig) : clusterMachine.Always runsCalmly config schedule := by
  induction schedule generalizing config with
  | nil => trivial
  | cons action rest ih =>
    refine ⟨⟨?_, fun change same => calm change (by simp [same])⟩, ?_⟩
    · cases action with
      | spawn program => exact spawns program List.mem_cons_self
      | step => trivial
      | disturb => trivial
    · exact ih (fun program member => spawns program (List.mem_cons_of_mem _ member))
        (fun change member => calm change (List.mem_cons_of_mem _ member)) _

theorem steady_initial (clock : Time) (keys : Keyspace) : ({ clock, keys } : Cluster).Steady := by
  exact ⟨rfl, fun _ => ⟨rfl, rfl, rfl⟩⟩

theorem Worker.Linked.exec {worker : Worker} (linked : worker.Linked) (now : Time)
    (call : LocalCall) (sound : call ≠ .handleL2Failure) : (call.exec now worker).1.Linked := by
  obtain ⟨healthy, never, accepts⟩ := linked
  cases call with
  | handleL2Failure => exact absurd rfl sound
  | handleL2Success => exact ⟨rfl, rfl, accepts⟩
  | mirrorEnqueue | mirrorRelease | reserveConvergence =>
    simp only [LocalCall.exec, Worker.mirrorEnqueue, Worker.mirrorRelease]
    split <;> exact ⟨healthy, never, accepts⟩
  | _ => exact ⟨healthy, never, accepts⟩

theorem linked_update {workers : Nat → Worker} (linked : ∀ v, (workers v).Linked) {v : Nat}
    {worker : Worker} (replaced : worker.Linked) : ∀ u, (Function.update workers v worker u).Linked := by
  intro u
  by_cases same : u = v
  · rw [same, Function.update_self]
    exact replaced
  · rw [Function.update_of_ne same]
    exact linked u

section

variable {cluster : Cluster} {worker : Nat} {target : String} {local' : WorkerLocal}

variable (steady : cluster.Steady)

include steady

theorem Cluster.Steady.valid (call : WorkerCall) :
    (clusterDiscipline worker target).valid local' call (cluster.exec call).2 := by
  obtain ⟨v, call⟩ := call
  have linked := steady.linked v
  cases call with
  | l2 lane command =>
    refine ⟨(command.exec cluster.keys).2, ?_⟩
    simp only [Cluster.exec, LayeredCall.exec, RedisCommand.send, steady.link]
  | inside call =>
    cases call with
    | l2Healthy => exact linked.healthy
    | handleL2Success =>
      change (!(cluster.workers v).l2Healthy || (cluster.workers v).l2WasUnhealthy) = false
      simp [linked.healthy, linked.never]
    | submitMirrorTask => exact linked.accepts
    | _ => trivial
  | _ => trivial

theorem Cluster.Steady.exec {call : WorkerCall}
    (may : (clusterDiscipline worker target).may local' call) : (cluster.exec call).1.Steady := by
  obtain ⟨v, call⟩ := call
  cases call with
  | inside call =>
    refine ⟨steady.link, linked_update steady.linked ((steady.linked v).exec _ call ?_)⟩
    rintro rfl
    exact may.2
  | _ => exact ⟨steady.link, steady.linked⟩

theorem Cluster.Steady.disturb {change : ClusterChange}
    (calm : change.isCalm = true) : (cluster.disturb change).Steady := by
  cases change with
  | link => simp [ClusterChange.isCalm] at calm
  | degrade v =>
    refine ⟨steady.link, linked_update steady.linked ?_⟩
    exact ⟨(steady.linked v).healthy, (steady.linked v).never, (steady.linked v).accepts⟩
  | _ => exact ⟨steady.link, steady.linked⟩

end

def startedLocals (worker : Nat) (target : String) : (call : WorkerCall) → call.Answer → List WorkerLocal
  | ⟨v, .inside (.submitMirrorTask name)⟩, accepted =>
      if accepted then [{ home := v, role := turnRole (v = worker) target name }] else []
  | ⟨v, .inside (.mirrorRelease name)⟩, released =>
      if released then [] else [{ home := v, role := turnRole (v = worker) target name }]
  | ⟨v, .inside (.submitConvergence _)⟩, accepted => if accepted then [{ home := v }] else []
  | ⟨v, .inside .handleL2Success⟩, recovered => if recovered then [{ home := v }] else []
  | _, _ => []

theorem started_obey (worker : Nat) (target : String) (call : WorkerCall) (answer : call.Answer) :
    List.Forall₂ (Obeys (clusterDiscipline worker target) fun g _ => AtRole .idle g)
      (startedLocals worker target call answer) (call.starts answer) := by
  have single : ∀ {v : Nat} {program : LayeredProg Unit} {local' : WorkerLocal}, local'.home = v →
      Obeys (healthyDiscipline (v = worker) target) (fun g _ => AtRole .idle g) local' program →
      List.Forall₂ (Obeys (clusterDiscipline worker target) fun g _ => AtRole .idle g) [local']
        ([program].map (onWorker v)) := by
    intro v program local' home obeys
    exact .cons (obeys_onWorker home obeys) .nil
  obtain ⟨v, call⟩ := call
  cases call with
  | inside call =>
    cases call with
    | submitMirrorTask name =>
      cases answer with
      | false => exact .nil
      | true => exact single rfl (obeys_mirrorPass name rfl)
    | mirrorRelease name =>
      cases answer with
      | false => exact single rfl (obeys_mirrorPass name rfl)
      | true => exact .nil
    | submitConvergence name =>
      cases answer with
      | false => exact .nil
      | true => exact single rfl ((healthy_runConvergence name { home := v } rfl).mono fun _ _ kept => kept.1)
    | handleL2Success =>
      cases answer with
      | false => exact .nil
      | true =>
        exact single rfl ((healthy_job .reconcileAllDrift { home := v } rfl).mono fun _ _ kept => kept.1)
    | _ => exact .nil
  | _ => exact .nil

theorem job_obeys (worker : Nat) (target : String) (v : Nat) (job : Job) :
    Obeys (clusterDiscipline worker target) (fun g _ => AtRole .idle g) { home := v } (onWorker v job.program) := by
  exact obeys_onWorker rfl ((healthy_job job { home := v } rfl).mono fun _ _ kept => kept.1)

end

end Baldur.CircuitBreaker
