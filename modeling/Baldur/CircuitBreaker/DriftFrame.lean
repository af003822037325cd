import Baldur.CircuitBreaker.ClusterCore
import Baldur.Lib.Sequential

/-!
Drift reconciliation while nothing else runs: a repair moves at most the store's row of its service, a round
at most the two rows of its service.
-/

namespace Baldur.CircuitBreaker

open Prog Layered DriftReconciler RedisCommand Redis Function Cluster

variable {row : Row} {name : String}

def execAs (worker : Nat) (call : LayeredCall) (cluster : Cluster) : Cluster × call.Answer :=
  call.exec worker cluster

def Cluster.Drifts (before after : Cluster) : Prop :=
  ∃ clock link, before.clock ≤ clock ∧ after = { before with clock := clock, link := link }

abbrev Leaves {α : Type} (worker : Nat) (program : LayeredProg α) (before : Cluster)
    (post : α → Cluster → Prop) : Prop :=
  Ensures (execAs worker) Cluster.Drifts program before post

def Cluster.l1Row (cluster : Cluster) (worker : Nat) (name : String) : Option Row :=
  (cluster.workers worker).l1.find name

theorem Hash.isPinActive_antitone (hash : Hash) {earlier later : Time} (le : earlier ≤ later)
    (active : hash.isPinActive later = true) : hash.isPinActive earlier = true := by
  unfold isPinActive pinActive at active ⊢
  split at active
  · simp at active
  · rename_i flagged
    rw [if_neg flagged]
    cases expiry : hash.manualOverrideExpiresAt.get with
    | none => rfl
    | some =>
      simp only [expiry, decide_eq_true_eq] at active ⊢
      exact Int.lt_of_le_of_lt le active

theorem Hash.isPinActive_toData (hash : Hash) (name : String) (now : Time) :
    (hash.toData name).isPinActive now = hash.isPinActive now := by
  unfold CircuitBreakerStateData.isPinActive manualPinIsActive isPinActive pinActive toData
  cases hash.manuallyControlled with
  | none => rfl
  | some flagged =>
    cases flagged with
    | false => rfl
    | true => cases hash.manualOverrideExpiresAt.get <;> rfl

theorem isPinActive_empty (now : Time) : ({} : Hash).isPinActive now = false := by
  rfl

structure Rests (worker : Nat) (before after : Cluster) : Prop where
  clock : before.clock ≤ after.clock
  l1 : (after.workers worker).l1 = (before.workers worker).l1
  keys : after.keys = before.keys

structure Spares (worker : Nat) (name : String) (before after : Cluster) : Prop where
  clock : before.clock ≤ after.clock
  l1 : (after.workers worker).l1 = (before.workers worker).l1
  others : ∀ other, other ≠ name → after.keys other = before.keys other
  pinned : (before.keys name).isPinActive after.clock = true → after.keys name = before.keys name

section

variable {worker : Nat} {name : String} {first second third : Cluster}

theorem Rests.refl (cluster : Cluster) : Rests worker cluster cluster := by
  exact ⟨Int.le_refl _, rfl, rfl⟩

theorem Rests.trans (before : Rests worker first second) (after : Rests worker second third) :
    Rests worker first third := by
  exact ⟨Int.le_trans before.clock after.clock, after.l1.trans before.l1, after.keys.trans before.keys⟩

theorem Rests.spares (rests : Rests worker first second) : Spares worker name first second := by
  exact ⟨rests.clock, rests.l1, fun other _ => congrFun rests.keys other, fun _ => congrFun rests.keys name⟩

theorem Spares.trans (before : Spares worker name first second) (after : Spares worker name second third) :
    Spares worker name first third := by
  refine ⟨Int.le_trans before.clock after.clock, after.l1.trans before.l1, ?_, fun active => ?_⟩
  · intro other apart
    rw [after.others other apart, before.others other apart]
  · have same := before.pinned (Hash.isPinActive_antitone _ after.clock active)
    rw [← same] at active ⊢
    exact after.pinned active

theorem Rests.of_drifts (drifts : Drifts first second) : Rests worker first second := by
  obtain ⟨clock, link, le, rfl⟩ := drifts
  exact ⟨le, rfl, rfl⟩

theorem keys_send (command : RedisCommand) (link : Link) (keys : Keyspace) :
    (command.send link keys).1 = (command.exec keys).1 ∨ (command.send link keys).1 = keys := by
  cases link with
  | answering | late => exact .inl rfl
  | broken => exact .inr rfl

theorem send_hgetall (name : String) (link : Link) (keys : Keyspace) :
    ((hgetall name).send link keys).1 = keys ∧
      ∀ hash : Hash, ((hgetall name).send link keys).2 = .answered hash → hash = keys name := by
  have same : update keys name (keys name) = keys := update_eq_self ..
  cases link with
  | answering => exact ⟨same, fun hash found => (Reply.answered.inj found).symm⟩
  | late => exact ⟨same, fun hash found => nomatch found⟩
  | broken => exact ⟨rfl, fun hash found => nomatch found⟩

theorem spares_command (lane : Lane) (command : RedisCommand) (cluster : Cluster)
    (kept : (cluster.keys command.serviceName).isPinActive cluster.clock = true →
      (command.onHash (cluster.keys command.serviceName)).1 = cluster.keys command.serviceName) :
    Spares worker command.serviceName cluster (execAs worker (.l2 lane command) cluster).1 := by
  have sent := keys_send command cluster.link cluster.keys
  refine ⟨Int.le_refl _, rfl, fun other apart => ?_, fun active => ?_⟩
  · change (command.send cluster.link cluster.keys).1 other = cluster.keys other
    rcases sent with written | unsent
    · rw [written]
      exact update_of_ne apart ..
    · rw [unsent]
  · change (command.send cluster.link cluster.keys).1 command.serviceName = _
    rcases sent with written | unsent
    · rw [written]
      exact (update_self ..).trans (kept active)
    · rw [unsent]

end

section

variable {worker : Nat} {before : Cluster} {α : Type}

abbrev Resting (worker : Nat) (program : LayeredProg α) (before : Cluster) : Prop :=
  Leaves worker program before fun _ after => Rests worker before after

abbrev Sparing (worker : Nat) (name : String) (program : LayeredProg α) (before : Cluster) : Prop :=
  Leaves worker program before fun _ after => Spares worker name before after

theorem rests_inside (call : LocalCall) (still : ∀ now state, (call.exec now state).1.l1 = state.l1) :
    Resting worker (inside call) before := by
  refine ensures_perform fun during drifts => (Rests.of_drifts drifts).trans ⟨Int.le_refl _, ?_, rfl⟩
  exact (congrArg Worker.l1 (update_self ..)).trans (still _ _)

theorem rests_now : Leaves worker now before fun instant after =>
      instant ≤ after.clock ∧ Rests worker before after := by
  refine ensures_perform fun during drifts => ?_
  exact ⟨Int.le_refl _, Rests.of_drifts drifts⟩

variable (lane : Lane)

theorem rests_getState (name : String) : Leaves worker (getState lane name) before fun reply after =>
      Rests worker before after ∧ ∀ existing, reply = .answered existing →
        existing = if before.keys name = {} then none else some ((before.keys name).toData name) := by
  have asked : Leaves worker (l2 lane (.hgetall name)) before fun reply after =>
      Rests worker before after ∧ ∀ hash : Hash, reply = .answered hash → hash = before.keys name := by
    refine ensures_perform fun during drifts => ?_
    have rests : Rests worker before during := Rests.of_drifts drifts
    obtain ⟨unread, answers⟩ := send_hgetall name during.link during.keys
    refine ⟨rests.trans ⟨Int.le_refl _, rfl, unread⟩, fun hash same => ?_⟩
    rw [answers hash same, rests.keys]
  refine asked.bind fun reply during ⟨rests, found⟩ => ?_
  cases reply with
  | answered hash =>
    obtain rfl : hash = before.keys name := found hash rfl
    refine ensures_ret ⟨rests, fun existing same => ?_⟩
    exact (Reply.answered.inj same).symm
  | timedOut | raised => exact ensures_ret ⟨rests, by simp⟩

theorem spares_l2 (command : RedisCommand)
    (kept : ∀ later, before.clock ≤ later → (before.keys command.serviceName).isPinActive later = true →
      (command.onHash (before.keys command.serviceName)).1 = before.keys command.serviceName) :
    Sparing worker command.serviceName (l2 lane command) before := by
  refine ensures_perform fun during drifts => ?_
  have rests : Rests worker before during := Rests.of_drifts drifts
  refine rests.spares.trans (spares_command lane command during fun active => ?_)
  rw [rests.keys] at active ⊢
  exact kept during.clock rests.clock active

theorem spares_getOrCreate (name : String) : Sparing worker name (getOrCreate lane name) before := by
  refine (rests_getState lane name).bind fun reply during ⟨rests, found⟩ => ?_
  cases reply with
  | timedOut | raised => exact ensures_ret rests.spares
  | answered existing =>
    cases existing with
    | some => exact ensures_ret rests.spares
    | none =>
      -- The row was missing, so the default row lands on no override.
      have missing : before.keys name = {} := by
        have answer := found none rfl
        split at answer
        · assumption
        · simp at answer
      refine rests_now.bind fun instant later ⟨_, waited⟩ => ?_
      have rested := rests.trans waited
      have written : Sparing worker name (l2 lane (.hset name (defaultFields instant))) later := by
        refine spares_l2 lane (.hset name (defaultFields instant)) fun _ _ active => ?_
        rw [rested.keys] at active
        simp only [serviceName, missing, isPinActive_empty, Bool.false_eq_true] at active
      refine written.bind fun reply after spares => ?_
      have whole : Spares worker name before after := rested.spares.trans spares
      cases reply <;> exact ensures_ret whole

theorem rests_declines (update : StateUpdate) :
    Resting worker (declinesClosedWriteOnDegradedBackend update) before := by
  refine ensures_branch ?_ (ensures_ret (Rests.refl before))
  exact rests_inside .l2BackendIsDegraded fun _ _ => rfl

variable {update : StateUpdate}

theorem spares_guardedReadCheckWrite (name : String) (guarded : update.skipIfPinned = true) (stamp : Time) :
    Sparing worker name (guardedReadCheckWrite lane name update stamp) before := by
  refine (rests_declines update).bind fun declines first rested => ?_
  refine ensures_branch (ensures_ret rested.spares) ?_
  refine (rests_getState lane name).bind fun reply second ⟨rests, found⟩ => ?_
  have rested' := rested.trans rests
  cases reply with
  | timedOut | raised => exact ensures_ret rested'.spares
  | answered existing =>
    refine rests_now.bind fun instant third ⟨known, waited⟩ => ?_
    have rested'' := rested'.trans waited
    refine ensures_ite (fun _ => ensures_ret rested''.spares) fun permitted => ?_
    refine (rests_declines update).bind fun declines fourth waited' => ?_
    have idle := rested''.trans waited'
    refine ensures_branch (ensures_ret idle.spares) ?_
    have written : Sparing worker name (l2 lane (.hset name (update.fields stamp))) fourth := by
      refine spares_l2 lane (.hset name (update.fields stamp)) fun later le active => ?_
      -- An override in force now was in force when the row was checked.
      have stored : (before.keys name).isPinActive instant = true := by
        rw [← idle.keys]
        exact Hash.isPinActive_antitone _ (Int.le_trans known (Int.le_trans waited'.clock le)) active
      have present : first.keys name ≠ {} := by
        intro missing
        rw [← rested.keys, missing, isPinActive_empty] at stored
        simp at stored
      rw [found existing rfl, if_neg present] at permitted
      simp [StateUpdate.declinedBy, guarded, Hash.isPinActive_toData, rested.keys, stored] at permitted
    refine written.bind fun reply after spares => ?_
    have whole : Spares worker name before after := idle.spares.trans spares
    cases reply <;> exact ensures_ret whole

theorem spares_writeUnlessPinned (name : String) (guarded : update.skipIfPinned = true) {stamp : Time}
    (taken : stamp ≤ before.clock) :
    Sparing worker name (writeUnlessPinned lane name update stamp) before := by
  refine (rests_declines update).bind fun declines during rested => ?_
  refine ensures_branch (ensures_ret rested.spares) ?_
  have evaluated : Sparing worker name (l2 lane (.evalUpdateState name update.skipIfPinned
      update.keepOpen (update.fields stamp) stamp)) during := by
    refine spares_l2 lane (.evalUpdateState name update.skipIfPinned update.keepOpen
      (update.fields stamp) stamp) fun later le active => ?_
    have earlier : stamp ≤ later := Int.le_trans taken (Int.le_trans rested.clock le)
    have stored : (during.keys name).isPinActive stamp = true :=
      Hash.isPinActive_antitone _ earlier active
    simp [onHash, serviceName, Hash.luaUpdateState, guarded, stored]
  refine evaluated.bind fun reply after spares => ?_
  have whole : Spares worker name before after := rested.spares.trans spares
  cases reply with
  | answered written | timedOut => exact ensures_ret whole
  | raised =>
    exact (spares_guardedReadCheckWrite lane name guarded stamp).mono fun _ _ more => whole.trans more

theorem spares_updateState (name : String) (guarded : update.skipIfPinned = true) :
    Sparing worker name (updateState lane name update) before := by
  refine rests_now.bind fun instant during ⟨taken, rested⟩ => ?_
  refine ensures_ite (fun _ => ?_) fun unguarded => ?_
  · exact (spares_writeUnlessPinned lane name guarded taken).mono fun _ _ spares =>
      rested.spares.trans spares
  · simp [guarded] at unguarded

theorem rests_mirrorSkipped (row : Row) (keepOpen : Bool) :
    Resting worker (mirrorSkippedOnDegradedBackend row keepOpen) before := by
  refine ensures_branch (ensures_ret (Rests.refl before)) ?_
  exact rests_inside .l2BackendIsDegraded fun _ _ => rfl

theorem spares_ensureL2Row (name : String) (row : Row) (keepOpen : Bool) :
    Sparing worker name (ensureL2RowForMirror lane name row keepOpen) before := by
  have creates : ∀ start, Leaves worker
      (do onAnswer (← getOrCreate lane name) fun _ => return .answered true) start
      fun _ after => Spares worker name start after := by
    intro start
    refine (spares_getOrCreate lane name).bind fun reply after spares => ?_
    cases reply <;> exact ensures_ret spares
  refine ensures_branch (creates before) ?_
  refine (rests_getState lane name).bind fun reply during ⟨rests, _⟩ => ?_
  cases reply with
  | timedOut | raised => exact ensures_ret rests.spares
  | answered existing =>
    cases existing with
    | some => exact ensures_ret rests.spares
    | none =>
      refine (rests_mirrorSkipped row keepOpen).bind fun skipped later rested => ?_
      have idle := rests.trans rested
      refine ensures_branch (ensures_ret idle.spares) ?_
      exact (creates later).mono fun _ _ spares => idle.spares.trans spares

theorem spares_syncToL2 (name : String) (row : Row) (keepOpen : Bool) :
    Sparing worker name (syncToL2 lane name row true keepOpen) before := by
  have failed : ∀ {middle : Cluster}, Spares worker name before middle →
      Leaves worker (do inside .handleL2Failure; return some false : LayeredProg (Option Bool))
        middle fun _ after => Spares worker name before after := by
    intro middle spares
    refine (rests_inside .handleL2Failure ?_).bind fun _ after rested => ?_
    · intro now state
      simp only [LocalCall.exec, Worker.handleL2Failure]
      split <;> rfl
    · exact ensures_ret (spares.trans rested.spares)
  refine (rests_mirrorSkipped row keepOpen).bind fun skipped during rested => ?_
  refine ensures_branch (ensures_ret rested.spares) ?_
  refine (spares_ensureL2Row lane name row keepOpen).bind fun reply middle spares => ?_
  have whole : Spares worker name before middle := rested.spares.trans spares
  cases reply with
  | timedOut | raised => exact failed whole
  | answered present =>
    cases present with
    | false => exact ensures_ret whole
    | true =>
      refine (spares_updateState lane name rfl).bind fun reply later more => ?_
      have more' := whole.trans more
      cases reply with
      | timedOut | raised => exact failed more'
      | answered =>
        refine (rests_inside .handleL2Success fun _ _ => rfl).bind fun _ after rested' => ?_
        exact ensures_ret (more'.trans rested'.spares)

theorem spares_repairRow (name : String) : Sparing worker name (repairRowToL2 lane name) before := by
  have resolved : Resting worker (resolveRepairRow lane name) before := by
    refine (rests_inside (.repairRead lane name) fun _ _ => rfl).bind fun found during rested => ?_
    cases found with
    | none => exact ensures_ret rested
    | some =>
      refine rests_now.bind fun instant after ⟨_, waited⟩ => ?_
      exact ensures_ret (rested.trans waited)
  refine resolved.bind fun found during rested => ?_
  cases found with
  | none => exact ensures_ret rested.spares
  | some row =>
    exact (spares_syncToL2 lane name row true).mono fun _ _ spares => rested.spares.trans spares

end

def l1IsNewer (row remote : Row) : Bool :=
  match row.updatedAt, remote.updatedAt with
  | some l1At, some l2At => l2At < l1At
  | some _, none => true
  | none, some _ => false
  | none, none => remote.state ≠ .halfOpen

theorem resolveHalfOpenXor_l1 (row remote : Row) :
    resolveHalfOpenXor row.state remote.state row.updatedAt remote.updatedAt =
      if l1IsNewer row remote then (row.state, .timestampHalfOpenL1)
      else (remote.state, .timestampHalfOpenL2) := by
  unfold resolveHalfOpenXor l1IsNewer
  cases row.updatedAt with
  | none =>
    cases remote.updatedAt with
    | none => by_cases trial : remote.state = .halfOpen <;> simp [trial]
    | some => rfl
  | some =>
    cases remote.updatedAt with
    | none => rfl
    | some => simp only [decide_eq_true_eq]

variable {remote : Row}

theorem resolveDrift_same (same : row.state = remote.state) : resolveDrift row remote = (row.state, .noDrift) := by
  exact if_pos same

theorem resolveDrift_xor
    (one : xor (decide (row.state = .halfOpen)) (decide (remote.state = .halfOpen)) = true) :
    resolveDrift row remote =
      if l1IsNewer row remote then (row.state, .timestampHalfOpenL1)
      else (remote.state, .timestampHalfOpenL2) := by
  have apart : row.state ≠ remote.state := by
    intro same
    rw [same] at one
    simp at one
  unfold resolveDrift reconcile
  rw [if_neg apart, if_pos one, resolveHalfOpenXor_l1]

theorem resolveDrift_priority (apart : row.state ≠ remote.state)
    (both : xor (decide (row.state = .halfOpen)) (decide (remote.state = .halfOpen)) = false) :
    (row.state = .opened ∧ remote.state = .closed ∧ resolveDrift row remote = (.opened, .l1Wins)) ∨
      (row.state = .closed ∧ remote.state = .opened ∧ resolveDrift row remote = (.opened, .l2Wins)) := by
  unfold resolveDrift reconcile
  cases l1 : row.state <;> cases l2 : remote.state <;> simp_all [statePriority]

theorem resolveDrift_noDrift (agreed : (resolveDrift row remote).2 = .noDrift) : row.state = remote.state := by
  by_contra apart
  cases one : xor (decide (row.state = .halfOpen)) (decide (remote.state = .halfOpen)) with
  | true =>
    rw [resolveDrift_xor one] at agreed
    split at agreed <;> simp at agreed
  | false =>
    rcases resolveDrift_priority apart one with ⟨_, _, verdict⟩ | ⟨_, _, verdict⟩
    · simp [verdict] at agreed
    · simp [verdict] at agreed

def copiesDown (row : Row) (hash : Hash) : Bool :=
  let remote := hash.toData row.serviceName
  hash ≠ {} && (Layered.resolveDrift row remote).2 ≠ .noDrift &&
    !(Layered.resolveDrift row remote).2.routesToL1Repair remote

theorem copiesDown_of {hash : Hash} (stored : hash ≠ {})
    (drift : (resolveDrift row (hash.toData row.serviceName)).2 ≠ .noDrift)
    (routes : ¬(resolveDrift row (hash.toData row.serviceName)).2.routesToL1Repair
      (hash.toData row.serviceName) = true) : copiesDown row hash = true := by
  simp [copiesDown, stored, drift, routes]

structure Round (worker : Nat) (row : Row) (before after : Cluster) : Prop where
  clock : before.clock ≤ after.clock
  keys : ∀ other, other ≠ row.serviceName → after.keys other = before.keys other
  pinned : (before.keys row.serviceName).isPinActive after.clock = true →
    after.keys row.serviceName = before.keys row.serviceName
  l1 : ∀ other, other ≠ row.serviceName → after.l1Row worker other = before.l1Row worker other
  kept : copiesDown row (before.keys row.serviceName) = false →
    after.l1Row worker row.serviceName = before.l1Row worker row.serviceName

section

variable {after : Cluster} {worker : Nat} {before : Cluster}

theorem Spares.round (spares : Spares worker row.serviceName before after) : Round worker row before after := by
  have same : ∀ other, after.l1Row worker other = before.l1Row worker other := by
    intro other
    rw [l1Row, l1Row, spares.l1]
  exact ⟨spares.clock, spares.others, spares.pinned, fun other _ => same other, fun _ => same _⟩

def copyUpdate (remote : Row) : StateUpdate where
  state := remote.state
  failureCount := some remote.failureCount
  successCount := some remote.successCount
  openedAt := remote.openedAt

theorem leaves_copyToL1 (remote : Row) : Leaves worker (copyToL1 remote) before fun _ after =>
      before.clock ≤ after.clock ∧ after.keys = before.keys ∧
        ∃ instant, ∀ other, after.l1Row worker other =
          if remote.serviceName = other then
            (before.l1Row worker other).map fun row => (row.updateState (copyUpdate remote) instant).1
          else before.l1Row worker other := by
  refine ensures_perform fun during drifts => ?_
  have rests : Rests worker before during := Rests.of_drifts drifts
  refine ⟨rests.clock, rests.keys, during.clock, fun other => ?_⟩
  have written : ((execAs worker (.inside (.l1 (.repo (.updateState remote.serviceName
      (copyUpdate remote))))) during).1.workers worker).l1 =
        (InMemory.onStored (during.workers worker).l1 remote.serviceName false
          (·.updateState (copyUpdate remote) during.clock)).1 := by
    simp only [execAs, LayeredCall.exec, update_self]
    rfl
  have found := InMemory.find_onStored (during.workers worker).l1 remote.serviceName other false
    (·.updateState (copyUpdate remote) during.clock)
    (fun row => row.serviceName_updateState during.clock (copyUpdate remote))
  rw [← written, rests.l1] at found
  refine found.trans ?_
  split
  · rename_i same
    rw [same]
    rfl
  · rfl

theorem Rests.l1Row (rests : Rests worker before after) (name : String) :
    after.l1Row worker name = before.l1Row worker name := by
  exact congrArg (Table.find · name) rests.l1

theorem rests_l1Read (call : RepoCall) (cluster : Cluster)
    (reads : (InMemory.exec cluster.clock (cluster.workers worker).l1 call).1 = (cluster.workers worker).l1) :
    Rests worker cluster (execAs worker (.inside (.l1 (.repo call))) cluster).1 := by
  refine ⟨Int.le_refl _, ?_, rfl⟩
  simp only [execAs, LayeredCall.exec, update_self]
  exact reads

section

variable {α : Type} {row : Row} {during : Cluster}

variable (rests : Rests worker before during)

include rests

theorem round_repair (result : α) :
    Leaves worker (do let _ ← repairRowToL2 .repair row.serviceName; return result) during
      fun _ after => Round worker row before after := by
  refine (spares_repairRow .repair row.serviceName).bind fun _ after spares => ?_
  exact ensures_ret (rests.spares.trans spares).round

theorem round_copy (down : copiesDown row (before.keys row.serviceName) = true) (result : α) :
    Leaves worker
      (do let _ ← copyToL1 ((before.keys row.serviceName).toData row.serviceName); return result)
      during fun _ after => Round worker row before after := by
  refine (leaves_copyToL1 _).bind fun _ after ⟨clock, keys, instant, copied⟩ => ?_
  have sameKeys := keys.trans rests.keys
  refine ensures_ret ⟨Int.le_trans rests.clock clock, fun other _ => congrFun sameKeys other,
    fun _ => congrFun sameKeys _, fun other apart => ?_, fun unmoved => ?_⟩
  · rw [copied other, if_neg fun same => apart same.symm]
    exact rests.l1Row other
  · rw [down] at unmoved
    simp at unmoved

theorem copied_down (present : before.l1Row worker row.serviceName = some row) (result : α) :
    Leaves worker
      (do let _ ← copyToL1 ((before.keys row.serviceName).toData row.serviceName); return result)
      during fun _ after => after.keys = before.keys ∧
        ∃ kept, after.l1Row worker row.serviceName = some kept ∧
          kept.state = ((before.keys row.serviceName).toData row.serviceName).state := by
  refine (leaves_copyToL1 _).bind fun _ after ⟨_, keys, instant, copied⟩ => ?_
  have named : ((before.keys row.serviceName).toData row.serviceName).serviceName = row.serviceName := rfl
  have moved := copied row.serviceName
  rw [if_pos named, rests.l1Row, present] at moved
  exact ensures_ret ⟨keys.trans rests.keys, _, moved, rfl⟩

end

theorem round_reconcileRow (report : DriftReport) (row : Row) :
    Leaves worker (reconcileRow report row) before fun _ after =>
      Round worker row before after := by
  refine (rests_getState .read row.serviceName).bind fun reply during ⟨rests, found⟩ => ?_
  cases reply with
  | timedOut | raised => exact ensures_ret rests.spares.round
  | answered existing =>
    rw [found existing rfl]
    by_cases missing : before.keys row.serviceName = {}
    · rw [if_pos missing]
      exact round_repair rests _
    · rw [if_neg missing]
      refine ensures_ite (fun _ => ensures_ret rests.spares.round) fun drift => ?_
      refine ensures_ite (fun _ => round_repair rests _) fun routes => ?_
      exact round_copy rests (copiesDown_of missing drift routes) _

theorem round_reconcileSingle (stored : before.l1Row worker name = some row) :
    Leaves worker (reconcileSingleService name) before fun _ after =>
      Round worker row before after := by
  obtain rfl : row.serviceName = name := Table.key_of_find stored
  have looked : Leaves worker (l1 (.getByServiceName row.serviceName)) before
      fun found after => found = some row ∧ Rests worker before after := by
    refine ensures_perform fun during drifted => ?_
    have rests : Rests worker before during := Rests.of_drifts drifted
    exact ⟨(rests.l1Row row.serviceName).trans stored,
      rests.trans (rests_l1Read (.getByServiceName row.serviceName) during rfl)⟩
  refine looked.bind fun _ first ⟨all, rested⟩ => ?_
  subst all
  refine (rests_getState .read row.serviceName).bind fun reply during ⟨waited, found⟩ => ?_
  have rests := rested.trans waited
  rw [rested.keys] at found
  cases reply with
  | timedOut | raised => exact ensures_ret rests.spares.round
  | answered existing =>
    rw [found existing rfl]
    by_cases missing : before.keys row.serviceName = {}
    · rw [if_pos missing]
      exact round_repair rests _
    · rw [if_neg missing]
      refine ensures_ite (fun _ => ensures_ret rests.spares.round) fun drift => ?_
      refine ensures_ite (fun _ => round_repair rests _) fun routes => ?_
      exact round_copy rests (copiesDown_of missing drift routes) _

end

section

variable {worker : Nat} {before : Cluster} {drift : Cluster → Cluster → Prop}

theorem ensures_pass (inv : Cluster → Prop) (post : Option Row → Hash → Prop)
    (within : ∀ before after, drift before after → Drifts before after)
    (drifts : ∀ before after, inv before → drift before after → inv after)
    (calls : ∀ call cluster, inv cluster → inv (execAs worker call cluster).1)
    (found : before.l1Row worker name = some row)
    (holds : inv before)
    (own : ∀ report during, inv during → during.l1Row worker name = some row →
      during.keys name = before.keys name →
      Ensures (execAs worker) drift (reconcileRow report row) during fun _ after =>
        post (after.l1Row worker name) (after.keys name)) :
    Ensures (execAs worker) drift reconcileAllDrift before fun _ after =>
      post (after.l1Row worker name) (after.keys name) := by
  have listed : Ensures (execAs worker) drift (l1 .getAllStates) before fun rows during =>
      rows = (before.workers worker).l1.entries ∧ inv during ∧
        during.l1Row worker name = some row ∧ during.keys name = before.keys name := by
    refine ensures_perform fun during drifted => ?_
    have rests : Rests worker before during := Rests.of_drifts (within _ _ drifted)
    have reads := rests.trans (rests_l1Read .getAllStates during rfl)
    refine ⟨congrArg Table.entries rests.l1, calls _ _ (drifts _ _ holds drifted), ?_, congrFun reads.keys name⟩
    rw [reads.l1Row, found]
  refine listed.bind fun rows during ⟨all, holds', present, stored⟩ => ?_
  subst all
  obtain ⟨firsts, lasts, split, early, late⟩ := Table.entries_split found
  rw [split]
  have frame : ∀ (report : DriftReport) (other : Row) (start : Cluster),
      inv start → Ensures (execAs worker) drift (reconcileRow report other) start fun _ after =>
        Round worker other start after ∧ inv after := by
    intro report other start begins
    exact ((round_reconcileRow report other).within within).and (ensures_invariant drifts calls _ begins)
  have whole : Ensures (execAs worker) drift
      ((firsts ++ row :: lasts).foldlM reconcileRow
        { totalChecked := (firsts ++ row :: lasts).length }) during fun _ after =>
      inv after ∧ post (after.l1Row worker name) (after.keys name) := by
    refine Prog.ensures_foldlM_once
      (fun state => inv state ∧ state.l1Row worker name = some row ∧ state.keys name = before.keys name)
      (fun state => inv state ∧ post (state.l1Row worker name) (state.keys name))
      ?_ ?_ ?_ _ ⟨holds', present, stored⟩
    · intro report other start member ⟨begins, present, stored⟩
      refine (frame report other start begins).mono fun _ after ⟨round, ends⟩ => ?_
      have apart : name ≠ other.serviceName := fun same => early other member same.symm
      exact ⟨ends, (round.l1 name apart).trans present, (round.keys name apart).trans stored⟩
    · intro report start ⟨begins, present, stored⟩
      exact (ensures_invariant drifts calls _ begins).and (own report start begins present stored)
    · intro report other start member ⟨begins, established⟩
      refine (frame report other start begins).mono fun _ after ⟨round, ends⟩ => ?_
      have apart : name ≠ other.serviceName := fun same => late other member same.symm
      rw [round.l1 name apart, round.keys name apart]
      exact ⟨ends, established⟩
  exact whole.mono fun _ _ kept => kept.2

end

def Cluster.Advances (before after : Cluster) : Prop :=
  ∃ clock, before.clock ≤ clock ∧ after = { before with clock := clock }

abbrev Answered {α : Type} (worker : Nat) (program : LayeredProg α) (before : Cluster)
    (post : α → Cluster → Prop) : Prop :=
  Ensures (execAs worker) Cluster.Advances program before post

theorem Cluster.Advances.refl (cluster : Cluster) : cluster.Advances cluster := by
  exact ⟨cluster.clock, Int.le_refl _, rfl⟩

theorem Cluster.Advances.drifts (before after : Cluster) (advances : before.Advances after) : before.Drifts after := by
  obtain ⟨clock, le, rfl⟩ := advances
  exact ⟨clock, before.link, le, rfl⟩

section

variable {worker : Nat} {before : Cluster}

theorem link_advances (before after : Cluster) (link : before.link = .answering)
    (advances : before.Advances after) : after.link = .answering := by
  obtain ⟨clock, le, rfl⟩ := advances
  exact link

theorem link_execAs (call : LayeredCall) (cluster : Cluster) (link : cluster.link = .answering) :
    (execAs worker call cluster).1.link = .answering := by
  cases call <;> exact link

theorem answered_getState (link : before.link = .answering) (lane : Lane) (name : String) :
    Answered worker (getState lane name) before fun reply after =>
      Rests worker before after ∧ after.link = .answering ∧
        reply = .answered (if before.keys name = {} then none else some ((before.keys name).toData name)) := by
  have asked : Answered worker (l2 lane (.hgetall name)) before fun reply _ =>
      reply = .answered (before.keys name) := by
    refine ensures_perform fun during advances => ?_
    obtain ⟨clock, le, rfl⟩ := advances
    simp only [execAs, LayeredCall.exec, send, link]
    rfl
  have replied : Answered worker (getState lane name) before fun reply _ =>
      reply = .answered (if before.keys name = {} then none else some ((before.keys name).toData name)) := by
    refine asked.bind fun reply during answer => ?_
    subst answer
    exact ensures_ret rfl
  have rested : Answered worker (getState lane name) before fun _ after =>
      Rests worker before after :=
    ((rests_getState lane name).mono fun _ _ rests => rests.1).within Advances.drifts
  have linked : Answered worker (getState lane name) before fun _ after =>
      after.link = .answering := ensures_invariant link_advances link_execAs _ link
  exact ((rested.and linked).and replied).mono fun _ _ kept => ⟨kept.1.1, kept.1.2, kept.2⟩

end

end Baldur.CircuitBreaker
