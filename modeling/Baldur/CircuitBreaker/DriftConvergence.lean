import Baldur.CircuitBreaker.DriftFrame

/-!
Drift passes. Over a store that answers, a round leaves the resolver's winner on both sides unless it is an L1
row that the repair may not write; that repair looks at the override on both sides, the copy into L1 at none.
-/

namespace Baldur.CircuitBreaker

open Prog Cluster DriftReconciliationResult Layered LayeredCall LocalCall Redis Table

variable {α : Type} {hash : Hash} {row : Row} {worker : Nat} {name : String}

structure Serving (worker : Nat) (cluster : Cluster) : Prop where
  link : cluster.link = .answering
  backend : (cluster.workers worker).l2BackendIsDegraded = false

theorem backend_exec (now : Time) (state : Worker) (call : LocalCall) :
    (call.exec now state).1.l2BackendIsDegraded = state.l2BackendIsDegraded := by
  cases call with
  | handleL2Failure | mirrorEnqueue | mirrorRelease | reserveConvergence =>
    simp only [LocalCall.exec, Worker.handleL2Failure, Worker.mirrorEnqueue, Worker.mirrorRelease]
    split <;> rfl
  | _ => rfl

section

variable {worker : Nat} {before : Cluster}

theorem serving_advances (before after : Cluster) (serving : Serving worker before)
    (advances : before.Advances after) : Serving worker after := by
  obtain ⟨clock, le, rfl⟩ := advances
  exact ⟨serving.link, serving.backend⟩

theorem serving_execAs (call : LayeredCall) (cluster : Cluster) (serving : Serving worker cluster) :
    Serving worker (execAs worker call cluster).1 := by
  refine ⟨link_execAs call cluster serving.link, ?_⟩
  cases call with
  | inside =>
    simp only [execAs, LayeredCall.exec, Function.update_self]
    rw [backend_exec, serving.backend]
  | _ => exact serving.backend

theorem Serving.keeps {program : LayeredProg α} {post : α → Cluster → Prop}
    (serving : Serving worker before) (ensures : Answered worker program before post) :
    Answered worker program before fun value after => post value after ∧ Serving worker after := by
  exact ensures.and (ensures_invariant serving_advances serving_execAs program serving)

theorem answers_l2 (serving : Serving worker before) (lane : Lane) (command : RedisCommand) :
    Answered worker (l2 lane command) before fun reply after =>
      reply = .answered (command.onHash (before.keys command.serviceName)).2 ∧
        after.keys command.serviceName = (command.onHash (before.keys command.serviceName)).1 ∧
        before.clock ≤ after.clock := by
  refine ensures_perform fun during advances => ?_
  obtain ⟨clock, le, rfl⟩ := advances
  simp only [execAs, LayeredCall.exec, RedisCommand.send, serving.link]
  exact ⟨rfl, Function.update_self .., le⟩

theorem answers_degraded (serving : Serving worker before) :
    Answered worker (inside .l2BackendIsDegraded) before fun degraded _ =>
      degraded = false := by
  refine ensures_perform fun during advances => ?_
  exact (serving_advances _ _ serving advances).backend

theorem answers_now : Answered worker now before fun instant after =>
      instant = after.clock ∧ Rests worker before after := by
  refine ensures_perform fun during advances => ?_
  exact ⟨rfl, Rests.of_drifts (advances.drifts _ _)⟩

theorem answers_mirrorSkipped (serving : Serving worker before) (row : Row) (keepOpen : Bool) :
    Answered worker (mirrorSkippedOnDegradedBackend row keepOpen) before fun skipped after =>
      skipped = false ∧ Rests worker before after := by
  have stands : Answered worker (mirrorSkippedOnDegradedBackend row keepOpen) before
      fun skipped _ => skipped = false := by
    exact ensures_branch (ensures_ret rfl) (answers_degraded serving)
  exact stands.and ((rests_mirrorSkipped row keepOpen).within Advances.drifts)

theorem answers_declines (serving : Serving worker before) (update : StateUpdate) :
    Answered worker (declinesClosedWriteOnDegradedBackend update) before fun declines after =>
      declines = false ∧ Rests worker before after := by
  have goes : Answered worker (declinesClosedWriteOnDegradedBackend update) before
      fun declines _ => declines = false := by
    exact ensures_branch (answers_degraded serving) (ensures_ret rfl)
  exact goes.and ((rests_declines update).within Advances.drifts)

end

theorem hset_ne_empty (hash : Hash) {update : HashUpdate} {state : CircuitState}
    (sets : update.state = some state) : hash.hset update ≠ {} := by
  intro empty
  have absent : (hash.hset update).state = none := by rw [empty]
  simp [Hash.hset, sets] at absent

structure Prepared (name : String) (before after : Cluster) : Prop where
  stored : after.keys name ≠ {}
  state : ((after.keys name).toData name).state = ((before.keys name).toData name).state
  lapsed : (before.keys name).isPinActive before.clock = false → (after.keys name).isPinActive after.clock = false

section

variable {after : Cluster} {worker : Nat} {name : String} {before : Cluster}

theorem Rests.lapsed (rests : Rests worker before after)
    (lapsed : (before.keys name).isPinActive before.clock = false) :
    (after.keys name).isPinActive after.clock = false := by
  by_contra active
  rw [rests.keys] at active
  have earlier := Hash.isPinActive_antitone _ rests.clock (Bool.of_not_eq_false active)
  rw [lapsed] at earlier
  exact Bool.false_ne_true earlier

theorem Rests.prepared (rests : Rests worker before after)
    (stored : before.keys name ≠ {}) : Prepared name before after := by
  refine ⟨?_, ?_, rests.lapsed⟩
  · rw [rests.keys]
    exact stored
  · rw [rests.keys]

theorem Rests.before_prepared {middle : Cluster} (rests : Rests worker before middle)
    (prepared : Prepared name middle after) : Prepared name before after := by
  refine ⟨prepared.stored, ?_, fun lapsed => prepared.lapsed (rests.lapsed lapsed)⟩
  rw [prepared.state, rests.keys]

theorem answers_getOrCreate (serving : Serving worker before) (lane : Lane) :
    Answered worker (getOrCreate lane name) before fun reply after =>
      (∃ row, reply = .answered row) ∧ Prepared name before after := by
  refine (serving.keeps (answered_getState serving.link lane name)).bind
    fun reply during ⟨⟨rests, _, answer⟩, served⟩ => ?_
  subst answer
  by_cases missing : before.keys name = {}
  · rw [if_pos missing]
    refine (served.keeps answers_now).bind fun instant later ⟨⟨_, waited⟩, served'⟩ => ?_
    have rested := rests.trans waited
    refine (answers_l2 served' lane (.hset name (defaultFields instant))).bind
      fun reply after ⟨answer, written, _⟩ => ?_
    subst answer
    have created : after.keys name = ({} : Hash).hset (defaultFields instant) := by
      rw [← missing, ← rested.keys]
      exact written
    refine ensures_ret ⟨⟨_, rfl⟩, ?_, ?_, fun _ => ?_⟩
    · rw [created]
      exact hset_ne_empty {} rfl
    · rw [created, missing]
      rfl
    · rw [created]
      rfl
  · rw [if_neg missing]
    exact ensures_ret ⟨⟨_, rfl⟩, rests.prepared missing⟩

theorem answers_ensureL2Row (serving : Serving worker before) (lane : Lane) (row : Row) :
    Answered worker (ensureL2RowForMirror lane name row true) before fun reply after =>
      reply = .answered true ∧ Prepared name before after := by
  have creates : ∀ start, Serving worker start → Answered worker
      (do onAnswer (← getOrCreate lane name) fun _ => return .answered true) start
      fun reply after => reply = .answered true ∧ Prepared name start after := by
    intro start served
    refine (answers_getOrCreate served lane).bind fun reply after ⟨⟨found, answer⟩, prepared⟩ => ?_
    subst answer
    exact ensures_ret ⟨rfl, prepared⟩
  refine ensures_branch (creates before serving) ?_
  refine (serving.keeps (answered_getState serving.link lane name)).bind
    fun reply during ⟨⟨rests, _, answer⟩, served⟩ => ?_
  subst answer
  by_cases missing : before.keys name = {}
  · rw [if_pos missing]
    refine (served.keeps (answers_mirrorSkipped served row true)).bind
      fun skipped later ⟨⟨stands, waited⟩, served'⟩ => ?_
    subst stands
    exact (creates later served').mono fun _ _ ⟨answer, prepared⟩ =>
      ⟨answer, (rests.trans waited).before_prepared prepared⟩
  · rw [if_neg missing]
    exact ensures_ret ⟨rfl, rests.prepared missing⟩

end

theorem CircuitBreakerStateData.lapsed_later (row : Row) {earlier later : Time}
    (le : earlier ≤ later) (lapsed : row.isPinActive earlier = false) : row.isPinActive later = false := by
  unfold isPinActive manualPinIsActive at lapsed ⊢
  cases flagged : row.manuallyControlled with
  | false => rfl
  | true =>
    cases expiry : row.manualOverrideExpiresAt with
    | none => simp [flagged, expiry] at lapsed
    | some =>
      simp only [flagged, expiry, Bool.true_and, decide_eq_false_iff_not, Int.not_lt] at lapsed ⊢
      exact Int.le_trans lapsed le

theorem luaUpdateState_lapsed {now : Time} (lapsed : hash.isPinActive now = false) (update : HashUpdate) :
    (hash.luaUpdateState true true update now).1 =
      if hash.state.getD .closed = .closed then hash.hset update else hash := by
  unfold Hash.luaUpdateState
  rw [lapsed]
  cases hash.state with
  | none => rfl
  | some state => cases state <;> rfl

def mirroredState (stored state : CircuitState) : CircuitState :=
  if stored = .closed then state else stored

def Mirrors (name : String) (state : CircuitState) (before after : Cluster) : Prop :=
  after.keys name ≠ {} ∧
    ((after.keys name).toData name).state = mirroredState ((before.keys name).toData name).state state

section

variable {worker : Nat} {name : String} {before : Cluster}

variable (serving : Serving worker before)

include serving

theorem answers_updateState (lane : Lane) {update : StateUpdate}
    (guardPin : update.skipIfPinned = true) (guardKeepOpen : update.keepOpen = true)
    (stored : before.keys name ≠ {}) (lapsed : (before.keys name).isPinActive before.clock = false) :
    Answered worker (updateState lane name update) before fun reply after =>
      reply = .answered true ∧ Mirrors name update.state before after := by
  refine (serving.keeps answers_now).bind fun instant first ⟨⟨taken, waited⟩, served⟩ => ?_
  refine ensures_ite (fun _ => ?_) fun unguarded => absurd guardPin (by simp_all)
  refine (served.keeps (answers_declines served update)).bind fun declines second ⟨⟨goes, waited'⟩, served'⟩ => ?_
  subst goes
  have rests := waited.trans waited'
  rw [guardPin, guardKeepOpen]
  refine (answers_l2 served' lane (.evalUpdateState name true true (update.fields instant) instant)).bind
    fun reply after ⟨answer, written, _⟩ => ?_
  subst answer
  have still : (before.keys name).isPinActive instant = false := by
    rw [taken, ← waited.keys]
    exact waited.lapsed lapsed
  have moved : after.keys name = if (before.keys name).state.getD .closed = .closed then
      (before.keys name).hset (update.fields instant) else before.keys name := by
    rw [← luaUpdateState_lapsed still, ← rests.keys]
    exact written
  refine ensures_ret ⟨rfl, ?_⟩
  unfold Mirrors mirroredState
  rw [moved]
  by_cases shut : (before.keys name).state.getD .closed = .closed
  · have shut' : ((before.keys name).toData name).state = .closed := shut
    rw [if_pos shut, if_pos shut']
    exact ⟨hset_ne_empty _ rfl, rfl⟩
  · have shut' : ((before.keys name).toData name).state ≠ .closed := shut
    rw [if_neg shut, if_neg shut']
    exact ⟨stored, rfl⟩

theorem answers_syncToL2 (lane : Lane) (row : Row)
    (lapsed : (before.keys name).isPinActive before.clock = false) :
    Answered worker (syncToL2 lane name row true true) before fun _ after =>
      Mirrors name row.state before after := by
  refine (serving.keeps (answers_mirrorSkipped serving row true)).bind fun skipped first ⟨⟨stands, rests⟩, served⟩ => ?_
  subst stands
  refine (served.keeps (answers_ensureL2Row served lane row)).bind fun reply second ⟨⟨answer, prepared⟩, served'⟩ => ?_
  subst answer
  have ready := rests.before_prepared prepared
  refine (answers_updateState served' lane rfl rfl ready.stored (ready.lapsed lapsed)).bind
    fun reply third ⟨answer, mirrors⟩ => ?_
  subst answer
  have succeeded : Leaves worker (inside .handleL2Success) third fun _ after =>
      Rests worker third after := rests_inside .handleL2Success fun _ _ => rfl
  refine (succeeded.within Advances.drifts).bind fun _ after rested => ensures_ret ?_
  unfold Mirrors at mirrors ⊢
  rw [rested.keys, ← ready.state]
  exact mirrors

theorem answers_repair (lane : Lane)
    (present : before.l1Row worker name = some row) (free : row.isPinActive before.clock = false)
    (lapsed : (before.keys name).isPinActive before.clock = false) :
    Answered worker (Layered.repairRowToL2 lane name) before fun _ after =>
      Mirrors name row.state before after := by
  have read : Answered worker (Layered.inside (.repairRead lane name)) before fun found after =>
      found = some row ∧ Rests worker before after := by
    refine ensures_perform fun during advances => ?_
    have rests : Rests worker before during := Rests.of_drifts (advances.drifts _ _)
    refine ⟨(rests.l1Row name).trans present, rests.trans ⟨Int.le_refl _, ?_, rfl⟩⟩
    simp only [execAs, LayeredCall.exec, Function.update_self]
    rfl
  have resolved : Answered worker (Layered.resolveRepairRow lane name) before fun found after =>
      found = some row ∧ Rests worker before after := by
    refine read.bind fun _ during held => ?_
    obtain ⟨found, rests⟩ := held
    subst found
    refine answers_now.bind fun instant after timed => ?_
    obtain ⟨taken, waited⟩ := timed
    have rested := rests.trans waited
    refine ensures_ret ⟨?_, rested⟩
    rw [row.lapsed_later (taken ▸ rested.clock) free]
    rfl
  refine (serving.keeps resolved).bind fun _ during held => ?_
  obtain ⟨⟨found, rests⟩, served⟩ := held
  subst found
  refine (answers_syncToL2 served lane row (rests.lapsed lapsed)).mono fun _ after mirrors => ?_
  unfold Mirrors at mirrors ⊢
  rw [← rests.keys]
  exact mirrors

end

def settledStates (row : Row) (hash : Hash) : CircuitState × CircuitState :=
  let stored := (hash.toData row.serviceName).state
  if copiesDown row hash then (stored, stored) else (row.state, mirroredState stored row.state)

theorem settledStates_copied (down : copiesDown row hash = true) :
    settledStates row hash = ((hash.toData row.serviceName).state, (hash.toData row.serviceName).state) := by
  exact if_pos down

theorem settledStates_kept (stays : copiesDown row hash = false) :
    settledStates row hash = (row.state, mirroredState (hash.toData row.serviceName).state row.state) := by
  exact if_neg (by simp [stays])

def winnerState (row : Row) (hash : Hash) : CircuitState :=
  if hash = {} then row.state else (Layered.resolveDrift row (hash.toData row.serviceName)).1

/-- The winner is an L1 row with exactly one HALF_OPEN side, and the stored row is one the repair
does not move or one it is not routed to. -/
def losesWinner (row remote : Row) : Bool :=
  xor (row.state = .halfOpen) (remote.state = .halfOpen) && l1IsNewer row remote &&
    (remote.state ≠ .closed || remote.manuallyControlled)

def SettledOn (name : String) (states : CircuitState × CircuitState) (stored : Option Row) (hash : Hash) : Prop :=
  (∃ row, stored = some row ∧ row.state = states.1) ∧ hash ≠ {} ∧ (hash.toData name).state = states.2

section

variable {worker : Nat} {before : Cluster} {row : Row}

theorem settled_repair {during : Cluster} (serving : Serving worker during)
    (rests : Rests worker before during) (present : before.l1Row worker row.serviceName = some row)
    (free : row.isPinActive before.clock = false)
    (lapsed : (before.keys row.serviceName).isPinActive before.clock = false) (result : α) :
    Answered worker (do let _ ← repairRowToL2 .repair row.serviceName; return result) during
      fun _ after => SettledOn row.serviceName
        (row.state, mirroredState ((before.keys row.serviceName).toData row.serviceName).state row.state)
        (after.l1Row worker row.serviceName) (after.keys row.serviceName) := by
  have found : during.l1Row worker row.serviceName = some row := (rests.l1Row _).trans present
  have mirrored := answers_repair serving .repair found (row.lapsed_later rests.clock free) (rests.lapsed lapsed)
  have spared : Leaves worker (repairRowToL2 .repair row.serviceName) during fun _ after =>
      Spares worker row.serviceName during after := spares_repairRow .repair row.serviceName
  refine (mirrored.and (spared.within Advances.drifts)).bind
    fun _ after ⟨⟨stored, state⟩, spares⟩ => ensures_ret ⟨⟨row, ?_, rfl⟩, stored, ?_⟩
  · exact (congrArg (find · row.serviceName) spares.l1).trans found
  · rw [state, rests.keys]

theorem mirroredState_same (state : CircuitState) : mirroredState state state = state := by
  cases state <;> rfl

theorem settled_reconcileRow (serving : Serving worker before)
    (present : before.l1Row worker row.serviceName = some row)
    (free : row.isPinActive before.clock = false)
    (lapsed : (before.keys row.serviceName).isPinActive before.clock = false)
    (report : DriftReport) :
    Answered worker (reconcileRow report row) before fun _ after =>
      SettledOn row.serviceName (settledStates row (before.keys row.serviceName))
        (after.l1Row worker row.serviceName) (after.keys row.serviceName) := by
  refine (serving.keeps (answered_getState serving.link .read row.serviceName)).bind fun reply during held => ?_
  obtain ⟨⟨rests, _, answer⟩, served⟩ := held
  subst answer
  by_cases missing : before.keys row.serviceName = {}
  · have stays : copiesDown row (before.keys row.serviceName) = false := by simp [copiesDown, missing]
    rw [if_pos missing, settledStates_kept stays]
    exact settled_repair served rests present free lapsed _
  · rw [if_neg missing]
    refine ensures_ite (fun same => ?_) fun drift => ?_
    · have stays : copiesDown row (before.keys row.serviceName) = false := by simp [copiesDown, same]
      rw [settledStates_kept stays, ← resolveDrift_noDrift same, mirroredState_same]
      refine ensures_ret ⟨⟨row, (rests.l1Row _).trans present, rfl⟩, ?_⟩
      rw [rests.keys]
      exact ⟨missing, (resolveDrift_noDrift same).symm⟩
    refine ensures_ite (fun routes => ?_) fun routes => ?_
    · have stays : copiesDown row (before.keys row.serviceName) = false := by simp [copiesDown, routes]
      rw [settledStates_kept stays]
      exact settled_repair served rests present free lapsed _
    · rw [settledStates_copied (copiesDown_of missing drift routes)]
      refine ((copied_down rests present _).within Advances.drifts).mono fun _ after moved => ?_
      obtain ⟨keys, copied⟩ := moved
      refine ⟨copied, ?_⟩
      rw [keys]
      exact ⟨missing, rfl⟩

end

theorem settledStates_iff (row : Row) (hash : Hash) :
    settledStates row hash = (winnerState row hash, winnerState row hash) ↔
      (hash ≠ {} → losesWinner row (hash.toData row.serviceName) = false) := by
  by_cases missing : hash = {}
  · subst missing
    simp only [ne_eq, not_true_eq_false, false_implies, iff_true]
    rfl
  rw [winnerState, if_neg missing]
  generalize known : hash.toData row.serviceName = remote
  have copies : copiesDown row hash = (decide ((resolveDrift row remote).2 ≠ .noDrift) &&
      !(resolveDrift row remote).2.routesToL1Repair remote) := by
    simp [copiesDown, missing, known]
  by_cases same : row.state = remote.state
  · rw [resolveDrift_same same] at copies ⊢
    rw [settledStates_kept (copies.trans rfl), known, ← same, mirroredState_same]
    simp [losesWinner, same]
  cases one : xor (decide (row.state = .halfOpen)) (decide (remote.state = .halfOpen)) with
  | false =>
    have kept : losesWinner row remote = false := by simp [losesWinner, one]
    rcases resolveDrift_priority same one with ⟨l1, l2, verdict⟩ | ⟨l1, l2, verdict⟩
    · rw [verdict] at copies ⊢
      rw [settledStates_kept (copies.trans rfl), known, l1, l2]
      simp [mirroredState, kept]
    · rw [verdict] at copies ⊢
      rw [settledStates_copied (copies.trans rfl), known, l2]
      simp [kept]
  | true =>
    rw [resolveDrift_xor one] at copies ⊢
    by_cases newer : l1IsNewer row remote = true
    · rw [if_pos newer] at copies ⊢
      cases flagged : remote.manuallyControlled with
      | true =>
        have down : copiesDown row hash = true := by
          simp [copies, routesToL1Repair, flagged]
        rw [settledStates_copied down, known]
        simp [losesWinner, one, newer, flagged, missing, Ne.symm same]
      | false =>
        have stays : copiesDown row hash = false := by
          simp [copies, routesToL1Repair, flagged]
        rw [settledStates_kept stays, known]
        simp [losesWinner, one, newer, flagged, missing, mirroredState, Ne.symm same]
    · rw [if_neg newer] at copies ⊢
      rw [settledStates_copied (copies.trans rfl), known]
      simp [losesWinner, newer]

structure Unpinned (worker : Nat) (cluster : Cluster) : Prop where
  l1 : ∀ name row, cluster.l1Row worker name = some row → row.isPinActive cluster.clock = false
  l2 : ∀ name, (cluster.keys name).isPinActive cluster.clock = false

theorem settled_pass {cluster : Cluster} (serving : Serving worker cluster) (unpinned : Unpinned worker cluster)
    (found : cluster.l1Row worker name = some row) :
    Answered worker reconcileAllDrift cluster fun _ after =>
      SettledOn name (settledStates row (cluster.keys name)) (after.l1Row worker name) (after.keys name) := by
  obtain rfl : row.serviceName = name := key_of_find found
  refine ensures_pass (fun state => Serving worker state ∧ cluster.clock ≤ state.clock)
    (SettledOn row.serviceName (settledStates row (cluster.keys row.serviceName)))
    Advances.drifts ?_ ?_ found ⟨serving, Int.le_refl _⟩ ?_
  · rintro before after ⟨serves, late⟩ advances
    refine ⟨serving_advances before after serves advances, ?_⟩
    obtain ⟨clock, le, rfl⟩ := advances
    exact Int.le_trans late le
  · rintro call state ⟨serves, late⟩
    refine ⟨serving_execAs call state serves, ?_⟩
    cases call <;> exact late
  · rintro report during ⟨serves, late⟩ present stored
    have free := row.lapsed_later late (unpinned.l1 _ row found)
    have lapsed : (during.keys row.serviceName).isPinActive during.clock = false := by
      rw [stored, ← Hash.isPinActive_toData _ row.serviceName]
      refine CircuitBreakerStateData.lapsed_later _ late ?_
      rw [Hash.isPinActive_toData]
      exact unpinned.l2 row.serviceName
    rw [← stored]
    exact settled_reconcileRow serves present free lapsed report

/-- After a pass over a store that serves, every service of L1 has the resolver's winner on both
sides exactly when no winner is an L1 row that the repair may not write. -/
theorem drift_pass_converges (worker : Nat) (cluster : Cluster) (serving : Serving worker cluster)
    (unpinned : Unpinned worker cluster) :
    (∀ report after, Runs (execAs worker) Advances reconcileAllDrift cluster report after →
        ∀ name row, cluster.l1Row worker name = some row →
          ∃ kept, after.l1Row worker name = some kept ∧
            kept.state = winnerState row (cluster.keys name) ∧ after.keys name ≠ {} ∧
            ((after.keys name).toData name).state = winnerState row (cluster.keys name)) ↔
      ∀ name row, cluster.l1Row worker name = some row → cluster.keys name ≠ {} →
        losesWinner row ((cluster.keys name).toData name) = false := by
  constructor
  · intro converges name row found
    obtain rfl : row.serviceName = name := key_of_find found
    obtain ⟨report, after, run, ⟨kept, present, l1⟩, _, l2⟩ :=
      (settled_pass serving unpinned found).someRun Advances.refl
    obtain ⟨kept', present', l1', _, l2'⟩ := converges report after run _ row found
    obtain rfl : kept = kept' := Option.mem_unique present present'
    exact (settledStates_iff row _).mp (Prod.ext (l1.symm.trans l1') (l2.symm.trans l2'))
  · intro wins report after run name row found
    obtain rfl : row.serviceName = name := key_of_find found
    obtain ⟨⟨kept, present, l1⟩, stored, l2⟩ := settled_pass serving unpinned found report after run
    rw [(settledStates_iff row _).mpr (wins _ row found)] at l1 l2
    exact ⟨kept, present, l1, stored, l2⟩

def twoRows (l1 l2 : CircuitState) (l1At l2At : Time) : Cluster where
  clock := seconds 10
  keys := fun name => if name = "api" then { state := some l2, updatedAt := .value l2At } else {}
  workers := fun _ => { l1 := Table.empty.put { serviceName := "api", state := l1, updatedAt := some l1At } }

theorem l1Row_twoRows {l1 l2 : CircuitState} {l1At l2At : Time}
    (found : (twoRows l1 l2 l1At l2At).l1Row worker name = some row) :
    name = "api" ∧ row = { serviceName := "api", state := l1, updatedAt := some l1At } := by
  have put := find_put (empty : Storage) { serviceName := "api", state := l1, updatedAt := some l1At } name
  change (find _ name) = some row at found
  simp only [twoRows] at found
  rw [put] at found
  split at found
  · rename_i same
    exact ⟨same.symm, (Option.some.inj found).symm⟩
  · simp [find, empty] at found

theorem unpinned_twoRows (l1 l2 : CircuitState) (l1At l2At : Time) (worker : Nat) :
    Unpinned worker (twoRows l1 l2 l1At l2At) := by
  refine ⟨fun name row found => ?_, fun name => ?_⟩
  · obtain ⟨_, rfl⟩ := l1Row_twoRows found
    rfl
  · simp only [twoRows]
    split <;> rfl

theorem open_row_reaches_store :
    Serving 0 (twoRows .opened .closed (seconds 1) (seconds 5)) ∧
      Unpinned 0 (twoRows .opened .closed (seconds 1) (seconds 5)) ∧
      ∀ report after, Runs (execAs 0) Advances reconcileAllDrift
          (twoRows .opened .closed (seconds 1) (seconds 5)) report after →
        ∃ kept, after.l1Row 0 "api" = some kept ∧ kept.state = .opened ∧ after.keys "api" ≠ {} ∧
          ((after.keys "api").toData "api").state = .opened := by
  refine ⟨⟨rfl, rfl⟩, unpinned_twoRows .., fun report after run => ?_⟩
  refine (drift_pass_converges 0 _ ⟨rfl, rfl⟩ (unpinned_twoRows ..)).mpr ?_ report after run "api" _ rfl
  intro name row found _
  obtain ⟨rfl, rfl⟩ := l1Row_twoRows found
  decide

theorem half_open_winner_never_written :
    Serving 0 (twoRows .halfOpen .opened (seconds 5) (seconds 1)) ∧
      Unpinned 0 (twoRows .halfOpen .opened (seconds 5) (seconds 1)) ∧
      ∃ report after, Runs (execAs 0) Advances reconcileAllDrift
          (twoRows .halfOpen .opened (seconds 5) (seconds 1)) report after ∧
        report.reconciled = 1 ∧ report.l1Wins = 1 ∧
        (after.l1Row 0 "api").map (·.state) = some .halfOpen ∧
        ((after.keys "api").toData "api").state = .opened := by
  refine ⟨⟨rfl, rfl⟩, unpinned_twoRows .., _, _, runs_run Advances.refl _ _, ?_⟩
  decide +kernel

/-- L1 is OPEN over a CLOSED store, or newer with exactly one HALF_OPEN side and no flag in the
store. -/
def l1Prevails (row remote : Row) : Bool :=
  row.state = .opened && remote.state = .closed ||
    xor (row.state = .halfOpen) (remote.state = .halfOpen) && l1IsNewer row remote && !remote.manuallyControlled

theorem copiesDown_iff (row : Row) (hash : Hash) :
    copiesDown row hash = true ↔
      hash ≠ {} ∧ row.state ≠ (hash.toData row.serviceName).state ∧
        l1Prevails row (hash.toData row.serviceName) = false := by
  generalize known : hash.toData row.serviceName = remote
  unfold copiesDown
  rw [known]
  dsimp only
  by_cases same : row.state = remote.state
  · simp [resolveDrift_same same, same]
  · cases one : xor (decide (row.state = .halfOpen)) (decide (remote.state = .halfOpen)) with
    | true =>
      have mixed : (decide (row.state = .opened) && decide (remote.state = .closed)) = false := by
        cases l1 : row.state <;> cases l2 : remote.state <;> simp_all
      rw [resolveDrift_xor one, l1Prevails, one, mixed]
      by_cases newer : l1IsNewer row remote = true
      · simp [newer, same, routesToL1Repair]
      · simp [newer, same, routesToL1Repair]
    | false =>
      rw [l1Prevails, one]
      rcases resolveDrift_priority same one with ⟨l1, l2, verdict⟩ | ⟨l1, l2, verdict⟩
      · simp [verdict, l1, l2, routesToL1Repair]
      · simp [verdict, l1, l2, routesToL1Repair]

theorem copiesDown_parts {row : Row} {hash : Hash} (down : copiesDown row hash = true) :
    hash ≠ {} ∧ (resolveDrift row (hash.toData row.serviceName)).2 ≠ .noDrift ∧
      (resolveDrift row (hash.toData row.serviceName)).2.routesToL1Repair (hash.toData row.serviceName) = false := by
  simpa [copiesDown, and_assoc] using down

def CircuitBreakerStateData.manualControl (row : Row) : Bool × Option Int × String × Option Time :=
  (row.manuallyControlled, row.controlledById, row.controlReason, row.manualOverrideExpiresAt)

/-- Every run of the program leaves L1 rows under an override in force with their state and their
manual-control fields, and the store's rows under an override that outlasts the run as they are. -/
def PinNeutral {α : Type} (worker : Nat) (cluster : Cluster) (program : LayeredProg α) : Prop :=
  ∀ value after, Runs (execAs worker) Cluster.Drifts program cluster value after →
    (∀ name row, cluster.l1Row worker name = some row → row.isPinActive cluster.clock = true →
      ∃ kept, after.l1Row worker name = some kept ∧ kept.state = row.state ∧ kept.manualControl = row.manualControl) ∧
      ∀ name, (cluster.keys name).isPinActive after.clock = true → after.keys name = cluster.keys name

/-- L1 holds the service under an override in force, and the store holds a state it does not prevail over. -/
def overwritesPin (worker : Nat) (cluster : Cluster) (name : String) : Bool :=
  match cluster.l1Row worker name with
  | none => false
  | some row =>
      let remote := (cluster.keys name).toData name
      row.isPinActive cluster.clock && cluster.keys name ≠ {} && row.state ≠ remote.state && !l1Prevails row remote

theorem overwritesPin_iff {worker : Nat} {cluster : Cluster} {name : String}
    {row : Row} (found : cluster.l1Row worker name = some row) :
    overwritesPin worker cluster name = true ↔
      row.isPinActive cluster.clock = true ∧ copiesDown row (cluster.keys name) = true := by
  have named : row.serviceName = name := key_of_find found
  simp only [overwritesPin, found, copiesDown_iff, named]
  simp [and_assoc]

theorem Cluster.Drifts.refl (cluster : Cluster) : cluster.Drifts cluster := by
  exact ⟨cluster.clock, cluster.link, Int.le_refl _, rfl⟩

theorem Cluster.Drifts.trans (first second third : Cluster) (before : first.Drifts second)
    (after : second.Drifts third) : first.Drifts third := by
  obtain ⟨clock, link, le, rfl⟩ := before
  obtain ⟨clock', link', le', rfl⟩ := after
  exact ⟨clock', link', Int.le_trans le le', rfl⟩

def SparesPins (before after : Cluster) : Prop :=
  before.clock ≤ after.clock ∧
    ∀ name, (before.keys name).isPinActive after.clock = true → after.keys name = before.keys name

section

variable {worker : Nat} {cluster : Cluster}

theorem SparesPins.trans {first second third : Cluster} (before : SparesPins first second)
    (after : SparesPins second third) : SparesPins first third := by
  refine ⟨Int.le_trans before.1 after.1, fun name active => ?_⟩
  have same := before.2 name (Hash.isPinActive_antitone _ after.1 active)
  rw [← same] at active ⊢
  exact after.2 name active

theorem Rests.sparesPins {after : Cluster} (rests : Rests worker cluster after) : SparesPins cluster after := by
  exact ⟨rests.clock, fun name _ => congrFun rests.keys name⟩

variable {row : Row}

theorem Round.sparesPins {after : Cluster} (round : Round worker row cluster after) : SparesPins cluster after := by
  refine ⟨round.clock, fun name active => ?_⟩
  by_cases own : name = row.serviceName
  · rw [own] at active ⊢
    exact round.pinned active
  · exact round.keys name own

theorem pass_sparesPins : Leaves worker reconcileAllDrift cluster fun _ after => SparesPins cluster after := by
  have listed : Leaves worker (l1 .getAllStates) cluster fun _ after =>
      SparesPins cluster after := by
    refine ensures_perform fun during drifted => ?_
    have rests : Rests worker cluster during := Rests.of_drifts drifted
    exact (rests.trans (rests_l1Read .getAllStates during rfl)).sparesPins
  refine listed.bind fun rows during spares => ?_
  refine ensures_foldlM (fun report row start _ before => ?_) spares
  exact (round_reconcileRow report row).mono fun _ _ round => before.trans round.sparesPins

variable {name : String}

theorem pass_keepsRow (found : cluster.l1Row worker name = some row)
    (stays : copiesDown row (cluster.keys name) = false) :
    Leaves worker reconcileAllDrift cluster fun _ after => after.l1Row worker name = some row := by
  obtain rfl : row.serviceName = name := key_of_find found
  refine ensures_pass (fun _ => True) (fun stored _ => stored = some row) (fun _ _ drifted => drifted)
    (fun _ _ _ _ => trivial) (fun _ _ _ => trivial) found trivial fun report during _ present stored => ?_
  refine (round_reconcileRow report row).mono fun _ after round => ?_
  rw [← stored] at stays
  exact (round.kept stays).trans present

section

variable (link : cluster.link = .answering)

include link

theorem copied_pass (present : cluster.l1Row worker row.serviceName = some row)
    (down : copiesDown row (cluster.keys row.serviceName) = true) :
    Answered worker reconcileAllDrift cluster fun _ after =>
      ∃ kept, after.l1Row worker row.serviceName = some kept ∧
        kept.state = ((cluster.keys row.serviceName).toData row.serviceName).state := by
  refine ensures_pass (fun state => state.link = .answering) (fun stored _ => ∃ kept, stored = some kept ∧
      kept.state = ((cluster.keys row.serviceName).toData row.serviceName).state)
    Advances.drifts link_advances link_execAs present link
    fun report during linked found stored => ?_
  rw [← stored] at down ⊢
  obtain ⟨missing, drift, routes⟩ := copiesDown_parts down
  refine (answered_getState linked .read row.serviceName).bind fun reply between ⟨rests, _, answer⟩ => ?_
  rw [answer, if_neg missing]
  refine ensures_ite (fun same => absurd same drift) fun _ => ?_
  refine ensures_ite (fun routed => absurd (routes.symm.trans routed) Bool.false_ne_true) fun _ => ?_
  exact ((copied_down rests found _).within Advances.drifts).mono fun _ _ copied => copied.2

theorem copied_single (present : cluster.l1Row worker row.serviceName = some row)
    (down : copiesDown row (cluster.keys row.serviceName) = true) :
    Answered worker (reconcileSingleService row.serviceName) cluster fun _ after =>
      ∃ kept, after.l1Row worker row.serviceName = some kept ∧
        kept.state = ((cluster.keys row.serviceName).toData row.serviceName).state := by
  obtain ⟨missing, drift, routes⟩ := copiesDown_parts down
  have looked : Answered worker (l1 (.getByServiceName row.serviceName)) cluster
      fun found after => found = some row ∧ Rests worker cluster after ∧ after.link = .answering := by
    refine ensures_perform fun during advances => ?_
    have rests : Rests worker cluster during := Rests.of_drifts (advances.drifts _ _)
    exact ⟨(rests.l1Row row.serviceName).trans present,
      rests.trans (rests_l1Read (.getByServiceName row.serviceName) during rfl),
      link_execAs _ _ (link_advances _ _ link advances)⟩
  refine looked.bind fun _ first ⟨all, rested, linked⟩ => ?_
  subst all
  refine (answered_getState linked .read row.serviceName).bind fun reply during ⟨rests, _, answer⟩ => ?_
  rw [answer, rested.keys, if_neg missing]
  refine ensures_ite (fun same => absurd same drift) fun _ => ?_
  refine ensures_ite (fun routed => absurd (routes.symm.trans routed) Bool.false_ne_true) fun _ => ?_
  exact ((copied_down (rested.trans rests) present _).within Advances.drifts).mono fun _ _ copied => copied.2

end

theorem stays_of_spared (found : cluster.l1Row worker name = some row)
    (active : row.isPinActive cluster.clock = true) (spared : overwritesPin worker cluster name = false) :
    copiesDown row (cluster.keys name) = false := by
  by_contra moves
  have overwritten := (overwritesPin_iff found).mpr ⟨active, Bool.of_not_eq_false moves⟩
  rw [spared] at overwritten
  exact Bool.false_ne_true overwritten

theorem neutral_pass (spared : ∀ name, overwritesPin worker cluster name = false) :
    PinNeutral worker cluster reconcileAllDrift := by
  intro value after run
  refine ⟨fun name row found active => ?_, (pass_sparesPins value after run).2⟩
  have stays := stays_of_spared found active (spared name)
  exact ⟨row, pass_keepsRow found stays value after run, rfl, rfl⟩

theorem rests_single (missing : cluster.l1Row worker name = none) :
    Leaves worker (reconcileSingleService name) cluster fun _ after =>
      Rests worker cluster after := by
  have looked : Leaves worker (l1 (.getByServiceName name)) cluster fun found after =>
      found = (none : Option Row) ∧ Rests worker cluster after := by
    refine ensures_perform fun during drifted => ?_
    have rests : Rests worker cluster during := Rests.of_drifts drifted
    exact ⟨(rests.l1Row name).trans missing, rests.trans (rests_l1Read (.getByServiceName name) during rfl)⟩
  refine looked.bind fun _ after ⟨nothing, rests⟩ => ?_
  subst nothing
  exact ensures_ret rests

theorem neutral_single (spared : overwritesPin worker cluster name = false) :
    PinNeutral worker cluster (reconcileSingleService name) := by
  intro value after run
  cases present : cluster.l1Row worker name with
  | none =>
    have rests := rests_single present value after run
    refine ⟨fun other row found _ => ⟨row, (rests.l1Row other).trans found, rfl, rfl⟩, ?_⟩
    exact rests.sparesPins.2
  | some stored =>
    have round := round_reconcileSingle present value after run
    have named : stored.serviceName = name := key_of_find present
    refine ⟨fun other row found active => ⟨row, ?_, rfl, rfl⟩, round.sparesPins.2⟩
    by_cases own : other = name
    · subst own
      obtain rfl : row = stored := Option.mem_unique found present
      have stays := stays_of_spared found active spared
      rw [← named] at stays found ⊢
      exact (round.kept stays).trans found
    · rw [← named] at own
      exact (round.l1 other own).trans found

theorem not_neutral {α : Type} {call : LayeredCall} {next : call.Answer → LayeredProg α}
    (found : cluster.l1Row worker name = some row) (active : row.isPinActive cluster.clock = true)
    (down : copiesDown row (cluster.keys name) = true)
    (copied : Answered worker (.call call next) { cluster with link := .answering } fun _ after =>
      ∃ kept, after.l1Row worker name = some kept ∧ kept.state = ((cluster.keys name).toData name).state) :
    ¬PinNeutral worker cluster (.call call next) := by
  intro neutral
  have answering : cluster.Drifts { cluster with link := .answering } :=
    ⟨cluster.clock, .answering, Int.le_refl _, rfl⟩
  obtain ⟨value, after, answered, kept', stored', kind'⟩ := copied.someRun Advances.refl
  have drifted := answered.mono Advances.drifts
  obtain ⟨kept, stored, kind, _⟩ :=
    (neutral _ _ (drifted.earlier Drifts.trans answering)).1 name row found active
  obtain rfl : kept = kept' := Option.mem_unique stored stored'
  obtain rfl : row.serviceName = name := key_of_find found
  have apart := ((copiesDown_iff row _).mp down).2.1
  exact apart (kind.symm.trans kind')

end

/-- A pass, or the reconciliation of one service, leaves every override alone exactly when no L1 row
it visits is under an override that the stored row is copied over. -/
theorem drift_reconciliation_pin_neutral (worker : Nat) (cluster : Cluster) :
    (PinNeutral worker cluster reconcileAllDrift ↔ ∀ name, overwritesPin worker cluster name = false) ∧
      ∀ name, PinNeutral worker cluster (reconcileSingleService name) ↔ overwritesPin worker cluster name = false := by
  have pinned : ∀ name, overwritesPin worker cluster name = true →
      ∃ row, cluster.l1Row worker name = some row ∧ row.isPinActive cluster.clock = true ∧
        copiesDown row (cluster.keys name) = true := by
    intro name overwritten
    cases found : cluster.l1Row worker name with
    | none => simp [overwritesPin, found] at overwritten
    | some row =>
      obtain ⟨active, down⟩ := (overwritesPin_iff found).mp overwritten
      exact ⟨row, rfl, active, down⟩
  refine ⟨⟨fun neutral name => ?_, neutral_pass⟩, fun name => ⟨fun neutral => ?_, neutral_single⟩⟩
  · by_contra overwritten
    obtain ⟨row, found, active, down⟩ := pinned name (Bool.of_not_eq_false overwritten)
    obtain rfl : row.serviceName = name := key_of_find found
    exact not_neutral found active down (copied_pass rfl found down) neutral
  · by_contra overwritten
    obtain ⟨row, found, active, down⟩ := pinned name (Bool.of_not_eq_false overwritten)
    obtain rfl : row.serviceName = name := key_of_find found
    exact not_neutral found active down (copied_single rfl found down) neutral

def unsharedBlock : Cluster where
  clock := seconds 10
  keys := fun name =>
    if name = "api" then { state := some .halfOpen, updatedAt := .value (seconds 5) } else {}
  workers := fun _ =>
    { l1 := Table.empty.put
        { serviceName := "api", state := .opened, openedAt := some (seconds 1)
          manuallyControlled := true, controlledById := some 7, controlReason := "maintenance"
          manualOverrideExpiresAt := some (minutes 5), updatedAt := some (seconds 1) } }

theorem copy_lifts_operator_block :
    let held := fun (cluster : Cluster) =>
      (cluster.l1Row 0 "api").map fun row => (row.state, row.isPinActive cluster.clock)
    held unsharedBlock = some (.opened, true) ∧
      (∃ report after, Runs (execAs 0) Drifts reconcileAllDrift unsharedBlock report after ∧
        held after = some (.halfOpen, true)) ∧
      ∃ answer after, Runs (execAs 0) Drifts (reconcileSingleService "api") unsharedBlock
        answer after ∧ held after = some (.halfOpen, true) := by
  refine ⟨by decide +kernel, ⟨_, _, runs_run Drifts.refl _ _, ?_⟩, ⟨_, _, runs_run Drifts.refl _ _, ?_⟩⟩
  · decide +kernel
  · decide +kernel

end Baldur.CircuitBreaker
