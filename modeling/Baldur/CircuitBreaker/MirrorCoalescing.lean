import Baldur.CircuitBreaker.HealthyWorker

/-!
Mirror coalescing. A service in flight has exactly one holder, the thread that has to submit its task or the
turn of the running task.
-/

namespace Baldur.CircuitBreaker

open LocalCall Pool

variable {locals : List WorkerLocal} {thread : Nat} {local' : WorkerLocal}

section

variable (worker : Nat) (name : String)

def isNudge (event : ClusterEvent) : Bool :=
  match event.call with
  | ⟨v, .inside (.mirrorEnqueue other)⟩ => v = worker && other = name
  | _ => false

def isMirrorRead (event : ClusterEvent) : Bool :=
  match event.call with
  | ⟨v, .inside (.repairRead .mirror other)⟩ => v = worker && other = name
  | _ => false

def startsTask (event : ClusterEvent) : Bool :=
  match event with
  | ⟨_, ⟨v, .inside (.submitMirrorTask other)⟩, accepted⟩ => v = worker && other = name && accepted
  | _ => false

def endsTask (event : ClusterEvent) : Bool :=
  match event with
  | ⟨_, ⟨v, .inside (.mirrorRelease other)⟩, released⟩ => v = worker && other = name && released
  | _ => false

def nudgePending : List ClusterEvent → Bool
  | [] => false
  | event :: older =>
      if isMirrorRead worker name event then false
      else isNudge worker name event || nudgePending older

theorem read_since_nudge {trace newer older : List ClusterEvent} {nudge : ClusterEvent}
    (served : nudgePending worker name trace = false) (split : trace = newer ++ nudge :: older)
    (isNudge' : isNudge worker name nudge = true) :
    ∃ read ∈ newer, isMirrorRead worker name read = true := by
  subst split
  induction newer with
  | nil =>
    have apart : isMirrorRead worker name nudge = false := by
      unfold isNudge at isNudge'
      unfold isMirrorRead
      split at isNudge'
      · rename_i same
        simp [same]
      · simp at isNudge'
    simp [nudgePending, apart, isNudge'] at served
  | cons event newer ih =>
    by_cases reads : isMirrorRead worker name event = true
    · exact ⟨event, by simp, reads⟩
    · simp only [List.cons_append, nudgePending, reads, Bool.false_eq_true, if_false,
        Bool.or_eq_false_iff] at served
      obtain ⟨read, member, found⟩ := ih served.2
      exact ⟨read, by simp [member], found⟩

def inProtocol (call : WorkerCall) : Bool :=
  match call with
  | ⟨v, .inside (.mirrorEnqueue other)⟩ => v = worker && other = name
  | ⟨v, .inside (.submitMirrorTask other)⟩ => v = worker && other = name
  | ⟨v, .inside (.mirrorWithdraw other)⟩ => v = worker && other = name
  | ⟨v, .inside (.mirrorClearDirty other)⟩ => v = worker && other = name
  | ⟨v, .inside (.repairRead .mirror other)⟩ => v = worker && other = name
  | ⟨v, .inside (.mirrorRelease other)⟩ => v = worker && other = name
  | _ => false

end

def tickets : MirrorRole → Nat
  | .ticket => 1
  | _ => 0

def turns : MirrorRole → Nat
  | .fresh | .cleared => 1
  | _ => 0

def reads : MirrorRole → Nat
  | .read => 1
  | _ => 0

def total (weight : MirrorRole → Nat) (locals : List WorkerLocal) : Nat :=
  (locals.map fun g => weight g.role).sum

theorem total_step (weight : MirrorRole → Nat) (located : locals[thread]? = some local') (next : WorkerLocal)
    (started : List WorkerLocal) :
    total weight (locals.set thread next ++ started) + weight local'.role =
      total weight locals + weight next.role + total weight started := by
  have moved := sum_map_set (fun g => weight g.role) locals located next
  simp only [total, List.map_append, List.sum_append]
  omega

theorem total_pos {weight : MirrorRole → Nat} (located : locals[thread]? = some local')
    (counts : weight local'.role = 1) : 0 < total weight locals := by
  have counted : weight local'.role ≤ total weight locals :=
    le_sum_map (fun g => weight g.role) locals located
  omega

@[ext] structure MirrorView where
  inFlight : Bool
  dirty : Bool
  tickets : Nat
  turns : Nat
  reads : Nat
  started : Nat
  ended : Nat
  pending : Bool

variable {v v' : MirrorView}

inductive MirrorView.Step (v : MirrorView) : MirrorView → Prop
  | outside : Step v v
  | first (free : v.inFlight = false) :
      Step v { v with inFlight := true, tickets := v.tickets + 1, pending := true }
  | coalesced (busy : v.inFlight = true) : Step v { v with dirty := true, pending := true }
  | submit (held : 0 < v.tickets) :
      Step v { v with tickets := v.tickets - 1, turns := v.turns + 1, started := v.started + 1 }
  | clear (running : 0 < v.turns) : Step v { v with dirty := false }
  | read (running : 0 < v.turns) :
      Step v { v with turns := v.turns - 1, reads := v.reads + 1, pending := false }
  | again (running : 0 < v.reads) (marked : v.dirty = true) :
      Step v { v with reads := v.reads - 1, turns := v.turns + 1 }
  | release (running : 0 < v.reads) (clean : v.dirty = false) :
      Step v { v with reads := v.reads - 1, inFlight := false, ended := v.ended + 1 }

/-- One holder while the service is in flight; an unserved nudge is marked or its holder has yet to read. -/
structure MirrorView.Balanced (v : MirrorView) : Prop where
  holder : v.tickets + v.turns + v.reads = v.inFlight.toNat
  tasks : v.started = v.ended + v.turns + v.reads
  dirty : v.dirty = true → v.inFlight = true
  owed : v.pending = true → v.dirty = true ∨ 0 < v.tickets + v.turns

theorem MirrorView.Balanced.step (balanced : v.Balanced) (step : v.Step v') : v'.Balanced := by
  obtain ⟨holder, tasks, dirty, owed⟩ := balanced
  have single := v.inFlight.toNat_le
  cases step with
  | outside => exact ⟨holder, tasks, dirty, owed⟩
  | first free =>
    rw [free, Bool.toNat_false] at holder
    refine ⟨?_, tasks, fun _ => rfl, fun _ => .inr ?_⟩
    · simp only [Bool.toNat_true]
      omega
    · simp only
      omega
  | coalesced busy => exact ⟨holder, tasks, fun _ => busy, fun _ => .inl rfl⟩
  | submit =>
    refine ⟨?_, ?_, dirty, fun pending => (owed pending).imp_right fun _ => ?_⟩ <;> simp only <;> omega
  | clear =>
    refine ⟨holder, tasks, fun marked => ?_, fun _ => .inr ?_⟩
    · simp at marked
    · simp only
      omega
  | read =>
    refine ⟨?_, ?_, dirty, fun pending => ?_⟩
    · simp only
      omega
    · simp only
      omega
    · simp at pending
  | again running marked =>
    refine ⟨?_, ?_, dirty, fun _ => .inl marked⟩ <;> simp only <;> omega
  | release running clean =>
    refine ⟨?_, ?_, fun marked => ?_, fun pending => ?_⟩
    · simp only [Bool.toNat_false]
      omega
    · simp only
      omega
    · rw [clean] at marked
      simp at marked
    · have ahead := owed pending
      rw [clean] at ahead
      simp only [Bool.false_eq_true, false_or] at ahead
      omega

theorem MirrorView.Balanced.single (balanced : v.Balanced) :
    v.started = v.ended ∨ v.started = v.ended + 1 ∧ v.inFlight = true := by
  have holder := balanced.holder
  have tasks := balanced.tasks
  cases busy : v.inFlight with
  | false =>
    rw [busy, Bool.toNat_false] at holder
    exact .inl (by omega)
  | true =>
    rw [busy, Bool.toNat_true] at holder
    by_cases even : v.started = v.ended
    · exact .inl even
    · exact .inr ⟨by omega, rfl⟩

theorem MirrorView.Balanced.served (balanced : v.Balanced) (free : v.inFlight = false) : v.pending = false := by
  have holder := balanced.holder
  rw [free, Bool.toNat_false] at holder
  cases pending : v.pending with
  | false => rfl
  | true =>
    rcases balanced.owed pending with marked | ahead
    · rw [balanced.dirty marked] at free
      simp at free
    · omega

def mirrorView (worker : Nat) (name : String) (cluster : Cluster) (trace : List ClusterEvent)
    (locals : List WorkerLocal) : MirrorView where
  inFlight := name ∈ (cluster.workers worker).mirrorInFlight
  dirty := name ∈ (cluster.workers worker).mirrorDirty
  tickets := total tickets locals
  turns := total turns locals
  reads := total reads locals
  started := trace.countP (startsTask worker name)
  ended := trace.countP (endsTask worker name)
  pending := nudgePending worker name trace

def stepView (worker : Nat) (name : String) (cluster : Cluster) (trace : List ClusterEvent)
    (locals : List WorkerLocal) (thread : Nat) (local' : WorkerLocal) (call : WorkerCall) : MirrorView :=
  let out := cluster.exec call
  mirrorView worker name out.1 (⟨thread, call, out.2⟩ :: trace)
    (locals.set thread ((clusterDiscipline worker name).after local' call out.2) ++
      startedLocals worker name call out.2)

section

variable {worker : Nat} {name : String} {call : WorkerCall}

section

variable (outside : inProtocol worker name call = false)

include outside

theorem event_outside (thread : Nat) (answer : call.Answer) :
    isNudge worker name ⟨thread, call, answer⟩ = false ∧
      isMirrorRead worker name ⟨thread, call, answer⟩ = false ∧
      startsTask worker name ⟨thread, call, answer⟩ = false ∧
      endsTask worker name ⟨thread, call, answer⟩ = false := by
  obtain ⟨v, call⟩ := call
  cases call with
  | inside call =>
    cases call with
    | mirrorEnqueue => exact ⟨outside, rfl, rfl, rfl⟩
    | submitMirrorTask =>
      exact ⟨rfl, rfl, by rw [startsTask, show (_ && _) = false from outside, Bool.false_and], rfl⟩
    | mirrorRelease =>
      exact ⟨rfl, rfl, rfl, by rw [endsTask, show (_ && _) = false from outside, Bool.false_and]⟩
    | repairRead lane =>
      cases lane with
      | mirror => exact ⟨rfl, outside, rfl, rfl⟩
      | _ => exact ⟨rfl, rfl, rfl, rfl⟩
    | _ => exact ⟨rfl, rfl, rfl, rfl⟩
  | _ => exact ⟨rfl, rfl, rfl, rfl⟩

theorem role_outside (local' : WorkerLocal) (answer : call.Answer) :
    ((clusterDiscipline worker name).after local' call answer).role = local'.role := by
  obtain ⟨v, call⟩ := call
  cases call with
  | inside call =>
    change roleAfter (v = worker) name local'.role call answer = local'.role
    cases call with
    | mirrorEnqueue other =>
      have quiet : concerns (v = worker) name other = false := outside
      simp only [roleAfter, quiet, Bool.false_and, Bool.false_eq_true, if_false]
    | submitMirrorTask other | mirrorClearDirty other | mirrorRelease other =>
      have quiet : concerns (v = worker) name other = false := outside
      simp only [roleAfter, quiet, Bool.false_eq_true, if_false]
    | repairRead lane other =>
      cases lane with
      | mirror =>
        have quiet : concerns (v = worker) name other = false := outside
        simp only [roleAfter, quiet, Bool.false_and, Bool.false_eq_true, if_false]
      | _ => simp only [roleAfter, reduceCtorEq, decide_false, Bool.and_false, Bool.false_eq_true,
          if_false]
    | _ => rfl
  | _ => rfl

theorem started_outside (answer : call.Answer) : ∀ g ∈ startedLocals worker name call answer, g.role = .idle := by
  have plain : ∀ (taken : Bool) (local' : WorkerLocal), local'.role = .idle →
      ∀ g ∈ (if taken then [local'] else []), g.role = .idle := by
    intro taken local' idle g member
    cases taken <;> simp_all
  obtain ⟨v, call⟩ := call
  cases call with
  | inside call =>
    cases call with
    | submitMirrorTask other =>
      have quiet : concerns (v = worker) name other = false := outside
      exact plain answer _ (by rw [turnRole, quiet]; rfl)
    | mirrorRelease other =>
      have quiet : concerns (v = worker) name other = false := outside
      cases answer with
      | false => exact plain true _ (by rw [turnRole, quiet]; rfl)
      | true => exact fun g member => absurd member List.not_mem_nil
    | submitConvergence other | handleL2Success => exact plain answer _ rfl
    | _ => exact fun g member => absurd member List.not_mem_nil
  | _ => exact fun g member => absurd member List.not_mem_nil

theorem marks_outside (cluster : Cluster) :
    (name ∈ ((cluster.exec call).1.workers worker).mirrorInFlight ↔
        name ∈ (cluster.workers worker).mirrorInFlight) ∧
      (name ∈ ((cluster.exec call).1.workers worker).mirrorDirty ↔ name ∈ (cluster.workers worker).mirrorDirty) := by
  obtain ⟨v, call⟩ := call
  cases call with
  | inside call =>
    by_cases own : worker = v
    · subst own
      have apart : ∀ other, (decide (worker = worker) && decide (other = name)) = false → name ≠ other := by
        rintro other quiet rfl
        simp at quiet
      simp only [Cluster.exec, LayeredCall.exec, Function.update_self]
      cases call with
      | mirrorEnqueue other | mirrorRelease other =>
        have different := apart other outside
        simp only [exec, Worker.mirrorEnqueue, Worker.mirrorRelease]
        split <;> simp [different]
      | mirrorWithdraw other | mirrorClearDirty other => simp [exec, apart other outside]
      | reserveConvergence =>
        simp only [exec]
        split <;> exact ⟨Iff.rfl, Iff.rfl⟩
      | handleL2Failure =>
        simp only [exec, Worker.handleL2Failure]
        split <;> exact ⟨Iff.rfl, Iff.rfl⟩
      | _ => exact ⟨Iff.rfl, Iff.rfl⟩
    · simp only [Cluster.exec, LayeredCall.exec, Function.update_of_ne own, and_self]
  | _ => exact ⟨Iff.rfl, Iff.rfl⟩

theorem total_outside (weight : MirrorRole → Nat) (idle : weight .idle = 0)
    (located : locals[thread]? = some local') (answer : call.Answer) :
    total weight (locals.set thread ((clusterDiscipline worker name).after local' call answer) ++
      startedLocals worker name call answer) = total weight locals := by
  have moved := total_step weight located ((clusterDiscipline worker name).after local' call answer)
    (startedLocals worker name call answer)
  rw [role_outside outside local' answer] at moved
  have none : total weight (startedLocals worker name call answer) = 0 := by
    refine List.sum_eq_zero_iff_forall_eq_nat.mpr fun value member => ?_
    obtain ⟨g, started, rfl⟩ := List.mem_map.mp member
    rw [started_outside outside answer g started, idle]
  omega

theorem stepView_outside (cluster : Cluster) (trace : List ClusterEvent) (located : locals[thread]? = some local') :
    stepView worker name cluster trace locals thread local' call = mirrorView worker name cluster trace locals := by
  obtain ⟨noNudge, noRead, noStart, noEnd⟩ := event_outside outside thread (cluster.exec call).2
  obtain ⟨inFlight, dirty⟩ := marks_outside outside cluster
  ext
  · simp only [stepView, mirrorView, inFlight]
  · simp only [stepView, mirrorView, dirty]
  · exact total_outside outside tickets rfl located _
  · exact total_outside outside turns rfl located _
  · exact total_outside outside reads rfl located _
  · simp [stepView, mirrorView, noStart]
  · simp [stepView, mirrorView, noEnd]
  · simp [stepView, mirrorView, nudgePending, noNudge, noRead]

end

end

section

variable {worker : Nat} {name : String} {cluster : Cluster} {trace : List ClusterEvent}
  {locals : List WorkerLocal} {thread : Nat} {local' : WorkerLocal}

theorem stepView_inside {call : LocalCall} (role next : MirrorRole) (started : List MirrorRole)
    {worker' : Worker} {answer : call.Answer}
    (ran : call.exec cluster.clock (cluster.workers worker) = (worker', answer))
    (located : locals[thread]? = some local') (was : local'.role = role)
    (becomes : roleAfter true name role call answer = next)
    (starts : (startedLocals worker name ⟨worker, .inside call⟩ answer).map (·.role) = started) :
    stepView worker name cluster trace locals thread local' ⟨worker, .inside call⟩ =
      let event : ClusterEvent := ⟨thread, ⟨worker, .inside call⟩, answer⟩
      let moved (weight : MirrorRole → Nat) :=
        total weight locals + weight next + (started.map weight).sum - weight role
      { inFlight := name ∈ worker'.mirrorInFlight
        dirty := name ∈ worker'.mirrorDirty
        tickets := moved tickets
        turns := moved turns
        reads := moved reads
        started := (event :: trace).countP (startsTask worker name)
        ended := (event :: trace).countP (endsTask worker name)
        pending := nudgePending worker name (event :: trace) } := by
  subst was becomes starts
  have moves : ∀ weight, total weight (locals.set thread { local' with
        role := roleAfter true name local'.role call answer
        snapshot := snapshotAfter local'.snapshot call answer } ++
        startedLocals worker name ⟨worker, .inside call⟩ answer) = 
      total weight locals + weight (roleAfter true name local'.role call answer) +
        (((startedLocals worker name ⟨worker, .inside call⟩ answer).map (·.role)).map weight).sum -
          weight local'.role := by
    intro weight
    rw [List.map_map]
    exact Nat.eq_sub_of_add_eq (total_step weight located _ _)
  simp only [stepView, Cluster.exec, LayeredCall.exec, clusterDiscipline, healthyDiscipline, ran,
    mirrorView, Function.update_self, decide_true, moves]

theorem MirrorView.Step.into {next : MirrorView} (step : v.Step next) (same : v' = next) : v.Step v' := by
  rw [same]
  exact step

attribute [local simp] mirrorView tickets turns reads startsTask endsTask nudgePending isNudge isMirrorRead

theorem step_enqueue (located : locals[thread]? = some local') (idle : local'.role = .idle) :
    (mirrorView worker name cluster trace locals).Step
      (stepView worker name cluster trace locals thread local' ⟨worker, .inside (.mirrorEnqueue name)⟩) := by
  by_cases busy : name ∈ (cluster.workers worker).mirrorInFlight
  · have ran : exec cluster.clock (cluster.workers worker) (.mirrorEnqueue name) =
        ({ cluster.workers worker with
            mirrorDirty := insert name (cluster.workers worker).mirrorDirty }, false) := if_pos busy
    refine (MirrorView.Step.coalesced (decide_eq_true busy)).into ?_
    rw [stepView_inside .idle .idle [] ran located idle (by simp [roleAfter]) rfl]
    simp [busy]
  · have ran : exec cluster.clock (cluster.workers worker) (.mirrorEnqueue name) =
        ({ cluster.workers worker with
            mirrorInFlight := insert name (cluster.workers worker).mirrorInFlight }, true) := if_neg busy
    refine (MirrorView.Step.first (decide_eq_false busy)).into ?_
    rw [stepView_inside .idle .ticket [] ran located idle (by simp [roleAfter, concerns]) rfl]
    simp

section

variable (located : locals[thread]? = some local')

include located

theorem step_release (read : local'.role = .read) :
    (mirrorView worker name cluster trace locals).Step
      (stepView worker name cluster trace locals thread local' ⟨worker, .inside (.mirrorRelease name)⟩) := by
  have held : 0 < (mirrorView worker name cluster trace locals).reads :=
    total_pos located (by rw [read]; rfl)
  by_cases marked : name ∈ (cluster.workers worker).mirrorDirty
  · have ran : exec cluster.clock (cluster.workers worker) (.mirrorRelease name) =
        (cluster.workers worker, false) := if_pos marked
    refine (MirrorView.Step.again held (decide_eq_true marked)).into ?_
    rw [stepView_inside .read .idle [.fresh] ran located read (by simp [roleAfter, concerns])
      (by simp [startedLocals, turnRole, concerns])]
    simp
  · have ran : exec cluster.clock (cluster.workers worker) (.mirrorRelease name) =
        ({ cluster.workers worker with
            mirrorInFlight := (cluster.workers worker).mirrorInFlight.erase name }, true) := if_neg marked
    refine (MirrorView.Step.release held (decide_eq_false marked)).into ?_
    rw [stepView_inside .read .idle [] ran located read (by simp [roleAfter, concerns]) rfl]
    simp

end

theorem mirror_refines {call : WorkerCall} (steady : cluster.Steady)
    (located : locals[thread]? = some local') (may : (clusterDiscipline worker name).may local' call) :
    (mirrorView worker name cluster trace locals).Step
      (stepView worker name cluster trace locals thread local' call) := by
  cases inside : inProtocol worker name call with
  | false =>
    rw [stepView_outside inside cluster trace located]
    exact .outside
  | true =>
    unfold inProtocol at inside
    split at inside
    case h_7 => simp at inside
    all_goals
      simp only [Bool.and_eq_true, decide_eq_true_eq] at inside
      obtain ⟨rfl, rfl⟩ := And.imp Eq.symm Eq.symm inside
    · exact step_enqueue located (may.2 (by simp [concerns]))
    · have ticket := may.2 (by simp [concerns])
      have held : 0 < (mirrorView worker name cluster trace locals).tickets :=
        total_pos located (by rw [ticket]; rfl)
      have ran : exec cluster.clock (cluster.workers worker) (.submitMirrorTask name) =
          (cluster.workers worker, true) := by
        rw [exec, (steady.linked _).accepts]
      refine (MirrorView.Step.submit held).into ?_
      rw [stepView_inside .ticket .idle [.fresh] ran located ticket (by simp [roleAfter, concerns])
        (by simp [startedLocals, turnRole, concerns])]
      simp
    · exact may.2.elim
    · have fresh := may.2 (by simp [concerns])
      have held : 0 < (mirrorView worker name cluster trace locals).turns :=
        total_pos located (by rw [fresh]; rfl)
      refine (MirrorView.Step.clear held).into ?_
      rw [stepView_inside .fresh .cleared [] rfl located fresh (by simp [roleAfter, concerns]) rfl]
      simp
    · have cleared := may.2 (by simp [concerns]) rfl
      have held : 0 < (mirrorView worker name cluster trace locals).turns :=
        total_pos located (by rw [cleared]; rfl)
      refine (MirrorView.Step.read held).into ?_
      rw [stepView_inside .cleared .read [] rfl located cleared (by simp [roleAfter, concerns]) rfl]
      simp
    · exact step_release located (may.2 (by simp [concerns]))

end

structure MirrorInvariant (worker : Nat) (name : String) (cluster : Cluster)
    (trace : List ClusterEvent) (locals : List WorkerLocal) : Prop where
  steady : cluster.Steady
  balanced : (mirrorView worker name cluster trace locals).Balanced

theorem mirror_sound (worker : Nat) (name : String) :
    Sound clusterMachine (clusterDiscipline worker name) (fun g _ => AtRole .idle g)
      (MirrorInvariant worker name) runsCalmly where
  step config locals thread g call allowed pending holds located may := by
    refine ⟨holds.steady.valid call, startedLocals worker name call _,
      started_obey worker name call _, holds.steady.exec may, ?_⟩
    exact holds.balanced.step (mirror_refines holds.steady located may)
  disturb config locals change allowed holds := by
    refine ⟨holds.steady.disturb (allowed.2 change rfl), ?_⟩
    have same : mirrorView worker name (config.state.disturb change) config.trace locals =
        mirrorView worker name config.state config.trace locals := by
      cases change with
      | degrade v =>
        by_cases own : worker = v
        · subst own
          simp [mirrorView, Cluster.disturb]
        · simp [mirrorView, Cluster.disturb, Function.update_of_ne own]
      | _ => rfl
    exact same ▸ holds.balanced
  spawn config locals program allowed holds := by
    obtain ⟨v, job, rfl⟩ := allowed.1
    refine ⟨_, job_obeys worker name v job, holds.steady, ?_⟩
    have idle : ∀ weight : MirrorRole → Nat, weight .idle = 0 →
        total weight (locals ++ [{ home := v }]) = total weight locals := by
      intro weight none
      simp [total, none]
    simpa only [mirrorView, idle tickets rfl, idle turns rfl, idle reads rfl] using holds.balanced

theorem mirror_initial {cluster : Cluster} {worker : Nat} {name : String} (steady : cluster.Steady)
    (idle : name ∉ (cluster.workers worker).mirrorInFlight)
    (clean : name ∉ (cluster.workers worker).mirrorDirty) :
    Coherent (clusterDiscipline worker name) (fun g _ => AtRole .idle g)
      (MirrorInvariant worker name) (start cluster : ClusterConfig) := by
  refine ⟨[], .nil, steady, ?_, rfl, ?_, ?_⟩
  · simp [mirrorView, start, total, idle]
  · simp [mirrorView, start, clean]
  · simp [mirrorView, start, nudgePending]

/-- Coalescing loses no nudge: while Redis answers, at most one task of the service runs, and once
none is in flight every nudge has been followed by a read of L1 by a mirror task. -/
theorem mirror_coalescing {cluster : Cluster} {worker : Nat} {name : String}
    {schedule : List ClusterAction} (steady : cluster.Steady)
    (idle : name ∉ (cluster.workers worker).mirrorInFlight)
    (clean : name ∉ (cluster.workers worker).mirrorDirty)
    (calm : clusterMachine.Always runsCalmly (start cluster) schedule) :
    let final := clusterMachine.run (start cluster) schedule
    let started := final.trace.countP (startsTask worker name)
    let ended := final.trace.countP (endsTask worker name)
    let bookkeeping := final.state.workers worker
    (started = ended ∨ started = ended + 1 ∧ name ∈ bookkeeping.mirrorInFlight) ∧
      (name ∈ bookkeeping.mirrorDirty → name ∈ bookkeeping.mirrorInFlight) ∧
      (name ∉ bookkeeping.mirrorInFlight →
        ∀ newer nudge older, final.trace = newer ++ nudge :: older →
          isNudge worker name nudge = true → ∃ read ∈ newer, isMirrorRead worker name read = true) := by
  intro final started ended bookkeeping
  obtain ⟨locals, _, _, balanced⟩ :=
    (mirror_sound worker name).run calm (mirror_initial steady idle clean)
  refine ⟨?_, fun marked => ?_, fun free newer nudge older split nudged => ?_⟩
  · exact balanced.single.imp_right fun ⟨running, busy⟩ => ⟨running, of_decide_eq_true busy⟩
  · exact of_decide_eq_true (balanced.dirty (decide_eq_true marked))
  · exact read_since_nudge worker name (balanced.served (decide_eq_false free)) split nudged

def failureJob (worker : Nat) : ClusterAction :=
  .spawn (onWorker worker (Job.program (.service (Prog.perform (.repo (.recordFailure "api"))))))

def coalescedSchedule : List ClusterAction :=
  [failureJob 0, failureJob 0] ++ List.replicate 4 (.step 0) ++ List.replicate 3 (.step 2) ++
    List.replicate 3 (.step 1) ++ List.replicate 11 (.step 2) ++ List.replicate 10 (.step 3)

theorem coalesced_failure_is_mirrored :
    let final := clusterMachine.run (start { clock := 0 }) coalescedSchedule
    "api" ∉ (final.state.workers 0).mirrorInFlight ∧
      final.trace.countP (startsTask 0 "api") = 1 ∧ final.trace.countP (isNudge 0 "api") = 2 ∧
      ∀ newer nudge older, final.trace = newer ++ nudge :: older →
        isNudge 0 "api" nudge = true → ∃ read ∈ newer, isMirrorRead 0 "api" read = true := by
  intro final
  have released : "api" ∉ (final.state.workers 0).mirrorInFlight := by decide +kernel
  refine ⟨released, by decide +kernel, by decide +kernel, ?_⟩
  refine (mirror_coalescing (steady_initial 0 _) (by decide) (by decide) ?_).2.2 released
  refine always_runsCalmly ?_ ?_ _
  · intro program member
    obtain rfl : program = _ := by simpa [coalescedSchedule, failureJob] using member
    exact ⟨0, _, rfl⟩
  · simp [coalescedSchedule, failureJob]

end Baldur.CircuitBreaker
