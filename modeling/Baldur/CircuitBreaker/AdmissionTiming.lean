import Baldur.CircuitBreaker.AdmissionGate

/-!
When an OPEN row admits a request again. The instant it opened tells the operator's block from a row that
re-opened after the override lapsed.
-/

namespace Baldur.CircuitBreaker

open List World

variable {gate after : Gate} {now start finish : Time} {name : String} {world : World} {failing : Bool}

def Operation.concerns (name : String) : Operation → Prop
  | .forceOpen _ other _ _ _ => other = name
  | .shouldAllowWithState _ other => other = name
  | .recordSuccess _ other _ _ => other = name
  | .recordFailure _ other => other = name
  | .checkRecoveryTransitions _ => True
  | .checkAndExpireManualOverrides => True
  | _ => False

structure OperationStep where
  operation : Operation
  before : World
  result : OperationResult
  after : World

variable {steps earlier : List OperationStep}

inductive SequentialRun (name : String) (start : World) : List OperationStep → World → Prop
  | start : SequentialRun name start [] start
  | step {earlier : List OperationStep} {world : World} (step : OperationStep)
      (run : SequentialRun name start earlier world) (idle : world.Drifts step.before)
      (concerns : step.operation.concerns name)
      (ran : Prog.Runs World.exec World.Drifts step.operation.program step.before step.result step.after) :
      SequentialRun name start (step :: earlier) step.after

namespace OperationStep

def forces (step : OperationStep) : Bool :=
  match step.operation, step.result with
  | .forceOpen _ _ _ _ _, .manual result => result.success
  | _, _ => false

def isRequest (step : OperationStep) : Bool :=
  match step.operation with
  | .shouldAllowWithState _ _ => true
  | _ => false

def isFailure (step : OperationStep) : Bool :=
  match step.operation with
  | .recordFailure _ _ => true
  | _ => false

def admits (name : String) (step : OperationStep) : Bool :=
  step.isRequest && (gateOf name step.before).state = .opened && (gateOf name step.after).state = .halfOpen

def lifts (name : String) (step : OperationStep) : Bool :=
  step.admits name && (gateOf name step.before).liftDue step.after.clock

def sparesExpiry (name : String) (step : OperationStep) : Prop :=
  step.isFailure = true → (gateOf name step.before).state = .halfOpen →
    (gateOf name step.before).pinned = true → (gateOf name step.before).expiresAt ≠ some step.before.clock

end OperationStep

def Standing (name : String) : List OperationStep → Prop
  | [] => False
  | step :: earlier =>
      step.forces = true ∨ Standing name earlier ∧ (gateOf name step.after).state = .opened

def liftsSinceForce (name : String) : List OperationStep → Nat
  | [] => 0
  | step :: earlier =>
      if step.forces then 0 else (if step.lifts name then 1 else 0) + liftsSinceForce name earlier

structure OwnBlock (gate : Gate) : Prop where
  opened : gate.state = .opened
  pinned : gate.pinned = true
  expires : ∀ expiry, gate.expiresAt = some expiry → ∃ openedAt, gate.openedAt = some openedAt ∧ openedAt ≤ expiry

/-- An override left on a row that is no longer blocked: it has lapsed, and if the row is OPEN it
opened after that. -/
def Leftover (now : Time) (gate : Gate) : Prop :=
  gate.pinned = true → ∃ expiry, gate.expiresAt = some expiry ∧ expiry ≤ now ∧
    (gate.state = .opened → ∃ openedAt, gate.openedAt = some openedAt ∧ expiry < openedAt)

theorem OwnBlock.liftDue_iff (block : OwnBlock gate) (now : Time) :
    gate.liftDue now = true ↔ ∃ expiry, gate.expiresAt = some expiry ∧ expiry ≤ now := by
  unfold Gate.liftDue
  cases expires : gate.expiresAt with
  | none => simp
  | some expiry =>
    obtain ⟨openedAt, since, order⟩ := block.expires expiry expires
    simp [block.opened, block.pinned, since, order]

theorem OwnBlock.pinActive_eq (block : OwnBlock gate) (now : Time) : gate.pinActive now = !gate.liftDue now := by
  unfold Gate.pinActive manualPinIsActive Gate.liftDue
  cases expires : gate.expiresAt with
  | none => simp [block.pinned]
  | some expiry =>
    obtain ⟨openedAt, since, order⟩ := block.expires expiry expires
    have flips : decide (now < expiry) = !decide (expiry ≤ now) := by
      by_cases late : expiry ≤ now <;> simp [late, Int.not_lt.mpr, Int.not_le.mp]
    simp [block.opened, block.pinned, since, order, flips]

theorem Leftover.not_liftDue (leftover : Leftover now gate) (later : Time) : gate.liftDue later = false := by
  unfold Gate.liftDue
  by_cases pinned : gate.pinned = true
  · obtain ⟨expiry, expires, _, reopened⟩ := leftover pinned
    by_cases opened : gate.state = .opened
    · obtain ⟨openedAt, since, order⟩ := reopened opened
      simp [expires, since, order]
    · simp [opened]
  · simp [pinned]

theorem Leftover.mono {earlier later : Time} (order : earlier ≤ later)
    (leftover : Leftover earlier gate) : Leftover later gate := by
  intro pinned
  obtain ⟨expiry, expires, passed, reopened⟩ := leftover pinned
  exact ⟨expiry, expires, Int.le_trans passed order, reopened⟩

theorem Leftover.free (free : gate.pinned = false) : Leftover now gate := by
  intro pinned
  simp [free] at pinned

theorem Leftover.tried (lapsed : gate.pinActive now = false) : Leftover now { gate with state := .halfOpen } := by
  intro (pinned : gate.pinned = true)
  unfold Gate.pinActive manualPinIsActive at lapsed
  cases expires : gate.expiresAt with
  | none => simp [pinned, expires] at lapsed
  | some expiry =>
    refine ⟨expiry, rfl, ?_, by simp⟩
    simpa [pinned, expires] using lapsed

attribute [local simp] resolveManualOverrideExpiry OperationStep.admits OperationStep.lifts

theorem OwnBlock.forced (ttl : Option Int) (instant : Time) :
    OwnBlock ⟨.opened, true, resolveManualOverrideExpiry ttl instant, some instant⟩ := by
  refine ⟨rfl, rfl, fun expiry expires => ⟨instant, rfl, ?_⟩⟩
  cases ttl with
  | none => simp at expires
  | some ttl =>
    by_cases positive : ttl ≤ 0
    · simp [positive] at expires
    · simp only [resolveManualOverrideExpiry, positive, if_false, Option.some.injEq] at expires
      rw [← expires]
      refine Int.le_add_of_nonneg_right ?_
      unfold minutes seconds
      omega

inductive StepEffect (name : String) (step : OperationStep) : Prop
  | force (forces : step.forces = true) (block : OwnBlock (gateOf name step.after))
  | request (service : Service) (decision : CircuitBreakerDecision)
      (asked : step.operation = .shouldAllowWithState service name)
      (answered : step.result = .decision decision)
      (moved : gateOf name step.after = gateOf name step.before ∨
        (gateOf name step.before).state = .opened ∧
          gateOf name step.after = { gateOf name step.before with state := .halfOpen } ∧
          (gateOf name step.before).pinActive step.after.clock = false ∧
          ((gateOf name step.before).liftDue step.after.clock = true ∨
            (gateOf name step.before).recovered (service.effectiveConfig name).recoveryTimeout step.after.clock))
      (granted : (gateOf name step.before).liftDue step.before.clock = true →
        service.downstreamAllows name = true → decision.allowed = true)
  | automatic (unforced : step.forces = false) (unasked : step.isRequest = false)
      (effect : Effect step.isFailure step.before.clock step.after.clock
        (gateOf name step.before) (gateOf name step.after))

theorem stepEffect {step : OperationStep} (concerns : step.operation.concerns name)
    (ran : Prog.Runs exec Drifts step.operation.program step.before step.result step.after)
    (unfrozen : step.before.frozen = false) :
    step.before.clock ≤ step.after.clock ∧ step.after.frozen = step.before.frozen ∧ StepEffect name step := by
  obtain ⟨operation, before, result, after⟩ := step
  cases operation with
  | forceOpen service other reason overridden ttl =>
    obtain rfl : other = name := concerns
    obtain ⟨outcome, answered, clock, frozen, refused | committed⟩ :=
      (does_forceOpen other service before reason overridden ttl).wrapped ran
    all_goals obtain rfl : result = .manual outcome := answered
    · exact ⟨clock, frozen, .automatic refused.1 rfl (refused.2 ▸ .same)⟩
    · obtain ⟨succeeded, instant, _, gate⟩ := committed
      refine ⟨clock, frozen, .force succeeded ?_⟩
      rw [gate]
      exact OwnBlock.forced _ _
  | shouldAllowWithState service other =>
    obtain rfl : other = name := concerns
    obtain ⟨decision, answered, clock, frozen, moved, granted⟩ :=
      (does_shouldAllowWithState other service before unfrozen).wrapped ran
    exact ⟨clock, frozen, .request service decision rfl answered moved granted⟩
  | recordSuccess service other hintState hintEpoch =>
    obtain rfl : other = name := concerns
    obtain ⟨_, _, affects⟩ := (does_recordSuccess other service hintState hintEpoch before).wrapped ran
    exact ⟨affects.clock, affects.frozen, .automatic rfl rfl affects.effect⟩
  | recordFailure service other =>
    obtain rfl : other = name := concerns
    obtain ⟨_, _, affects⟩ := (does_recordFailure other service before).wrapped ran
    exact ⟨affects.clock, affects.frozen, .automatic rfl rfl affects.effect⟩
  | checkRecoveryTransitions service =>
    obtain ⟨_, _, affects⟩ := (does_checkRecoveryTransitions name service before).wrapped ran
    exact ⟨affects.clock, affects.frozen, .automatic rfl rfl affects.effect⟩
  | checkAndExpireManualOverrides =>
    obtain ⟨_, _, affects⟩ := (does_checkAndExpireManualOverrides name before).wrapped ran
    exact ⟨affects.clock, affects.frozen, .automatic rfl rfl affects.effect⟩
  | _ => exact concerns.elim

structure Timing (name : String) (steps : List OperationStep) (world : World) : Prop where
  unfrozen : world.frozen = false
  block : Standing name steps → OwnBlock (gateOf name world) ∧ liftsSinceForce name steps = 0
  leftover : ¬Standing name steps → Leftover world.clock (gateOf name world)
  once : liftsSinceForce name steps ≤ 1

theorem Timing.drift {before after : World}
    (timing : Timing name steps before) (drifts : before.Drifts after) : Timing name steps after := by
  have gate : gateOf name after = gateOf name before := gateOf_drifts drifts
  refine ⟨drifts.frozen.trans timing.unfrozen, ?_, ?_, timing.once⟩
  · rw [gate]
    exact timing.block
  · rw [gate]
    exact fun fallen => (timing.leftover fallen).mono drifts.clock

theorem Timing.lifted (timing : Timing name steps world)
    (due : (gateOf name world).liftDue now = true) : Standing name steps := by
  by_contra fallen
  rw [(timing.leftover fallen).not_liftDue now] at due
  exact Bool.false_ne_true due

theorem OwnBlock.unaffected
    (block : OwnBlock gate) (effect : Effect failing start finish gate after) : after = gate := by
  cases effect with
  | same => rfl
  | trial opened free => simp [block.pinned] at free
  | close tried | reopen fails tried => simp [block.opened] at tried
  | trip instant closed => simp [block.opened] at closed
  | expire instant lapsed undue => simp [block.pinActive_eq, undue] at lapsed

theorem Leftover.affected (leftover : Leftover start gate) (order : start ≤ finish)
    (spares : failing = true → gate.state = .halfOpen → gate.pinned = true → gate.expiresAt ≠ some start)
    (effect : Effect failing start finish gate after) : Leftover finish after := by
  cases effect with
  | same => exact leftover.mono order
  | trial opened free => exact .free free
  | close =>
    intro pinned
    obtain ⟨expiry, expires, passed, _⟩ := leftover pinned
    exact ⟨expiry, expires, Int.le_trans passed order, by simp⟩
  | reopen fails tried instant lower =>
    intro pinned
    obtain ⟨expiry, expires, passed, _⟩ := leftover pinned
    refine ⟨expiry, expires, Int.le_trans passed order, fun _ => ⟨instant, rfl, ?_⟩⟩
    have apart : expiry ≠ start := by
      intro same
      exact spares fails tried pinned (same ▸ expires)
    exact Int.lt_of_lt_of_le (Int.lt_iff_le_and_ne.mpr ⟨passed, apart⟩) lower
  | trip instant closed | expire instant lapsed undue => exact .free rfl

theorem liftsSinceForce_le {step : OperationStep} (unlifted : step.lifts name = false) :
    liftsSinceForce name (step :: earlier) ≤ liftsSinceForce name earlier := by
  simp only [liftsSinceForce, unlifted]
  split <;> simp

theorem standing_cons {step : OperationStep} (unforced : step.forces = false) : Standing name (step :: earlier) ↔
      Standing name earlier ∧ (gateOf name step.after).state = .opened := by
  simp [Standing, unforced]

theorem Timing.step {step : OperationStep} (timing : Timing name earlier step.before) (spares : step.sparesExpiry name)
    (clock : step.before.clock ≤ step.after.clock) (frozen : step.after.frozen = step.before.frozen)
    (effect : StepEffect name step) : Timing name (step :: earlier) step.after := by
  have unfrozen : step.after.frozen = false := frozen.trans timing.unfrozen
  cases effect with
  | force forces block =>
    refine ⟨unfrozen, fun _ => ⟨block, by simp [liftsSinceForce, forces]⟩, ?_, ?_⟩
    · intro fallen
      exact absurd (Or.inl forces) fallen
    · simp [liftsSinceForce, forces]
  | automatic unforced unasked effect =>
    have unlifted : step.lifts name = false := by
      simp [unasked]
    have fewer : liftsSinceForce name (step :: earlier) ≤ liftsSinceForce name earlier :=
      liftsSinceForce_le unlifted
    by_cases standing : Standing name earlier
    · obtain ⟨block, none⟩ := timing.block standing
      have same := block.unaffected effect
      refine ⟨unfrozen, fun _ => ⟨same ▸ block, by omega⟩, fun fallen => ?_, by omega⟩
      rw [standing_cons unforced, same] at fallen
      exact absurd ⟨standing, block.opened⟩ fallen
    · have fallen : ¬Standing name (step :: earlier) := fun kept =>
        standing ((standing_cons unforced).mp kept).1
      refine ⟨unfrozen, fun kept => absurd kept fallen, fun _ => ?_, Nat.le_trans fewer timing.once⟩
      exact (timing.leftover standing).affected clock spares effect
  | request service decision asked answered moved =>
    have unforced : step.forces = false := by
      simp [OperationStep.forces, asked]
    rcases moved with same | ⟨opened, moved, lapsed, _⟩
    · have unlifted : step.lifts name = false := by
        by_cases opened : (gateOf name step.before).state = .opened
        · simp [same, opened]
        · simp [opened]
      have fewer : liftsSinceForce name (step :: earlier) ≤ liftsSinceForce name earlier :=
        liftsSinceForce_le unlifted
      refine ⟨unfrozen, fun kept => ?_, fun fallen => ?_, Nat.le_trans fewer timing.once⟩
      · obtain ⟨block, none⟩ := timing.block ((standing_cons unforced).mp kept).1
        exact ⟨same ▸ block, by omega⟩
      · rw [standing_cons unforced, same] at fallen
        rw [same]
        refine (timing.leftover fun standing => fallen ⟨standing, ?_⟩).mono clock
        exact (timing.block standing).1.opened
    · have fallen : ¬Standing name (step :: earlier) := by
        rw [standing_cons unforced, moved]
        simp
      refine ⟨unfrozen, fun kept => absurd kept fallen, fun _ => ?_, ?_⟩
      · rw [moved]
        exact .tried lapsed
      · by_cases standing : Standing name earlier
        · have none := (timing.block standing).2
          have more : liftsSinceForce name (step :: earlier) ≤ 1 + liftsSinceForce name earlier := by
            simp only [liftsSinceForce, unforced, Bool.false_eq_true, if_false]
            split <;> omega
          omega
        · have unlifted : step.lifts name = false := by
            simp [(timing.leftover standing).not_liftDue]
          exact Nat.le_trans (liftsSinceForce_le unlifted) timing.once

theorem SequentialRun.timing {start : World}
    (unfrozen : start.frozen = false) (unflagged : (gateOf name start).pinned = false)
    (run : SequentialRun name start steps world)
    (spared : ∀ step ∈ steps, step.sparesExpiry name) : Timing name steps world := by
  induction run with
  | start => exact ⟨unfrozen, False.elim, fun _ => .free unflagged, Nat.zero_le _⟩
  | step step run idle concerns ran ih =>
    have timing := (ih fun other member => spared other (by simp [member])).drift idle
    obtain ⟨clock, frozen, effect⟩ := stepEffect concerns ran timing.unfrozen
    exact timing.step (spared step (by simp)) clock frozen effect

attribute [local simp] OperationStep.isRequest

/-- A request leaves OPEN after the recovery timeout, or as the one lift of an expired block; a request
that finds the block expired is allowed unless a downstream checker refuses the service. -/
theorem admission_from_open_when_due {name : String} {start world : World} {step : OperationStep}
    {earlier : List OperationStep} (unfrozen : start.frozen = false)
    (unflagged : (gateOf name start).pinned = false)
    (run : SequentialRun name start (step :: earlier) world)
    (spared : ∀ taken ∈ step :: earlier, taken.sparesExpiry name) :
    (∀ service, step.operation = .shouldAllowWithState service name → step.admits name = true →
      (gateOf name step.before).recovered (service.effectiveConfig name).recoveryTimeout step.after.clock ∨
        Standing name earlier ∧ ∃ expiry, (gateOf name step.before).expiresAt = some expiry ∧
          expiry ≤ step.after.clock) ∧
      (step.lifts name = true → Standing name earlier) ∧
      liftsSinceForce name (step :: earlier) ≤ 1 ∧
      ∀ service expiry, step.operation = .shouldAllowWithState service name →
        Standing name earlier → (gateOf name step.before).expiresAt = some expiry →
        expiry ≤ step.before.clock → service.downstreamAllows name = true →
        ∃ decision, step.result = .decision decision ∧ decision.allowed = true := by
  have whole := run.timing unfrozen unflagged spared
  cases run with
  | step _ run idle concerns ran =>
    have timing := (run.timing unfrozen unflagged fun other member => spared other (by simp [member])).drift idle
    obtain ⟨_, _, effect⟩ := stepEffect concerns ran timing.unfrozen
    refine ⟨fun service asks admits => ?_, fun lifts => ?_, whole.once, ?_⟩
    · simp only [OperationStep.admits, Bool.and_eq_true, decide_eq_true_eq] at admits
      cases effect with
      | force forces => simp [OperationStep.forces, asks] at forces
      | automatic unforced unasked => simp [asks] at unasked
      | request service' decision asked answered moved =>
        obtain ⟨rfl, _⟩ : service' = service ∧ name = name := by simpa [asked] using asks
        rcases moved with same | ⟨_, _, _, due | passed⟩
        · rw [same, admits.1.2] at admits
          simp at admits
        · have standing := timing.lifted due
          exact .inr ⟨standing, ((timing.block standing).1.liftDue_iff _).mp due⟩
        · exact .inl passed
    · simp only [OperationStep.lifts, Bool.and_eq_true] at lifts
      exact timing.lifted lifts.2
    · intro service expiry asks standing expires passed allows
      have due := ((timing.block standing).1.liftDue_iff _).mpr ⟨expiry, expires, passed⟩
      cases effect with
      | force forces => simp [OperationStep.forces, asks] at forces
      | automatic unforced unasked => simp [asks] at unasked
      | request service' decision asked answered moved granted =>
        obtain ⟨rfl, _⟩ : service' = service ∧ name = name := by simpa [asked] using asks
        exact ⟨decision, answered, granted due allows⟩

def sequence (start : World) : List (Nat × Operation) → List OperationStep
  | [] => []
  | (elapsed, operation) :: earlier =>
      let steps := sequence start earlier
      let reached := (steps.head?.map (·.after)).getD start
      let before := { reached with clock := reached.clock + elapsed }
      let out := operation.program.run World.exec before
      ⟨operation, before, out.2, out.1⟩ :: steps

theorem World.Drifts.refl (world : World) : world.Drifts world := by
  exact ⟨Int.le_refl _, rfl, rfl, rfl⟩

theorem sequentialRun_sequence (start : World) (script : List (Nat × Operation))
    (concerns : ∀ entry ∈ script, entry.2.concerns name) :
    SequentialRun name start (sequence start script) (((sequence start script).head?.map (·.after)).getD start) := by
  induction script with
  | nil => exact .start
  | cons entry earlier ih =>
    refine .step _ (ih fun other member => concerns other (by simp [member])) ?_
      (concerns entry (by simp)) (Prog.runs_run Drifts.refl _ _)
    exact ⟨Int.le_add_of_nonneg_right (Int.natCast_nonneg _), rfl, rfl, rfl⟩

def defaultService : Service :=
  ⟨{}, fun _ => {}, []⟩

def expiryScript : List (Nat × Operation) :=
  [(60000000, .shouldAllowWithState defaultService "db"),
    (0, .forceOpen defaultService "db" "maintenance" false (some 1))]

theorem expired_block_admits :
    SequentialRun "db" (initial 0) (sequence (initial 0) expiryScript)
        (((sequence (initial 0) expiryScript).head?.map (·.after)).getD (initial 0)) ∧
      liftsSinceForce "db" (sequence (initial 0) expiryScript) = 1 ∧
      ∃ decision, ((sequence (initial 0) expiryScript).head?.map (·.result)) =
        some (.decision decision) ∧ decision.allowed = true := by
  have run : SequentialRun "db" (initial 0) (sequence (initial 0) expiryScript)
      (((sequence (initial 0) expiryScript).head?.map (·.after)).getD (initial 0)) := by
    refine sequentialRun_sequence _ _ fun entry member => ?_
    simp only [expiryScript, List.mem_cons, List.not_mem_nil, or_false] at member
    rcases member with rfl | rfl <;> rfl
  refine ⟨run, by decide +kernel, ?_⟩
  obtain ⟨_, _, _, granted⟩ := admission_from_open_when_due rfl rfl run fun taken member => by
    intro failure
    simp only [sequence, List.mem_cons, List.not_mem_nil, or_false] at member
    rcases member with rfl | rfl <;> simp [OperationStep.isFailure] at failure
  obtain ⟨decision, answered, allowed⟩ := granted defaultService 60000000 rfl (Or.inl (by decide +kernel))
    (by decide +kernel) (by decide +kernel) rfl
  exact ⟨decision, congrArg some answered, allowed⟩

def expiryInstant : List (Nat × Operation) :=
  [(0, .shouldAllowWithState defaultService "db"), (0, .recordFailure defaultService "db")] ++ expiryScript

/-- The failure re-opens the row at the expiry itself, which reads as the operator's block again:
one forced open is lifted twice. -/
theorem block_lifted_twice_at_expiry :
    SequentialRun "db" (initial 0) (sequence (initial 0) expiryInstant)
        (((sequence (initial 0) expiryInstant).head?.map (·.after)).getD (initial 0)) ∧
      ((sequence (initial 0) expiryInstant).filter (·.forces)).length = 1 ∧
      liftsSinceForce "db" (sequence (initial 0) expiryInstant) = 2 := by
  refine ⟨sequentialRun_sequence _ _ fun entry member => ?_, by decide +kernel, by decide +kernel⟩
  simp only [expiryInstant, expiryScript, cons_append, nil_append, mem_cons, not_mem_nil, or_false] at member
  rcases member with rfl | rfl | rfl | rfl <;> rfl

end Baldur.CircuitBreaker
