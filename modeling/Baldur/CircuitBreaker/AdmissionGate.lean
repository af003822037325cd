import Baldur.CircuitBreaker.SystemCore
import Baldur.Lib.Sequential

/-!
What the operations, one after another, make of the fields that decide about admission from OPEN.
-/

namespace Baldur.CircuitBreaker

open Prog

variable {name : String} {world : World} {call : RepoCall}

structure Gate where
  state : CircuitState := .closed
  pinned : Bool := false
  expiresAt : Option Time := none
  openedAt : Option Time := none
  deriving DecidableEq

namespace Gate

def pinActive (gate : Gate) (now : Time) : Bool :=
  manualPinIsActive gate.pinned gate.expiresAt now

def liftDue (gate : Gate) (now : Time) : Bool :=
  gate.pinned && gate.state = .opened &&
    match gate.expiresAt with
    | none => false
    | some expiry => decide (expiry ≤ now) &&
        match gate.openedAt with
        | none => true
        | some openedAt => decide (openedAt ≤ expiry)

def recovered (gate : Gate) (recoveryTimeout : Int) (now : Time) : Prop :=
  ∃ openedAt, gate.openedAt = some openedAt ∧ seconds recoveryTimeout ≤ now - openedAt

variable {gate : Gate} {earlier later : Time}

theorem pinActive_antitone (order : earlier ≤ later) (lapsed : gate.pinActive earlier = false) :
    gate.pinActive later = false := by
  unfold pinActive manualPinIsActive at *
  cases expires : gate.expiresAt with
  | none => simpa [expires] using lapsed
  | some =>
    simp only [expires, Bool.and_eq_false_iff, decide_eq_false_iff_not, Int.not_lt] at lapsed ⊢
    exact lapsed.imp_right fun passed => Int.le_trans passed order

theorem liftDue_mono (order : earlier ≤ later) (due : gate.liftDue earlier = true) : gate.liftDue later = true := by
  unfold liftDue at *
  cases expires : gate.expiresAt with
  | none => simp [expires] at due
  | some =>
    simp only [expires, Bool.and_eq_true, decide_eq_true_eq] at due ⊢
    exact ⟨due.1, Int.le_trans due.2.1 order, due.2.2⟩

theorem recovered_mono {recoveryTimeout : Int} (order : earlier ≤ later)
    (passed : gate.recovered recoveryTimeout earlier) :
    gate.recovered recoveryTimeout later := by
  obtain ⟨openedAt, opened, elapsed⟩ := passed
  exact ⟨openedAt, opened, Int.le_trans elapsed (Int.sub_le_sub_right order openedAt)⟩

end Gate

def CircuitBreakerStateData.gate (row : Row) : Gate :=
  ⟨row.state, row.manuallyControlled, row.manualOverrideExpiresAt, row.openedAt⟩

theorem isPinLiftDue_eq (row : Row) (now : Time) : isPinLiftDue row now = row.gate.liftDue now := by
  rfl

open CircuitBreakerStateData Service World

theorem isOperatorBlockInForce_eq (row : Row) (now : Time) :
    isOperatorBlockInForce row now = (decide (row.state = .opened) && row.gate.pinActive now) := by
  unfold isOperatorBlockInForce isPinActive Gate.pinActive manualPinIsActive
  simp only [gate]
  cases row.manuallyControlled <;> simp

theorem Gate.pinActive_of_liftDue {gate : Gate} {now : Time} (due : gate.liftDue now = true) :
    gate.pinActive now = false := by
  unfold liftDue at due
  unfold pinActive manualPinIsActive
  cases expires : gate.expiresAt with
  | none => simp [expires] at due
  | some expiry =>
    simp only [expires, Bool.and_eq_true, decide_eq_true_eq] at due
    have passed : ¬now < expiry := Int.not_lt.mpr due.2.1
    simp [passed]

def gateOf (name : String) (world : World) : Gate :=
  ((world.storage.find name).map (·.gate)).getD {}

theorem gateOf_eq_entry (name : String) (world : World) :
    gateOf name world = (InMemory.entry world.storage name world.clock).gate := by
  unfold gateOf InMemory.entry
  cases world.storage.find name <;> rfl

theorem gateOf_creating (targets : call.target = some name) (creates : call.creates = some name) :
    gateOf name (exec (.repo call) world).1 =
      (call.onRow world.clock (InMemory.entry world.storage name world.clock)).gate := by
  simp only [gateOf, exec, InMemory.find_exec, targets, if_true, RepoCall.rewrite, creates]
  rfl

theorem gateOf_stored (change : Gate → Gate) (targets : call.target = some name) (creates : call.creates = none)
    (onRow : ∀ now row, (call.onRow now row).gate = change row.gate)
    (fresh : world.storage.find name = none → change {} = {}) :
    gateOf name (exec (.repo call) world).1 = change (gateOf name world) := by
  simp only [gateOf, exec, InMemory.find_exec, targets, if_true, RepoCall.rewrite, creates]
  cases found : world.storage.find name with
  | none => exact (fresh found).symm
  | some row => exact onRow _ row

theorem gateOf_elsewhere (elsewhere : call.target ≠ some name) :
    gateOf name (exec (.repo call) world).1 = gateOf name world := by
  simp only [gateOf, exec, InMemory.find_exec, elsewhere, if_false]

/-- What an automatic operation may make of a gate. Only the recording of a failure may re-open it. -/
inductive Effect (failing : Bool) (start finish : Time) (gate : Gate) : Gate → Prop
  | same : Effect failing start finish gate gate
  | trial (opened : gate.state = .opened) (free : gate.pinned = false) :
      Effect failing start finish gate { gate with state := .halfOpen }
  | close (tried : gate.state = .halfOpen) :
      Effect failing start finish gate { gate with state := .closed, openedAt := none }
  | reopen (fails : failing = true) (tried : gate.state = .halfOpen) (instant : Time)
      (lower : start ≤ instant) (upper : instant ≤ finish) :
      Effect failing start finish gate { gate with state := .opened, openedAt := some instant }
  | trip (instant : Time) (closed : gate.state = .closed) :
      Effect failing start finish gate ⟨.opened, false, none, some instant⟩
  | expire (instant : Time) (lapsed : gate.pinActive instant = false)
      (undue : gate.liftDue instant = false) :
      Effect failing start finish gate { gate with pinned := false, expiresAt := none }

theorem Effect.widen {failing : Bool} {start finish earlier later : Time} {gate after : Gate}
    (lower : earlier ≤ start) (upper : finish ≤ later)
    (effect : Effect failing start finish gate after) : Effect failing earlier later gate after := by
  cases effect with
  | same => exact .same
  | trial opened free => exact .trial opened free
  | close tried => exact .close tried
  | reopen fails tried instant first last =>
    exact .reopen fails tried instant (Int.le_trans lower first) (Int.le_trans last upper)
  | trip instant closed => exact .trip instant closed
  | expire instant lapsed undue => exact .expire instant lapsed undue

structure World.Drifts (before after : World) : Prop where
  clock : before.clock ≤ after.clock
  frozen : after.frozen = before.frozen
  storage : after.storage = before.storage
  window : after.window = before.window

theorem gateOf_drifts {before after : World} (drifts : before.Drifts after) :
    gateOf name after = gateOf name before := by
  simp only [gateOf, drifts.storage]

@[simp] theorem clock_exec (call : ServiceCall) (world : World) : (exec call world).1.clock = world.clock := by
  cases call <;> rfl

@[simp] theorem frozen_exec (call : ServiceCall) (world : World) : (exec call world).1.frozen = world.frozen := by
  cases call <;> rfl

structure Becomes (name : String) (before after : World) (gate : Gate) : Prop where
  clock : before.clock ≤ after.clock
  frozen : after.frozen = before.frozen
  gate : gateOf name after = gate

abbrev Quiet (name : String) (before after : World) : Prop :=
  Becomes name before after (gateOf name before)

variable {first second third : World} {failing : Bool} {before after : World} {gate : Gate}

theorem Becomes.refl (name : String) (world : World) : Quiet name world world := by
  exact ⟨Int.le_refl _, rfl, rfl⟩

theorem World.Drifts.quiet (drifts : before.Drifts after) : Quiet name before after :=
  ⟨drifts.clock, drifts.frozen, gateOf_drifts drifts⟩

theorem Becomes.trans (left : Becomes name first second gate) (right : Quiet name second third) :
    Becomes name first third gate := by
  exact ⟨Int.le_trans left.clock right.clock, right.frozen.trans left.frozen, right.gate.trans left.gate⟩

theorem Becomes.then (left : Quiet name first second) (right : Becomes name second third gate) :
    Becomes name first third gate := by
  exact ⟨Int.le_trans left.clock right.clock, right.frozen.trans left.frozen, right.gate⟩

structure Affects (name : String) (failing : Bool) (before after : World) : Prop where
  clock : before.clock ≤ after.clock
  frozen : after.frozen = before.frozen
  effect : Effect failing before.clock after.clock (gateOf name before) (gateOf name after)

theorem Becomes.affects (quiet : Quiet name before after) : Affects name failing before after := by
  refine ⟨quiet.clock, quiet.frozen, ?_⟩
  rw [quiet.gate]
  exact .same

theorem Becomes.affecting (left : Quiet name first second) (right : Affects name failing second third) :
    Affects name failing first third := by
  refine ⟨Int.le_trans left.clock right.clock, right.frozen.trans left.frozen, ?_⟩
  rw [← left.gate]
  exact right.effect.widen left.clock (Int.le_refl _)

theorem Affects.quiet (left : Affects name failing first second) (right : Quiet name second third) :
    Affects name failing first third := by
  refine ⟨Int.le_trans left.clock right.clock, right.frozen.trans left.frozen, ?_⟩
  rw [right.gate]
  exact left.effect.widen (Int.le_refl _) right.clock

section

variable {α β : Type}

abbrev Does (program : ServiceProg α) (world : World) (post : α → World → Prop) : Prop :=
  Ensures World.exec World.Drifts program world post

abbrev Leads (relation : World → World → Prop) (program : ServiceProg α) : Prop :=
  ∀ world, Does program world fun _ after => relation world after

abbrev Idle (name : String) (program : ServiceProg α) : Prop :=
  Leads (Quiet name) program

abbrev Works (name : String) (failing : Bool) (program : ServiceProg α) : Prop :=
  Leads (Affects name failing) program

variable {program : ServiceProg α} {rest : α → ServiceProg β} {relation : World → World → Prop}

theorem leads_branch {condition : Prop} [Decidable condition] {yes no : ServiceProg α} (first : Leads relation yes)
    (second : Leads relation no) : Leads relation (if condition then yes else no) := by
  exact fun world => ensures_branch (first world) (second world)

theorem idle_ret (value : α) : Idle name (ret value) := by
  exact fun world => ensures_ret (.refl name world)

theorem works_ret (value : α) : Works name failing (ret value) := by
  exact fun world => ensures_ret (Becomes.refl name world).affects

theorem Idle.idle (first : Idle name program) (second : ∀ value, Idle name (rest value)) :
    Idle name (program >>= rest) := by
  exact fun world => (first world).bind fun value during quiet =>
    (second value during).mono fun _ _ later => quiet.trans later

theorem Idle.works (first : Idle name program) (second : ∀ value, Works name failing (rest value)) :
    Works name failing (program >>= rest) := by
  exact fun world => (first world).bind fun value during quiet =>
    (second value during).mono fun _ _ later => quiet.affecting later

theorem Works.idle (first : Works name failing program) (second : ∀ value, Idle name (rest value)) :
    Works name failing (program >>= rest) := by
  exact fun world => (first world).bind fun value during affects =>
    (second value during).mono fun _ _ later => affects.quiet later

end

section

variable (name : String) (service : Service) (world : World)

theorem does_call {call : ServiceCall} (still : ∀ during, gateOf name (exec call during).1 = gateOf name during) :
    Idle name (perform call) := by
  refine fun world => ensures_perform fun during drifts => ⟨?_, ?_, ?_⟩
  · rw [clock_exec]
    exact drifts.clock
  · rw [frozen_exec]
    exact drifts.frozen
  · rw [still, gateOf_drifts drifts]

theorem does_now : Does now world fun instant after => Quiet name world after ∧ instant = after.clock := by
  refine ensures_perform fun during drifts => ⟨?_, rfl⟩
  exact drifts.quiet

theorem does_window (call : WindowCall) : Idle name (window call) := by
  exact does_call name fun _ => rfl

variable (other : String)

theorem does_autoTransitionAllowed (state : CircuitState) :
    Does (autoTransitionAllowed other state) world fun allowed after =>
      Quiet name world after ∧ allowed = !world.frozen := by
  refine ensures_perform fun during drifts => ⟨?_, ?_⟩
  · exact drifts.quiet
  · exact congrArg (!·) drifts.frozen

theorem does_getOrCreate : Does (repo (.getOrCreate name)) world fun row after =>
      Quiet name world after ∧ row.gate = gateOf name world := by
  refine ensures_perform fun during drifts => ?_
  rw [← gateOf_drifts drifts]
  have stored : gateOf name (exec (.repo (.getOrCreate name)) during).1 = gateOf name during := by
    rw [gateOf_creating rfl rfl, gateOf_eq_entry]
    rfl
  refine ⟨⟨?_, ?_, ?_⟩, ?_⟩
  · exact drifts.clock
  · exact drifts.frozen
  · rw [stored, gateOf_drifts drifts]
  · unfold gateOf
    cases found : during.storage.find name with
    | none => simp [exec, InMemory.exec, found, InMemory.freshRow, gate]
    | some => simp [exec, InMemory.exec, found]

variable (row : Row)

theorem does_isManualPinActive : Does (isManualPinActive row) world fun active after =>
      Quiet name world after ∧ active = row.gate.pinActive after.clock := by
  refine (does_now name world).bind fun instant after spent => ensures_ret ?_
  exact ⟨spent.1, by rw [spent.2]; rfl⟩

theorem does_readObserved : Does (readObserved name) world fun found after =>
      Quiet name world after ∧ found.2.gate = gateOf name world := by
  refine (does_window name _ world).bind fun epoch first quiet => ?_
  refine (does_getOrCreate name first).bind fun row second read => ?_
  refine (does_window name _ second).bind fun _ third reported => ensures_ret ?_
  exact ⟨(quiet.trans read.1).trans reported, read.2.trans quiet.gate⟩

theorem idle_isManualPinActive : Idle name (isManualPinActive row) := by
  exact fun world => (does_isManualPinActive name world row).mono fun _ _ checked => checked.1

theorem idle_readObserved : Idle name (readObserved name) := by
  exact fun world => (does_readObserved name world).mono fun _ _ read => read.1

theorem does_recordRejection : Idle name (service.recordRejection name row) := by
  refine (idle_isManualPinActive name row).idle fun active => ?_
  exact leads_branch (idle_ret _) (does_window name _)

theorem does_openRowRefuses (recoveryTimeout : Int) :
    Does (openRowRefuses row recoveryTimeout) world fun refused after =>
      Quiet name world after ∧
        (refused = false → row.state = .opened → row.gate.pinActive after.clock = false ∧
          (row.gate.liftDue after.clock = true ∨ row.gate.recovered recoveryTimeout after.clock)) ∧
        (row.gate.liftDue world.clock = true → refused = false) := by
  refine ensures_ite (fun opened => ?_) fun away => ensures_ret ⟨.refl _ _, ?_, ?_⟩
  · refine (does_now name world).bind fun instant first spent => ?_
    obtain ⟨quiet, rfl⟩ := spent
    refine ensures_ite (fun inForce => ensures_ret ⟨quiet, by simp, fun due => ?_⟩) fun lapsed => ?_
    · have ended := Gate.pinActive_of_liftDue (Gate.liftDue_mono quiet.clock due)
      simp [isOperatorBlockInForce_eq, ended] at inForce
    · have ended : row.gate.pinActive first.clock = false := by
        simpa [isOperatorBlockInForce_eq, opened] using lapsed
      refine (does_now name first).bind fun instant second spent => ?_
      obtain ⟨later, rfl⟩ := spent
      have lifts : ∀ {after : World}, first.clock ≤ after.clock →
          row.gate.pinActive after.clock = false := fun order => Gate.pinActive_antitone order ended
      refine ensures_ite (fun due => ensures_ret ⟨quiet.trans later, ?_, fun _ => rfl⟩) fun undue => ?_
      · exact fun _ _ => ⟨lifts later.clock, Or.inl due⟩
      · have waits : row.gate.liftDue world.clock ≠ true := fun due =>
          undue (Gate.liftDue_mono (Int.le_trans quiet.clock later.clock) due)
        cases since : row.openedAt with
        | none => exact ensures_ret ⟨quiet.trans later, by simp, fun due => absurd due waits⟩
        | some openedAt =>
          refine (does_now name second).bind fun instant third spent => ensures_ret ?_
          obtain ⟨last, rfl⟩ := spent
          refine ⟨(quiet.trans later).trans last, fun passed _ => ⟨?_, Or.inr ?_⟩, fun due =>
            absurd due waits⟩
          · exact lifts (Int.le_trans later.clock last.clock)
          · refine ⟨openedAt, since, ?_⟩
            simpa using passed
  · exact fun _ opened => absurd opened away
  · intro _
    rfl

theorem does_admissionRefusalReason (unfrozen : world.frozen = false) :
    Does (service.admissionRefusalReason name row) world fun reason after =>
      Quiet name world after ∧
        (reason = none → row.state = .opened → row.gate.pinActive after.clock = false ∧
          (row.gate.liftDue after.clock = true ∨
            row.gate.recovered (service.effectiveConfig name).recoveryTimeout after.clock)) ∧
        (row.gate.liftDue world.clock = true → reason = none) := by
  refine (does_openRowRefuses name world row _).bind fun refused first found => ?_
  obtain ⟨quiet, passes, never⟩ := found
  refine ensures_ite (fun refuses => ensures_ret ⟨quiet, by simp, fun due => ?_⟩) fun open' => ?_
  · simp [never due] at refuses
  · refine (does_autoTransitionAllowed name first name .halfOpen).bind fun allowed second checked => ?_
    obtain ⟨later, rfl⟩ := checked
    have thawed : first.frozen = false := quiet.frozen.trans unfrozen
    simp only [thawed, Bool.not_false, if_true]
    refine ensures_ret ⟨quiet.trans later, fun _ opened => ?_, fun _ => rfl⟩
    obtain ⟨ended, reason⟩ := passes (by simpa using open') opened
    refine ⟨Gate.pinActive_antitone later.clock ended, ?_⟩
    exact reason.imp (Gate.liftDue_mono later.clock) (Gate.recovered_mono later.clock)

theorem does_creating (targets : call.target = some name)
    (creates : call.creates = some name) {post : call.Answer → World → Prop}
    (holds : ∀ during, Quiet name world during →
      Becomes name world (exec (.repo call) during).1
        (call.onRow during.clock (InMemory.entry during.storage name during.clock)).gate →
      post (exec (.repo call) during).2 (exec (.repo call) during).1) :
    Does (repo call) world post := by
  refine ensures_perform fun during drifts => ?_
  refine holds during drifts.quiet ⟨?_, ?_, ?_⟩
  · exact drifts.clock
  · exact drifts.frozen
  · exact gateOf_creating targets creates

theorem gate_tryAcquire (limit stuck : Int) (now : Time) :
    (row.tryAcquireHalfOpenSlot limit stuck now).1.gate =
        (if row.state = .opened then { row.gate with state := .halfOpen } else row.gate) ∧
      (row.state = .opened → (row.tryAcquireHalfOpenSlot limit stuck now).2.allowed = true) := by
  unfold tryAcquireHalfOpenSlot
  cases state : row.state with
  | halfOpen =>
    refine ⟨?_, by simp⟩
    simp only [reduceCtorEq, if_false]
    split
    · split
      · simp [gate, startHalfOpenWindow, state]
      · rfl
    · simp [gate, state]
  | opened => exact ⟨rfl, fun _ => rfl⟩
  | closed => exact ⟨rfl, by simp⟩

theorem does_acquireTrial : Does (service.acquireTrial name row) world fun decision after =>
      Becomes name world after (if (gateOf name world).state = .opened then
          { gateOf name world with state := .halfOpen } else gateOf name world) ∧
        ((gateOf name world).state = .opened → decision.allowed = true) := by
  have acquires : Does (repo (.tryAcquireHalfOpenSlot name
      (service.effectiveConfig name).halfOpenMaxCalls
      (service.effectiveConfig name).halfOpenStuckTimeoutSeconds)) world fun attempt after =>
      Becomes name world after (if (gateOf name world).state = .opened then
          { gateOf name world with state := .halfOpen } else gateOf name world) ∧
        ((gateOf name world).state = .opened → attempt.allowed = true) := by
    refine does_creating name world rfl rfl fun during quiet becomes => ?_
    have effect := gate_tryAcquire (InMemory.entry during.storage name during.clock)
      (service.effectiveConfig name).halfOpenMaxCalls
      (service.effectiveConfig name).halfOpenStuckTimeoutSeconds during.clock
    have entry : (InMemory.entry during.storage name during.clock).gate = gateOf name world := by
      rw [← gateOf_eq_entry, quiet.gate]
    have state : (InMemory.entry during.storage name during.clock).state =
        (gateOf name world).state := congrArg Gate.state entry
    rw [entry, state] at effect
    refine ⟨⟨becomes.clock, becomes.frozen, becomes.gate.trans effect.1⟩, effect.2⟩
  refine acquires.bind fun attempt first taken => ?_
  refine (does_window name _ first).bind fun _ second quiet => ?_
  refine ensures_branch ?_ (ensures_ret ⟨taken.1.trans quiet, taken.2⟩)
  refine (does_recordRejection name service _ second).bind fun _ third rejected => ?_
  exact ensures_ret ⟨(taken.1.trans quiet).trans rejected, taken.2⟩

theorem does_shouldAllowWithState (unfrozen : world.frozen = false) :
    Does (service.shouldAllowWithState name) world fun decision after =>
      world.clock ≤ after.clock ∧ after.frozen = world.frozen ∧
        (gateOf name after = gateOf name world ∨
          (gateOf name world).state = .opened ∧
            gateOf name after = { gateOf name world with state := .halfOpen } ∧
            (gateOf name world).pinActive after.clock = false ∧
            ((gateOf name world).liftDue after.clock = true ∨ (gateOf name world).recovered
              (service.effectiveConfig name).recoveryTimeout after.clock)) ∧
        ((gateOf name world).liftDue world.clock = true →
          service.downstreamAllows name = true → decision.allowed = true) := by
  refine ensures_branch (ensures_ite (fun _ => ?_) fun refused => ?_) ?_
  · refine (does_readObserved name world).bind fun found first read => ?_
    obtain ⟨quiet, seen⟩ := read
    have state : found.2.state = (gateOf name world).state := congrArg Gate.state seen
    refine ensures_ite (fun closed => ensures_ret ?_) fun away => ?_
    · exact ⟨quiet.clock, quiet.frozen, Or.inl quiet.gate, fun _ _ => rfl⟩
    refine (does_admissionRefusalReason name service first found.2
      (quiet.frozen.trans unfrozen)).bind fun reason second decided => ?_
    obtain ⟨later, passes, never⟩ := decided
    rw [seen, state] at passes
    rw [seen] at never
    have elapsed := quiet.trans later
    cases reason with
    | some =>
      refine (does_recordRejection name service found.2 second).bind fun _ third rejected => ?_
      refine ensures_ret ⟨(elapsed.trans rejected).clock, (elapsed.trans rejected).frozen,
        Or.inl (elapsed.trans rejected).gate, fun due => ?_⟩
      simpa using never (Gate.liftDue_mono quiet.clock due)
    | none =>
      refine (does_acquireTrial name service second found.2).mono fun decision after taken => ?_
      have becomes := elapsed.then taken.1
      rw [elapsed.gate] at becomes
      have granted := taken.2
      rw [elapsed.gate] at granted
      refine ⟨becomes.clock, becomes.frozen, ?_, fun due _ => granted ?_⟩
      · by_cases opened : (gateOf name world).state = .opened
        · obtain ⟨ended, reason⟩ := passes rfl opened
          have order := taken.1.clock
          refine .inr ⟨opened, by simpa [opened] using becomes.gate, Gate.pinActive_antitone order ended, ?_⟩
          exact reason.imp (Gate.liftDue_mono order) (Gate.recovered_mono order)
        · exact .inl (by simpa [opened] using becomes.gate)
      · simp only [Gate.liftDue, Bool.and_eq_true, decide_eq_true_eq] at due
        exact due.1.2
  · refine (does_getOrCreate name world).bind fun row first read => ensures_ret ?_
    exact ⟨read.1.clock, read.1.frozen, Or.inl read.1.gate, fun _ allows => absurd allows refused⟩
  · refine (does_getOrCreate name world).bind fun row first read => ensures_ret ?_
    exact ⟨read.1.clock, read.1.frozen, Or.inl read.1.gate, fun _ _ => rfl⟩

theorem does_affecting (targets : call.target = some name) (creates : call.creates = some name)
    (effect : ∀ now row, Effect failing now now row.gate (call.onRow now row).gate) :
    Works name failing (repo call) := by
  refine fun world => does_creating name world targets creates fun during quiet becomes => ?_
  refine ⟨becomes.clock, becomes.frozen, ?_⟩
  have changed := effect during.clock (InMemory.entry during.storage name during.clock)
  rw [← gateOf_eq_entry, quiet.gate] at changed
  rw [becomes.gate, clock_exec]
  exact changed.widen quiet.clock (Int.le_refl _)

theorem effect_openCheck (now : Time) (row : Row) :
    Effect true now now row.gate (row.recordFailureWithOpenCheck now).1.gate := by
  unfold recordFailureWithOpenCheck
  split
  · rename_i tried
    exact .reopen rfl tried now (Int.le_refl _) (Int.le_refl _)
  · exact .same

theorem effect_closeCheck (failing : Bool) (threshold : Int) (now : Time) (row : Row) :
    Effect failing now now row.gate (row.recordSuccessWithCloseCheck threshold now).1.gate := by
  unfold recordSuccessWithCloseCheck
  dsimp only
  split
  · rename_i closes
    exact .close closes.1
  · exact .same

theorem effect_tripToOpen (failing : Bool) (failures : Int) (now : Time) (row : Row) :
    Effect failing now now row.gate (row.tripToOpen failures now).1.gate := by
  unfold tripToOpen
  split
  · exact .same
  · split
    · exact .same
    · rename_i closed
      exact .trip now (not_not.mp closed)

theorem idle_autoTransitionAllowed (state : CircuitState) : Idle name (autoTransitionAllowed other state) := by
  exact fun world => (does_autoTransitionAllowed name world other state).mono fun _ _ checked => checked.1

theorem does_tripCircuitOpen (updated : Row) : Works name true (tripCircuitOpen name updated) := by
  have trips : Works name true (repo (.tripToOpen name updated.failureCount)) :=
    does_affecting name rfl rfl (effect_tripToOpen _ _)
  refine trips.idle fun attempt => ?_
  cases attempt.state with
  | pinned | stored => exact (does_window name _).idle fun _ => idle_ret _
  | missing => exact idle_ret _

theorem does_failTrial : Works name true (failTrial name) := by
  refine (idle_autoTransitionAllowed name name .opened).works fun allowed => leads_branch ?_ (works_ret _)
  have fails : Works name true (repo (.recordFailureWithOpenCheck name)) :=
    does_affecting name rfl rfl effect_openCheck
  refine fails.idle fun attempt => ?_
  cases attempt.state with
  | stored => exact (does_window name _).idle fun _ => idle_ret _
  | missing | pinned => exact idle_ret _

theorem does_countFailure : Works name true (service.countFailure name) := by
  have counts : Idle name (repo (.recordFailure name)) := by
    refine fun world => does_creating name world rfl rfl fun during quiet becomes => ?_
    refine ⟨becomes.clock, becomes.frozen, becomes.gate.trans ?_⟩
    rw [← quiet.gate, gateOf_eq_entry]
    rfl
  refine (does_window name _).works fun _ => counts.works fun updated => ?_
  refine (does_window name _).works fun _ => (does_window name _).works fun _ => ?_
  refine leads_branch ?_ ((does_window name _).works fun _ => works_ret _)
  refine (does_window name _).works fun _ => (does_window name _).works fun evidence => ?_
  refine leads_branch ?_ (works_ret _)
  refine (idle_autoTransitionAllowed name name .opened).works fun allowed => leads_branch ?_ (works_ret _)
  exact (does_tripCircuitOpen name updated).idle fun _ => idle_ret _

theorem does_recordFailure : Works name true (service.recordFailure name) := by
  refine leads_branch ?_ (works_ret _)
  refine (idle_readObserved name).works fun found => ?_
  refine (idle_isManualPinActive name found.2).works fun active => ?_
  refine leads_branch (works_ret _) (leads_branch ?_ ?_)
  · exact does_failTrial name
  · exact does_countFailure name service

theorem does_recordSuccessByHint (hintState : Option Row) (hintEpoch : Option Nat) :
    Idle name (service.recordSuccessByHint name hintState hintEpoch) := by
  cases hintState with
  | none => exact idle_ret _
  | some hint =>
    cases hintEpoch with
    | none => exact idle_ret _
    | some =>
      refine leads_branch ?_ (idle_ret _)
      refine (idle_isManualPinActive name hint).idle fun active => ?_
      exact leads_branch (idle_ret _) (leads_branch (does_window name _) (idle_ret _))

theorem does_succeedTrial : Works name false (service.succeedTrial name) := by
  refine (idle_autoTransitionAllowed name name .closed).works fun allowed => leads_branch ?_ (works_ret _)
  have succeeds : Works name false (repo (.recordSuccessWithCloseCheck name
      (service.effectiveConfig name).successThreshold)) :=
    does_affecting name rfl rfl (effect_closeCheck _ _)
  refine succeeds.idle fun attempt => ?_
  cases attempt.state with
  | stored => exact (does_window name _).idle fun _ => idle_ret _
  | missing | pinned => exact idle_ret _

theorem does_countReset :
    Idle name (repo (.updateState name { state := .closed, failureCount := some 0, keepOpen := true })) := by
  refine does_call name fun during => gateOf_stored id rfl rfl (fun now row => ?_) fun _ => rfl
  simp only [RepoCall.onRow, updateState, Bool.false_and, Bool.true_and,
    Bool.false_eq_true, if_false, decide_eq_true_eq]
  split
  · rfl
  · rename_i closed
    simp [CircuitBreakerStateData.gate, not_not.mp closed]

theorem does_recordSuccess (hintState : Option Row) (hintEpoch : Option Nat) :
    Works name false (service.recordSuccess name hintState hintEpoch) := by
  refine leads_branch ?_ (works_ret _)
  refine (does_recordSuccessByHint name service hintState hintEpoch).works fun recorded => ?_
  refine leads_branch (works_ret _) ?_
  refine (idle_readObserved name).works fun found => ?_
  refine (idle_isManualPinActive name found.2).works fun active => leads_branch (works_ret _) ?_
  cases found.2.state with
  | halfOpen => exact does_succeedTrial name service
  | opened => exact works_ret _
  | closed =>
    refine (does_window name _).works fun _ => leads_branch ?_ (works_ret _)
    exact (does_countReset name).works fun _ => works_ret _

theorem does_getAllStates :
    Does (repo .getAllStates) world fun rows after => Quiet name world after ∧
      ∀ row ∈ rows, row.serviceName = name → row.gate = gateOf name world := by
  refine ensures_perform fun during drifts => ⟨?_, fun row member named => ?_⟩
  · exact drifts.quiet
  · have found := (Table.mem_entries_iff during.storage row).mp member
    rw [← gateOf_drifts drifts, gateOf, ← named, found]
    rfl

theorem does_dueForRecovery (rows : List Row) :
    Does (service.dueForRecovery rows) world fun due after =>
      Quiet name world after ∧ ∀ row ∈ due, row ∈ rows := by
  refine ensures_foldlM (fun due row during member holds => ?_) ⟨.refl _ _, by simp⟩
  obtain ⟨quiet, within⟩ := holds
  cases row.openedAt with
  | none => exact ensures_ret ⟨quiet, within⟩
  | some =>
    refine (does_now name during).bind fun instant after spent => ?_
    refine ensures_ite (fun _ => ensures_ret ⟨quiet.trans spent.1, ?_⟩)
      fun _ => ensures_ret ⟨quiet.trans spent.1, within⟩
    exact List.forall_mem_append.mpr ⟨within, List.forall_mem_singleton.mpr member⟩

variable {during : World}

theorem gateOf_sweep (stored : (gateOf name during).state ≠ .closed) :
    gateOf name (exec (.repo (.updateState name { state := .halfOpen, successCount := some 0 }))
      during).1 = { gateOf name during with state := .halfOpen } := by
  refine gateOf_stored ({ · with state := .halfOpen }) rfl rfl (fun now row => ?_) fun absent => ?_
  · simp [RepoCall.onRow, updateState, CircuitBreakerStateData.gate]
  · simp [gateOf, absent] at stored

/-- One turn of the recovery sweep: the row is as it was found, or was unpinned and OPEN and is HALF_OPEN. -/
def Swept (name : String) (before after : World) : Prop :=
  before.clock ≤ after.clock ∧ after.frozen = before.frozen ∧
    (gateOf name after = gateOf name before ∨
      (gateOf name before).state = .opened ∧ (gateOf name before).pinned = false ∧
        gateOf name after = { gateOf name before with state := .halfOpen })

theorem Swept.affects {name : String} (swept : Swept name before after) : Affects name failing before after := by
  obtain ⟨clock, frozen, same | ⟨opened, free, moved⟩⟩ := swept
  · exact ⟨clock, frozen, same ▸ .same⟩
  · exact ⟨clock, frozen, moved ▸ .trial opened free⟩

theorem does_sweepRow (done : List String)
    (due : row.serviceName = name → (gateOf name world).state = .opened ∧ (gateOf name world).pinned = false)
    (swept : Swept name world during) :
    Does (do
      let _ ← repo (.updateState row.serviceName { state := .halfOpen, successCount := some 0 })
      return done ++ [row.serviceName]) during fun _ after => Swept name world after := by
  obtain ⟨clock, frozen, gates⟩ := swept
  refine Prog.Ensures.bind (ensures_perform fun later drifts => ?_)
    fun _ after (holds : Swept name world after) => ensures_ret holds
  have gate : gateOf name later = gateOf name during := gateOf_drifts drifts
  refine ⟨Int.le_trans clock drifts.clock, drifts.frozen.trans frozen, ?_⟩
  by_cases named : row.serviceName = name
  · obtain ⟨opened, free⟩ := due named
    have stored : (gateOf name later).state ≠ .closed := by
      rw [gate]
      rcases gates with same | ⟨_, _, moved⟩
      · simp [same, opened]
      · simp [moved]
    refine .inr ⟨opened, free, ?_⟩
    rw [named, gateOf_sweep name stored, gate]
    rcases gates with same | ⟨_, _, moved⟩
    · rw [same]
    · rw [moved]
  · rw [gateOf_elsewhere (by simpa [RepoCall.target] using named), gate]
    exact gates

theorem does_checkRecoveryTransitions : Works name false service.checkRecoveryTransitions := by
  refine leads_branch (fun world => ?_) (works_ret _)
  refine (does_getAllStates name world).bind fun rows first read => ?_
  refine (does_dueForRecovery name service first _).bind fun due second selected => ?_
  refine (does_autoTransitionAllowed name second "*" .halfOpen).bind fun allowed third checked => ?_
  have quiet := (read.1.trans selected.1).trans checked.1
  refine ensures_branch ?_ (ensures_ret quiet.affects)
  have unpinned : ∀ row ∈ due, row.serviceName = name →
      (gateOf name third).state = .opened ∧ (gateOf name third).pinned = false := by
    intro row member named
    have listed := selected.2 row member
    simp only [List.mem_filter, Bool.and_eq_true, decide_eq_true_eq, Bool.not_eq_true'] at listed
    rw [quiet.gate, ← read.2 row listed.1 named]
    exact listed.2
  refine Prog.Ensures.bind (ensures_foldlM (fun done row during member swept => ?_) ?_)
    fun done fourth (swept : Swept name third fourth) => ensures_ret (quiet.affecting swept.affects)
  · exact does_sweepRow name third row done (unpinned row member) swept
  · exact ⟨Int.le_refl _, rfl, Or.inl rfl⟩

/-- One turn of the expiry sweep: an override that had lapsed with no lift due may be cleared. -/
def Expired (name : String) (before after : World) : Prop :=
  before.clock ≤ after.clock ∧ after.frozen = before.frozen ∧
    (gateOf name after = gateOf name before ∨
      ∃ instant, (gateOf name before).pinActive instant = false ∧
        (gateOf name before).liftDue instant = false ∧
        gateOf name after = { gateOf name before with pinned := false, expiresAt := none })

theorem Expired.affects {name : String} (expired : Expired name before after) : Affects name failing before after := by
  obtain ⟨clock, frozen, same | ⟨instant, lapsed, undue, cleared⟩⟩ := expired
  · exact ⟨clock, frozen, same ▸ .same⟩
  · exact ⟨clock, frozen, cleared ▸ .expire instant lapsed undue⟩

theorem Expired.quiet {name : String} (left : Expired name first second) (right : Quiet name second third) :
    Expired name first third := by
  refine ⟨Int.le_trans left.1 right.clock, right.frozen.trans left.2.1, ?_⟩
  rw [right.gate]
  exact left.2.2

theorem does_getByServiceName : Does (repo (.getByServiceName other)) world fun stored after =>
      Quiet name world after ∧ stored = after.storage.find other := by
  refine ensures_perform fun during drifts => ⟨?_, rfl⟩
  exact drifts.quiet

theorem gateOf_clear (flagged : (gateOf name during).pinned = true) :
    gateOf name (exec (.repo (.clearManualControl name true)) during).1 =
      { gateOf name during with pinned := false, expiresAt := none } := by
  refine gateOf_stored ({ · with pinned := false, expiresAt := none }) rfl rfl (fun _ _ => rfl) fun absent => ?_
  simp [gateOf, absent] at flagged

theorem does_expireOverride (expired : Expired name world during) :
    Does (expireOverride other) during fun _ after => Expired name world after := by
  refine (does_getByServiceName name during other).bind fun stored first read => ?_
  obtain ⟨quiet, rfl⟩ := read
  cases found : first.storage.find other with
  | none => exact ensures_ret (expired.quiet quiet)
  | some fresh =>
    have named : fresh.serviceName = other := Table.key_of_find found
    refine ensures_ite (fun flagged => ?_) fun _ => ensures_ret (expired.quiet quiet)
    refine (does_isManualPinActive name first fresh).bind fun active second checked => ?_
    have upTo := expired.quiet (quiet.trans checked.1)
    refine ensures_ite (fun _ => ensures_ret upTo) fun lapsed => ?_
    refine (does_now name second).bind fun instant third spent => ?_
    obtain ⟨later, rfl⟩ := spent
    refine ensures_ite (fun _ => ensures_ret (upTo.quiet later)) fun undue => ?_
    refine Prog.Ensures.bind (ensures_perform fun clearing drifts => ?_)
      fun _ after (holds : Expired name world after) => ensures_ret holds
    have gate : gateOf name clearing = gateOf name third := gateOf_drifts drifts
    obtain ⟨clock, frozen, gates⟩ := upTo.quiet later
    refine ⟨Int.le_trans clock drifts.clock, drifts.frozen.trans frozen, ?_⟩
    by_cases same : other = name
    · subst same
      have seen : fresh.gate = gateOf other third := by
        rw [later.gate, checked.1.gate, gateOf, found]
        rfl
      rw [named, gateOf_clear other (by rw [gate, ← seen]; exact flagged), gate]
      rcases gates with unchanged | ⟨_, _, _, cleared⟩
      · refine .inr ⟨third.clock, ?_, ?_, by rw [unchanged]⟩
        · rw [← unchanged, ← seen]
          exact Gate.pinActive_antitone later.clock (by rw [← checked.2]; simpa using lapsed)
        · rw [← unchanged, ← seen]
          simpa [isPinLiftDue_eq] using undue
      · rw [← seen] at cleared
        have free : fresh.gate.pinned = false := by rw [cleared]
        exact absurd flagged (by simpa [CircuitBreakerStateData.gate] using free)
    · rw [named, gateOf_elsewhere (by simpa [RepoCall.target] using same), gate]
      exact gates

theorem does_checkAndExpireManualOverrides : Works name false checkAndExpireManualOverrides := by
  refine fun world => (does_getAllStates name world).bind fun rows first read => ?_
  refine (does_now name first).bind fun instant second spent => ?_
  refine Prog.Ensures.mono (ensures_foldlM (fun expired row during _ holds => ?_) ?_)
    fun _ after (holds : Expired name second after) =>
      (read.1.trans spent.1).affecting holds.affects
  · refine ensures_branch ?_ (ensures_ret holds)
    refine (does_expireOverride name second row.serviceName holds).bind fun cleared after kept => ?_
    exact ensures_branch (ensures_ret kept) (ensures_ret kept)
  · exact ⟨Int.le_refl _, rfl, Or.inl rfl⟩

theorem does_checkKillSwitch (overridden : Bool) : Does (checkKillSwitch name overridden) world fun blocked after =>
      Quiet name world after ∧ ∀ result ∈ blocked, result.success = false := by
  refine (does_call name (fun _ => rfl) world).bind fun enabled first quiet => ?_
  refine ensures_ite (fun _ => ensures_ret ⟨quiet, by simp⟩) fun _ => ?_
  exact ensures_ret ⟨quiet, by simp⟩

theorem does_finishForce (result : ForceResult) (already changed : String) :
    Does (finishForce name result already changed) world fun outcome after =>
      Quiet name world after ∧ outcome.success = true := by
  have readsBack : Does (readBackOverrideExpiry name) world fun _ after => Quiet name world after := by
    exact (does_getByServiceName name world name).bind fun _ _ read => ensures_ret read.1
  refine readsBack.bind fun expiresAt first quiet₁ => ?_
  refine (does_window name _ first).bind fun _ second quiet₂ => ?_
  refine (does_call name (fun during => ?_) second).bind fun _ third quiet₃ => ensures_ret ?_
  · exact gateOf_stored id rfl rfl (fun _ _ => rfl) fun _ => rfl
  · exact ⟨(quiet₁.trans quiet₂).trans quiet₃, rfl⟩

theorem success_of_rejected {ttl : Option Int} {rejected : CircuitBreakerResult}
    (found : rejectOutOfRangeTtl name ttl = some rejected) : rejected.success = false := by
  unfold rejectOutOfRangeTtl at found
  cases ttl with
  | none => simp at found
  | some =>
    simp only at found
    split at found
    · rw [Option.some.injEq] at found
      rw [← found]
    · simp at found

theorem does_forceOpen (reason : String) (overridden : Bool) (ttl : Option Int) :
    Does (service.forceOpen name reason overridden ttl) world fun result after =>
      world.clock ≤ after.clock ∧ after.frozen = world.frozen ∧
        (result.success = false ∧ gateOf name after = gateOf name world ∨
          result.success = true ∧ ∃ instant, instant ≤ after.clock ∧
            gateOf name after = ⟨.opened, true, resolveManualOverrideExpiry
              (some (ttl.getD service.config.manualOverrideTtlMinutes)) instant, some instant⟩) := by
  unfold forceOpen forceBy
  cases rejects : rejectOutOfRangeTtl name ttl with
  | some =>
    have failed := success_of_rejected name rejects
    exact ensures_ret ⟨Int.le_refl _, rfl, Or.inl ⟨failed, rfl⟩⟩
  | none =>
    refine (does_checkKillSwitch name world overridden).bind fun blocked first checked => ?_
    obtain ⟨quiet, fails⟩ := checked
    cases blocked with
    | some result =>
      exact ensures_ret ⟨quiet.clock, quiet.frozen, Or.inl ⟨fails result rfl, quiet.gate⟩⟩
    | none =>
      have forces : Does (repo (.atomicForceOpen name reason none
          (some (ttl.getD service.config.manualOverrideTtlMinutes)))) first fun result after =>
          result.success = true ∧ ∃ instant, instant ≤ after.clock ∧ Becomes name first after
            ⟨.opened, true, resolveManualOverrideExpiry
              (some (ttl.getD service.config.manualOverrideTtlMinutes)) instant, some instant⟩ := by
        refine does_creating name first rfl rfl fun during _ becomes => ⟨rfl, during.clock, ?_, becomes⟩
        exact Int.le_refl _
      refine forces.bind fun result second forced => ?_
      obtain ⟨succeeded, instant, upper, becomes⟩ := forced
      simp only [succeeded, if_true]
      refine (does_finishForce name second result _ _).mono fun outcome after finished => ?_
      have whole := (quiet.then becomes).trans finished.1
      refine ⟨whole.clock, whole.frozen, Or.inr ⟨finished.2, instant, ?_, whole.gate⟩⟩
      exact Int.le_trans upper finished.1.clock

end

end Baldur.CircuitBreaker
