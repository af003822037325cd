import Baldur.Lib.Stepwise
import Mathlib.Algebra.Order.Field.Rat

/-!
The hedge delay under concurrent executions (`resilience/policies/hedging.py`). An execution saves
the shared delay, scales it by the load factor, runs, and writes the saved value back.
-/

namespace Baldur.Resilience

inductive LoadLevel
  | none
  | low
  | medium
  | high
  | critical
  deriving DecidableEq

structure HedgingConfig where
  delay : ℚ
  delayMultiplierOnMedium : ℚ
  delayMultiplierOnHigh : ℚ

namespace HedgingConfig

variable (config : HedgingConfig)

def getEffectiveDelay : LoadLevel → ℚ
  | .medium => config.delay * config.delayMultiplierOnMedium
  | .high => config.delay * config.delayMultiplierOnHigh
  | _ => config.delay

def loadFactor : LoadLevel → ℚ
  | .medium => config.delayMultiplierOnMedium
  | .high => config.delayMultiplierOnHigh
  | _ => 1

theorem getEffectiveDelay_eq (level : LoadLevel) :
    config.getEffectiveDelay level = config.delay * config.loadFactor level := by
  cases level <;> simp [getEffectiveDelay, loadFactor]

end HedgingConfig

/-- Where one `_execute_hedging` stands: outside, or past its save, its read of level and delay,
or its store of the scaled delay. -/
inductive Execution
  | out
  | saved (original : ℚ)
  | scaled (original read : ℚ) (level : LoadLevel)
  | running (original : ℚ) (level : LoadLevel)

namespace Execution

def Holds (configured : ℚ) : Execution → Prop
  | .out => True
  | .saved original | .running original _ => original = configured
  | .scaled original read _ => original = configured ∧ read = configured

def Plain (factor : LoadLevel → ℚ) : Execution → Prop
  | .scaled _ _ level | .running _ level => factor level = 1
  | _ => True

def scale (factor : LoadLevel → ℚ) : Execution → ℚ
  | .running _ level => factor level
  | _ => 1

theorem Plain.scale {factor : LoadLevel → ℚ} {execution : Execution} (plain : execution.Plain factor) :
    execution.scale factor = 1 := by
  cases execution with
  | running => exact plain
  | out | saved | scaled => rfl

end Execution

/-- `configured` records the value given last, at construction or by an update. -/
structure HedgingPolicy where
  config : HedgingConfig
  configured : ℚ
  executions : Nat → Execution := fun _ => .out

inductive HedgingMove
  | act (who : Nat) (level : LoadLevel)
  | update (delay : ℚ)

namespace HedgingPolicy

def make (config : HedgingConfig) : HedgingPolicy where
  config
  configured := config.delay

variable (policy : HedgingPolicy)

def store (delay : ℚ) : HedgingPolicy :=
  { policy with config := { policy.config with delay } }

def enter (who : Nat) (execution : Execution) : HedgingPolicy :=
  { policy with executions := fun other => if other = who then execution else policy.executions other }

def step : HedgingMove → HedgingPolicy
  | .act who level =>
      match policy.executions who with
      | .out => policy.enter who (.saved policy.config.delay)
      | .saved original => policy.enter who (.scaled original policy.config.delay level)
      | .scaled original read level =>
          let effective := { policy.config with delay := read }.getEffectiveDelay level
          (policy.store effective).enter who (.running original level)
      | .running original _ => (policy.store original).enter who .out
  | .update delay => { policy.store delay with configured := delay }

/-- With nobody inside the delay is the configured one, and who runs, runs with that delay
scaled by the factor of its own level. -/
structure Kept : Prop where
  idle : (∀ who, policy.executions who = .out) → policy.config.delay = policy.configured
  own : ∀ who original level, policy.executions who = .running original level →
    policy.config.delay = policy.configured * policy.config.loadFactor level

/-- An execution whose level scales the delay overlaps no other, and no update comes while one is inside. -/
def Apart : HedgingMove → Prop
  | .act who level =>
      match policy.executions who with
      | .out => ∀ other, (policy.executions other).Plain policy.config.loadFactor
      | .saved _ => policy.config.loadFactor level = 1 ∨ ∀ other ≠ who, policy.executions other = .out
      | _ => True
  | .update _ => ∀ who, policy.executions who = .out

structure Sound : Prop where
  holds : ∀ who, (policy.executions who).Holds policy.configured
  apart : ∀ who, ¬ (policy.executions who).Plain policy.config.loadFactor → ∀ other ≠ who, policy.executions other = .out
  idle : (∀ who, policy.executions who = .out) → policy.config.delay = policy.configured
  own : ∀ who, policy.executions who ≠ .out →
    policy.config.delay = policy.configured * (policy.executions who).scale policy.config.loadFactor

variable {policy : HedgingPolicy} {who : Nat}

theorem Sound.kept (sound : policy.Sound) : policy.Kept where
  idle := sound.idle
  own who original level running := by
    rw [sound.own who (by simp [running]), running, Execution.scale]

theorem Sound.beside (sound : policy.Sound) (inside : policy.executions who ≠ .out) :
    ∀ other ≠ who, (policy.executions other).Plain policy.config.loadFactor := by
  intro other apart
  by_contra scaled
  exact inside (sound.apart other scaled who apart.symm)

theorem Sound.enter (sound : policy.Sound) {execution : Execution} {delay : ℚ}
    (beside : ∀ other ≠ who, (policy.executions other).Plain policy.config.loadFactor)
    (holds : execution.Holds policy.configured)
    (alone : execution.Plain policy.config.loadFactor ∨ ∀ other ≠ who, policy.executions other = .out)
    (stored : delay = policy.configured * execution.scale policy.config.loadFactor) :
    ((policy.store delay).enter who execution).Sound := by
  have here : ((policy.store delay).enter who execution).executions who = execution := if_pos rfl
  have there {other : Nat} (apart : other ≠ who) :
      ((policy.store delay).enter who execution).executions other = policy.executions other := if_neg apart
  refine ⟨fun other => ?_, fun other scaled next distinct => ?_, fun out => ?_, fun other inside => ?_⟩
  · by_cases same : other = who
    · rw [same, here]
      exact holds
    · rw [there same]
      exact sound.holds other
  · by_cases same : other = who
    · subst same
      rw [here] at scaled
      rw [there distinct]
      exact alone.resolve_left scaled next distinct
    · rw [there same] at scaled
      exact absurd (beside other same) scaled
  · rw [← here, out who] at stored
    exact stored.trans (mul_one _)
  · by_cases same : other = who
    · rw [same, here]
      exact stored
    · rw [there same] at inside ⊢
      have plain := alone.resolve_right fun out => inside (out other same)
      exact stored.trans (by rw [plain.scale, ← (beside other same).scale]; rfl)

theorem Sound.step (sound : policy.Sound) {move : HedgingMove} (apart : policy.Apart move) :
    (policy.step move).Sound := by
  cases move with
  | update delay =>
    exact ⟨fun who => by simp [HedgingPolicy.step, store, apart who, Execution.Holds],
      fun who scaled => absurd (by simp [HedgingPolicy.step, store, apart who, Execution.Plain]) scaled, fun _ => rfl,
      fun who inside => absurd (apart who) inside⟩
  | act who level =>
    have own := sound.own who
    have held := sound.holds who
    cases stage : policy.executions who with
    | out =>
      simp only [HedgingPolicy.step, stage, Apart] at apart ⊢
      have delay : policy.config.delay = policy.configured := by
        by_cases idle : ∀ other, policy.executions other = .out
        · exact sound.idle idle
        · obtain ⟨other, inside⟩ := not_forall.mp idle
          rw [sound.own other inside, (apart other).scale, mul_one]
      exact sound.enter (fun other _ => apart other) delay (.inl trivial) (by rw [delay]; exact (mul_one _).symm)
    | saved original =>
      rw [stage] at own held
      have inside : policy.executions who ≠ .out := by simp [stage]
      have delay := (own nofun).trans (mul_one _)
      simp only [HedgingPolicy.step, stage, Apart] at apart ⊢
      exact sound.enter (sound.beside inside) ⟨held, delay⟩ apart (by rw [delay]; exact (mul_one _).symm)
    | scaled original read level =>
      rw [stage] at held
      have inside : policy.executions who ≠ .out := by simp [stage]
      simp only [HedgingPolicy.step, stage, HedgingConfig.getEffectiveDelay_eq]
      refine sound.enter (sound.beside inside) held.1 ?_ (by rw [held.2]; rfl)
      by_cases plain : policy.config.loadFactor level = 1
      · exact .inl plain
      · exact .inr (sound.apart who (by simpa [stage, Execution.Plain] using plain))
    | running original =>
      rw [stage] at held
      have inside : policy.executions who ≠ .out := by simp [stage]
      simp only [HedgingPolicy.step, stage]
      exact sound.enter (sound.beside inside) trivial (.inl trivial) (held.trans (mul_one _).symm)

theorem hedge_delay_kept (config : HedgingConfig) (moves : List HedgingMove)
    (apart : Stepwise.Always step Apart (make config) moves) :
    Stepwise.Always step (fun policy move => (policy.step move).Kept) (make config) moves := by
  have start : (make config).Sound := ⟨fun _ => trivial, fun _ scaled => absurd trivial scaled, fun _ => rfl, nofun⟩
  exact Stepwise.always_under Sound (fun _ _ sound apart => sound.step apart)
    (fun _ _ sound apart => (sound.step apart).kept) start apart

theorem plain_overlap_keeps_delay :
    Stepwise.Always step (fun policy move => (policy.step move).Kept) (make ⟨1, 2, 5⟩)
      ([0, 1, 0, 1, 0, 1, 1, 0].map (.act · .low) ++ .update 3 :: List.replicate 4 (.act 2 .medium)) := by
  refine hedge_delay_kept ⟨1, 2, 5⟩ _ ?_
  refine ⟨?_, ?_, ?_, ?_, ?_, ?_, ?_, ?_, ?_, ?_, ?_, ?_, ?_, trivial⟩
  all_goals simp [Apart, step, make, enter, store, Execution.Plain, HedgingConfig.loadFactor]
  all_goals
    intro other
    by_cases first : other = 0 <;> by_cases second : other = 1 <;> simp [first, second]

theorem overlap_leaves_doubled_delay :
    ¬ ([0, 0, 0, 1, 0, 1, 1, 1].foldl (fun policy who => policy.step (.act who .medium)) (make ⟨1, 2, 5⟩)).Kept := by
  intro kept
  have delay := kept.idle fun who => by
    by_cases first : who = 0 <;> by_cases second : who = 1 <;> simp [step, make, enter, store, first, second]
  exact absurd delay (by decide +kernel)

end HedgingPolicy

end Baldur.Resilience
