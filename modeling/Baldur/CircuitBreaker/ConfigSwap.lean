import Baldur.Lib.Stepwise

/-!
The ordered swap of the shared configuration (`services/circuit_breaker/config.py`). A rebuild reads the source's
install counter, builds outside the lock and swaps its result in unless a later counter is recorded.
-/

namespace Baldur.CircuitBreaker

inductive Invalidation (Config : Type)
  | unstarted
  | counted (generation : Nat)
  | built (generation : Nat) (rebuilt : Config)
  | finished

/-- `raising` counts the source changes that have installed their content and not yet raised the counter; `since`,
the calls started after the last step of a source change, is a record of the model. -/
structure ConfigHolder (Content Config : Type) where
  content : Content
  generation : Nat
  raising : Nat := 0
  currentConfig : Option Config := none
  currentConfigGeneration : Option Nat := none
  calls : Nat → Invalidation Config := fun _ => .unstarted
  since : List Nat := []

inductive ConfigMove (Content : Type)
  | install (content : Content)
  | raiseGeneration (more : Nat)
  | readGeneration (call : Nat)
  | build (call : Nat)
  | swap (call : Nat)

namespace ConfigHolder

variable {Content Config : Type} (fromSettings : Content → Config) (holder : ConfigHolder Content Config)

def enter (call : Nat) (stage : Invalidation Config) : ConfigHolder Content Config :=
  { holder with calls := fun other => if other = call then stage else holder.calls other }

def superseded (generation recorded : Option Nat) : Bool :=
  match generation, recorded with
  | some generation, some recorded => generation < recorded
  | _, _ => false

def swapped (generation : Option Nat) (rebuilt : Config) : ConfigHolder Content Config :=
  if superseded generation holder.currentConfigGeneration then holder
  else { holder with currentConfig := some rebuilt, currentConfigGeneration := generation }

def step : ConfigMove Content → ConfigHolder Content Config
  | .install content => { holder with content, raising := holder.raising + 1, since := [] }
  | .raiseGeneration more =>
      match holder.raising with
      | 0 => holder
      | raising + 1 => { holder with generation := holder.generation + more + 1, raising, since := [] }
  | .readGeneration call =>
      match holder.calls call with
      | .unstarted => { holder.enter call (.counted holder.generation) with since := call :: holder.since }
      | _ => holder
  | .build call =>
      match holder.calls call with
      | .counted generation => holder.enter call (.built generation (fromSettings holder.content))
      | _ => holder
  | .swap call =>
      match holder.calls call with
      | .built generation rebuilt => (holder.swapped (some generation) rebuilt).enter call .finished
      | _ => holder

/-- A label never overstates: one as late as the counter, with no change under way, tells the content. -/
def Fits (call : Nat) : Invalidation Config → Prop
  | .unstarted => True
  | .counted label => label ≤ holder.generation ∧ (call ∈ holder.since → label = holder.generation)
  | .built label config => label ≤ holder.generation ∧ (call ∈ holder.since → label = holder.generation) ∧
      (holder.raising = 0 → label = holder.generation → config = fromSettings holder.content)
  | .finished => call ∈ holder.since → holder.currentConfigGeneration = some holder.generation

structure Sound : Prop where
  recorded : ∀ label, holder.currentConfigGeneration = some label → label ≤ holder.generation ∧
    (holder.raising = 0 → label = holder.generation → holder.currentConfig = some (fromSettings holder.content))
  fits : ∀ call, holder.Fits fromSettings call (holder.calls call)

variable {fromSettings : Content → Config} {holder : ConfigHolder Content Config}

theorem swapped_cases (holder : ConfigHolder Content Config) (generation : Nat) (rebuilt : Config) :
    holder.swapped (some generation) rebuilt = holder ∧
        (∃ recorded, holder.currentConfigGeneration = some recorded ∧ generation < recorded) ∨
      holder.swapped (some generation) rebuilt =
          { holder with currentConfig := some rebuilt, currentConfigGeneration := some generation } ∧
        ∀ recorded ∈ holder.currentConfigGeneration, recorded ≤ generation := by
  cases current : holder.currentConfigGeneration with
  | none => simp [swapped, superseded, current]
  | some recorded =>
    by_cases behind : generation < recorded
    · simp [swapped, superseded, current, behind]
    · simp [swapped, superseded, current, behind, Nat.le_of_not_lt behind]

section

variable (sound : holder.Sound fromSettings) {call : Nat}

include sound

theorem Sound.enter {stage : Invalidation Config} (fits : holder.Fits fromSettings call stage) :
    (holder.enter call stage).Sound fromSettings := by
  refine ⟨sound.recorded, fun other => ?_⟩
  by_cases own : other = call
  · rw [own, show (holder.enter call stage).calls call = stage from if_pos rfl]
    exact fits
  · rw [show (holder.enter call stage).calls other = holder.calls other from if_neg own]
    exact sound.fits other

theorem Sound.changed {content : Content} {generation raising : Nat} (later : holder.generation ≤ generation)
    (stale : raising = 0 → holder.generation < generation) :
    { holder with content, generation, raising, since := [] }.Sound fromSettings := by
  refine ⟨fun label current => ?_, fun call => ?_⟩
  · have bounded := (sound.recorded label current).1
    exact ⟨Nat.le_trans bounded later, fun settled same => absurd (stale settled) (by dsimp only at same; omega)⟩
  · have fits := sound.fits call
    dsimp only
    cases stage : holder.calls call with
    | unstarted => trivial
    | counted label =>
      rw [stage] at fits
      exact ⟨Nat.le_trans fits.1 later, nofun⟩
    | built label config =>
      rw [stage] at fits
      have bounded := fits.1
      exact ⟨Nat.le_trans bounded later, nofun, fun settled same => absurd (stale settled) (by dsimp only at same; omega)⟩
    | finished => exact nofun

theorem Sound.begin (unstarted : holder.calls call = .unstarted) :
    { holder with since := call :: holder.since }.Sound fromSettings := by
  refine ⟨sound.recorded, fun other => ?_⟩
  by_cases own : other = call
  · subst own
    dsimp only
    rw [unstarted]
    trivial
  · have fits := sound.fits other
    dsimp only
    cases stage : holder.calls other with
    | unstarted => trivial
    | counted | built | finished => simpa [Fits, stage, own] using fits

theorem Sound.swap {generation : Nat} {rebuilt : Config} (stage : holder.calls call = .built generation rebuilt) :
    ((holder.swapped (some generation) rebuilt).enter call .finished).Sound fromSettings := by
  have fits := sound.fits call
  rw [stage] at fits
  obtain ⟨bounded, latest, content⟩ := fits
  rcases swapped_cases holder generation rebuilt with ⟨kept, label, current, behind⟩ | ⟨installed, later⟩
  · rw [kept]
    refine sound.enter fun started => ?_
    have known := (sound.recorded label current).1
    have label := latest started
    omega
  · rw [installed]
    refine Sound.enter ⟨?_, fun other => ?_⟩ fun started => congrArg some (latest started)
    · rintro _ ⟨⟩
      exact ⟨bounded, fun settled label => congrArg some (content settled label)⟩
    · have fits := sound.fits other
      dsimp only
      cases stage : holder.calls other with
      | unstarted => trivial
      | counted | built => simpa [Fits, stage] using fits
      | finished =>
        rw [stage] at fits
        exact fun started => congrArg some (Nat.le_antisymm bounded (later _ (fits started)))

theorem Sound.step (move : ConfigMove Content) : (holder.step fromSettings move).Sound fromSettings := by
  unfold ConfigHolder.step
  cases move with
  | install content => exact sound.changed (Nat.le_refl _) nofun
  | raiseGeneration more =>
    dsimp only
    split
    · exact sound
    · exact sound.changed (by omega) (by omega)
  | readGeneration call =>
    dsimp only
    split
    · rename_i unstarted
      exact (sound.begin unstarted).enter ⟨Nat.le_refl _, fun _ => rfl⟩
    · exact sound
  | build call =>
    dsimp only
    split
    · rename_i generation stage
      have fits := sound.fits call
      rw [stage] at fits
      exact sound.enter ⟨fits.1, fits.2, fun _ _ => rfl⟩
    · exact sound
  | swap call =>
    dsimp only
    split
    · rename_i stage
      exact sound.swap stage
    · exact sound

end

/-- Once a call that started after the last source change has finished, and with it all the others, the configuration
in force was built from the last content; the recorded generation never falls. -/
theorem config_never_regresses (fromSettings : Content → Config) (content : Content) (generation : Nat)
    (moves : List (ConfigMove Content)) :
    let start : ConfigHolder Content Config := { content, generation }
    let holder := moves.foldl (ConfigHolder.step fromSettings) start
    (holder.raising = 0 → holder.since ≠ [] → (∀ call ∈ holder.since, holder.calls call = .finished) →
      holder.currentConfig = some (fromSettings holder.content)) ∧
    Stepwise.Always (ConfigHolder.step fromSettings) (fun holder move =>
      ∀ recorded ∈ holder.currentConfigGeneration,
        ∃ next ∈ (holder.step fromSettings move).currentConfigGeneration, recorded ≤ next) start moves := by
  intro start holder
  constructor
  · intro settled begun finished
    have sound : holder.Sound fromSettings := by
      refine Stepwise.keeps (fun _ move sound => sound.step move) ?_ moves
      exact ⟨nofun, fun _ => trivial⟩
    obtain ⟨call, started⟩ := List.exists_mem_of_ne_nil _ begun
    have fits := sound.fits call
    rw [finished call started] at fits
    exact (sound.recorded _ (fits started)).2 settled rfl
  · refine Stepwise.always_of (fun _ => True) (fun _ _ _ => trivial) (fun holder move _ => ?_) trivial
    intro recorded current
    cases move with
    | swap call =>
      cases stage : holder.calls call with
      | built generation rebuilt =>
        simp only [ConfigHolder.step, stage, enter]
        rcases swapped_cases holder generation rebuilt with ⟨kept, _⟩ | ⟨installed, later⟩
        · exact ⟨recorded, by rw [kept]; exact current, Nat.le_refl _⟩
        · exact ⟨generation, by rw [installed]; rfl, later recorded current⟩
      | _ =>
        simp only [ConfigHolder.step, stage]
        exact ⟨recorded, current, Nat.le_refl _⟩
    | install | raiseGeneration | readGeneration | build =>
      refine ⟨recorded, ?_, Nat.le_refl _⟩
      simp only [ConfigHolder.step]
      first | exact current | split <;> exact current

end ConfigHolder

end Baldur.CircuitBreaker
