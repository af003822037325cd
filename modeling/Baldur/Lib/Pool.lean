import Baldur.Lib.Prog
import Mathlib.Algebra.GroupWithZero.Nat
import Mathlib.Data.List.Forall2
import Mathlib.Order.Defs.PartialOrder

/-!
A pool of threads over one shared state. An action performs the next call of one thread, changes the
surroundings, or starts a thread. `Sound.run` is the invariant rule: what each kind of action keeps, of the
state and of each thread's private discipline state, survives every schedule.
-/

namespace Pool

open List Option

variable {τ υ : Type}

structure Event (C : Type) (R : C → Type) where
  thread : Nat
  call : C
  answer : R call

structure Machine (C : Type) (R : C → Type) (σ ε ρ : Type) where
  exec : (c : C) → σ → σ × R c
  disturb : ε → σ → σ
  fork : (c : C) → R c → List (Prog C R ρ)

structure Config (C : Type) (R : C → Type) (σ ρ : Type) where
  state : σ
  threads : List (Prog C R ρ)
  trace : List (Event C R)

inductive Action (C : Type) (R : C → Type) (ε ρ : Type)
  | step (thread : Nat)
  | disturb (change : ε)
  | spawn (program : Prog C R ρ)

variable {C : Type} {R : C → Type} {σ ε ρ γ : Type} {c : C} {schedule : List (Action C R ε ρ)}

def start (state : σ) : Config C R σ ρ :=
  ⟨state, [], []⟩

namespace Config

variable {config : Config C R σ ρ} {thread : Nat}

def pending (config : Config C R σ ρ) (thread : Nat) : Option C :=
  match config.threads[thread]? with
  | some (.call c _) => some c
  | _ => none

def finished (config : Config C R σ ρ) (thread : Nat) : Option ρ :=
  match config.threads[thread]? with
  | some (.ret value) => some value
  | _ => none

def forget (config : Config C R σ ρ) : Config C R σ ρ :=
  { config with trace := [] }

theorem pending_eq_some : config.pending thread = some c ↔ ∃ next, config.threads[thread]? = some (.call c next) := by
  unfold pending
  split
  · rename_i other next found
    simp only [found, Option.some.injEq, Prog.call.injEq]
    constructor
    · rintro rfl
      exact ⟨next, rfl, HEq.rfl⟩
    · rintro ⟨_, same, _⟩
      exact same
  · rename_i absent
    simp only [reduceCtorEq, false_iff, not_exists]
    intro next found
    exact absent c next found

theorem finished_eq_some {value : ρ} :
    config.finished thread = some value ↔ config.threads[thread]? = some (.ret value) := by
  unfold finished
  split
  · rename_i other found
    simp [found]
  · rename_i absent
    simp only [reduceCtorEq, false_iff]
    intro found
    exact absent value found

end Config

namespace Machine

variable {side : Config C R σ ρ → Action C R ε ρ → Prop} (machine : Machine C R σ ε ρ)

def act (config : Config C R σ ρ) : Action C R ε ρ → Config C R σ ρ
  | .step thread =>
      match config.threads[thread]? with
      | some (.call c next) =>
          let out := machine.exec c config.state
          { state := out.1
            threads := config.threads.set thread (next out.2) ++ machine.fork c out.2
            trace := ⟨thread, c, out.2⟩ :: config.trace }
      | _ => config
  | .disturb change => { config with state := machine.disturb change config.state }
  | .spawn program => { config with threads := config.threads ++ [program] }

def run (config : Config C R σ ρ) (schedule : List (Action C R ε ρ)) : Config C R σ ρ :=
  schedule.foldl machine.act config

/-- Every action of the schedule meets the condition in the configuration it acts on. -/
def Always (side : Config C R σ ρ → Action C R ε ρ → Prop) :
    Config C R σ ρ → List (Action C R ε ρ) → Prop
  | _, [] => True
  | config, action :: rest => side config action ∧ Always side (machine.act config action) rest

instance decidableAlways (side : Config C R σ ρ → Action C R ε ρ → Prop)
    [∀ config action, Decidable (side config action)] (config : Config C R σ ρ) :
    ∀ schedule, Decidable (machine.Always side config schedule)
  | [] => isTrue trivial
  | action :: rest =>
      have := decidableAlways side (machine.act config action) rest
      inferInstanceAs (Decidable (_ ∧ _))

@[simp] theorem run_nil (config : Config C R σ ρ) : machine.run config [] = config := by
  rfl

@[simp] theorem run_cons (config : Config C R σ ρ) (action : Action C R ε ρ) (rest : List (Action C R ε ρ)) :
    machine.run config (action :: rest) = machine.run (machine.act config action) rest := by
  rfl

theorem run_append (config : Config C R σ ρ) (first second : List (Action C R ε ρ)) :
    machine.run config (first ++ second) = machine.run (machine.run config first) second := by
  simp [run]

variable {config : Config C R σ ρ} {thread : Nat}

theorem act_step {next : R c → Prog C R ρ} (found : config.threads[thread]? = some (.call c next)) :
    machine.act config (.step thread) =
      { state := (machine.exec c config.state).1
        threads := config.threads.set thread (next (machine.exec c config.state).2) ++
          machine.fork c (machine.exec c config.state).2
        trace := ⟨thread, c, (machine.exec c config.state).2⟩ :: config.trace } := by
  simp only [act, found]

theorem trace_step (pending : config.pending thread = some c) :
    (machine.act config (.step thread)).trace = ⟨thread, c, (machine.exec c config.state).2⟩ :: config.trace := by
  obtain ⟨next, found⟩ := Config.pending_eq_some.mp pending
  rw [machine.act_step found]

theorem act_idle (idle : config.pending thread = none) : machine.act config (.step thread) = config := by
  cases found : config.threads[thread]? with
  | none => simp only [act, found]
  | some program =>
    cases program with
    | ret => simp only [act, found]
    | call => simp [Config.pending, found] at idle

variable {schedule : List (Action C R ε ρ)}

theorem always_mono {weaker : Config C R σ ρ → Action C R ε ρ → Prop}
    (implied : ∀ config action, side config action → weaker config action)
    (always : machine.Always side config schedule) : machine.Always weaker config schedule := by
  induction schedule generalizing config with
  | nil => trivial
  | cons action rest ih => exact ⟨implied _ _ always.1, ih always.2⟩

theorem always_append (config : Config C R σ ρ) (first second : List (Action C R ε ρ)) :
    machine.Always side config (first ++ second) ↔
      machine.Always side config first ∧ machine.Always side (machine.run config first) second := by
  induction first generalizing config with
  | nil => simp [Always]
  | cons action rest ih => simp [Always, ih, and_assoc]

theorem always_iff_split :
    machine.Always side config schedule ↔ ∀ first action rest, schedule = first ++ action :: rest →
      side (machine.run config first) action := by
  constructor
  · rintro always first action rest rfl
    exact ((machine.always_append config first (action :: rest)).mp always).2.1
  · intro holds
    induction schedule generalizing config with
    | nil => trivial
    | cons action rest ih =>
      refine ⟨holds [] action rest rfl, ih ?_⟩
      rintro first other rest' rfl
      exact holds (action :: first) other rest' rfl

theorem always_and {first second : Config C R σ ρ → Action C R ε ρ → Prop}
    (left : machine.Always first config schedule) (right : machine.Always second config schedule) :
    machine.Always (fun config action => first config action ∧ second config action) config schedule := by
  induction schedule generalizing config with
  | nil => trivial
  | cons action rest ih => exact ⟨⟨left.1, right.1⟩, ih left.2 right.2⟩

section

variable {τ : Type} [Preorder τ] (measure : σ → τ)

variable (grows : ∀ config action, measure config.state ≤ measure (machine.act config action).state)

include grows

theorem le_run (config : Config C R σ ρ) (schedule : List (Action C R ε ρ)) :
    measure config.state ≤ measure (machine.run config schedule).state := by
  induction schedule generalizing config with
  | nil => exact le_rfl
  | cons action rest ih => exact le_trans (grows config action) (ih _)

theorem always_le_run (config : Config C R σ ρ) (schedule : List (Action C R ε ρ)) :
    machine.Always (fun config' _ => measure config'.state ≤ measure (machine.run config schedule).state)
      config schedule := by
  induction schedule generalizing config with
  | nil => trivial
  | cons action rest ih => exact ⟨machine.le_run measure grows config (action :: rest), ih _⟩

end

end Machine

open Prog

/-- The private states fit the threads, and the shared invariant holds with them. -/
def Coherent (d : Discipline C R γ) (post : γ → ρ → Prop)
    (inv : σ → List (Event C R) → List γ → Prop) (config : Config C R σ ρ) : Prop :=
  ∃ locals, List.Forall₂ (Obeys d post) locals config.threads ∧ inv config.state config.trace locals

structure Sound (machine : Machine C R σ ε ρ) (d : Discipline C R γ) (post : γ → ρ → Prop)
    (inv : σ → List (Event C R) → List γ → Prop)
    (side : Config C R σ ρ → Action C R ε ρ → Prop) : Prop where
  step : ∀ config locals thread g c, side config (.step thread) →
    config.pending thread = some c → inv config.state config.trace locals →
    locals[thread]? = some g → d.may g c →
    d.valid g c (machine.exec c config.state).2 ∧
      ∃ forked, List.Forall₂ (Obeys d post) forked (machine.fork c (machine.exec c config.state).2) ∧
        inv (machine.exec c config.state).1
          (⟨thread, c, (machine.exec c config.state).2⟩ :: config.trace)
          (locals.set thread (d.after g c (machine.exec c config.state).2) ++ forked)
  disturb : ∀ config locals change, side config (.disturb change) →
    inv config.state config.trace locals →
    inv (machine.disturb change config.state) config.trace locals
  spawn : ∀ config locals program, side config (.spawn program) →
    inv config.state config.trace locals →
    ∃ g, Obeys d post g program ∧ inv config.state config.trace (locals ++ [g])

variable {index : Nat}

theorem forall₂_getElem? {rel : τ → υ → Prop} {left : List τ} {right : List υ}
    (related : Forall₂ rel left right) {item : υ} (found : right[index]? = some item) :
    ∃ mate, left[index]? = some mate ∧ rel mate item := by
  induction related generalizing index with
  | nil => simp at found
  | cons head tail ih =>
    cases index with
    | zero =>
      simp only [getElem?_cons_zero, some.injEq] at found
      subst found
      exact ⟨_, rfl, head⟩
    | succ => exact ih (by simpa using found)

theorem Coherent.may_of_pending {d : Discipline C R γ} {post : γ → ρ → Prop}
    {inv : σ → List (Event C R) → List γ → Prop} {config : Config C R σ ρ} {thread : Nat} {c : C}
    (coherent : Coherent d post inv config) (pending : config.pending thread = some c) :
    ∃ locals g, inv config.state config.trace locals ∧ locals[thread]? = some g ∧ d.may g c := by
  obtain ⟨locals, obeys, holds⟩ := coherent
  obtain ⟨next, found⟩ := Config.pending_eq_some.mp pending
  obtain ⟨g, located, may, _⟩ := forall₂_getElem? obeys found
  exact ⟨locals, g, holds, located, may⟩

theorem forall₂_set {rel : τ → υ → Prop} {left : List τ} {right : List υ}
    (related : Forall₂ rel left right) (index : Nat) {mate : τ} {item : υ}
    (holds : rel mate item) : Forall₂ rel (left.set index mate) (right.set index item) := by
  induction related generalizing index with
  | nil => exact .nil
  | cons head tail ih =>
    cases index with
    | zero => exact .cons holds tail
    | succ index => exact .cons head (ih index)

theorem located_after {items forked : List τ} {other : Nat} {item replacement found : τ}
    (located : items[index]? = some item)
    (after : (items.set index replacement ++ forked)[other]? = some found) :
    other = index ∧ found = replacement ∨ other ≠ index ∧ items[other]? = some found ∨
      items.length ≤ other ∧ found ∈ forked := by
  have bound : index < items.length := (List.getElem?_eq_some_iff.mp located).1
  by_cases inside : other < items.length
  · rw [getElem?_append_left (by simpa using inside)] at after
    by_cases same : index = other
    · subst same
      rw [getElem?_set_self bound, some.injEq] at after
      exact .inl ⟨rfl, after.symm⟩
    · rw [getElem?_set_ne same] at after
      exact .inr (Or.inl ⟨fun same' => same same'.symm, after⟩)
  · rw [getElem?_append_right (by simpa using inside)] at after
    exact .inr (Or.inr ⟨by omega, mem_of_getElem? after⟩)

theorem located_append {items : List τ} {item found : τ} (there : (items ++ [item])[index]? = some found) :
    items[index]? = some found ∨ index = items.length ∧ found = item := by
  rw [getElem?_append] at there
  split at there
  · exact .inl there
  · obtain ⟨last, rfl⟩ : index - items.length = 0 ∧ item = found := by
      simpa [getElem?_singleton] using there
    exact .inr ⟨by omega, rfl⟩

def Keyed {τ κ : Type} (key : τ → Option κ) (items : List τ) : Prop :=
  ∀ (index other : Nat) (item item' : τ) (shared : κ), items[index]? = some item →
    items[other]? = some item' → key item = some shared → key item' = some shared → index = other

variable {κ : Type}

theorem keyed_nil (key : τ → Option κ) : Keyed key [] := by
  intro index other item item' shared there
  simp at there

theorem keyed_after {key : τ → Option κ} {items : List τ} {item replacement : τ}
    (apart : Keyed key items) (located : items[index]? = some item)
    (fresh : ∀ shared, key replacement = some shared → ∀ (other : Nat) (found : τ), other ≠ index →
      items[other]? = some found → key found ≠ some shared) :
    Keyed key (items.set index replacement ++ []) := by
  intro left right first second shared there there' keyed keyed'
  rcases located_after located there with ⟨here, rfl⟩ | ⟨away, before⟩ | ⟨_, none⟩
  · rcases located_after located there' with ⟨here', _⟩ | ⟨away', before'⟩ | ⟨_, none⟩
    · exact here.trans here'.symm
    · exact absurd keyed' (fresh shared keyed right second away' before')
    · cases none
  · rcases located_after located there' with ⟨_, rfl⟩ | ⟨_, before'⟩ | ⟨_, none⟩
    · exact absurd keyed (fresh shared keyed' left first away before)
    · exact apart left right first second shared before before' keyed keyed'
    · cases none
  · cases none

theorem keyed_append {key : τ → Option κ} {items : List τ} (apart : Keyed key items) {item : τ}
    (unkeyed : key item = none) : Keyed key (items ++ [item]) := by
  have within (index : Nat) (found : τ) (shared : κ) (there : (items ++ [item])[index]? = some found)
      (keyed : key found = some shared) : items[index]? = some found := by
    rcases located_append there with before | ⟨_, rfl⟩
    · exact before
    · rw [unkeyed] at keyed
      cases keyed
  intro left right first second shared there there' keyed keyed'
  exact apart left right first second shared (within left first shared there keyed)
    (within right second shared there' keyed') keyed keyed'

theorem exists_after {has : τ → Prop} {items : List τ} {item : τ}
    (located : items[index]? = some item) (replacement : τ) (found : ∃ other ∈ items, has other) :
    has item ∨ ∃ other ∈ items.set index replacement ++ [], has other := by
  obtain ⟨other, member, holds⟩ := found
  obtain ⟨place, there⟩ := mem_iff_getElem?.mp member
  by_cases same : place = index
  · subst same
    obtain rfl : other = item := mem_unique there located
    exact .inl holds
  · refine .inr ⟨other, ?_, holds⟩
    rw [append_nil]
    exact mem_of_getElem? ((getElem?_set_ne (Ne.symm same)).trans there)

theorem mem_after {items : List τ} {item : τ} (located : items[index]? = some item) (replacement : τ) :
    replacement ∈ items.set index replacement ++ [] := by
  rw [append_nil]
  exact List.mem_set (List.getElem?_eq_some_iff.mp located).1 replacement

theorem forall_after {has : τ → Prop} {items : List τ} {replacement : τ}
    (all : ∀ other ∈ items, has other) (new : has replacement) :
    ∀ other ∈ items.set index replacement ++ [], has other := by
  intro other member
  rw [append_nil] at member
  rcases mem_or_eq_of_mem_set member with earlier | rfl
  · exact all other earlier
  · exact new

theorem sum_map_set (measure : τ → Nat) (items : List τ) {item : τ}
    (found : items[index]? = some item) (replacement : τ) :
    ((items.set index replacement).map measure).sum + measure item = (items.map measure).sum + measure replacement := by
  induction items generalizing index with
  | nil => simp at found
  | cons head rest ih =>
    cases index with
    | zero =>
      simp only [getElem?_cons_zero, some.injEq] at found
      subst found
      simp only [set_cons_zero, map_cons, sum_cons]
      omega
    | succ =>
      have tail := ih (by simpa using found)
      simp only [set_cons_succ, map_cons, sum_cons]
      omega

theorem le_sum_map (measure : τ → Nat) (items : List τ) {item : τ}
    (found : items[index]? = some item) : measure item ≤ (items.map measure).sum := by
  obtain ⟨before, after, rfl⟩ := append_of_mem (mem_of_getElem? found)
  simp only [map_append, map_cons, sum_append, sum_cons]
  omega

/-- Which answers show whether the subject is fit, and which calls may make it unfit. -/
structure Vetting (C : Type) (R : C → Type) where
  looks : (c : C) → R c → Option Bool
  spoils : (c : C) → R c → Bool

namespace Vetting

variable (vetting : Vetting C R)

def verdict (thread : Nat) : List (Event C R) → Option Bool
  | [] => none
  | event :: rest =>
      if event.thread = thread then
        (vetting.looks event.call event.answer).or (verdict thread rest)
      else
        verdict thread rest

def disturbed (thread : Nat) : List (Event C R) → Bool
  | [] => false
  | event :: rest =>
      if event.thread = thread ∧ (vetting.looks event.call event.answer).isSome then
        false
      else
        vetting.spoils event.call event.answer || disturbed thread rest

def Vouched (fit : σ → Prop) (state : σ) (trace : List (Event C R)) : Prop :=
  ∀ thread, vetting.verdict thread trace = some true → vetting.disturbed thread trace = false → fit state

variable {vetting} {fit : σ → Prop} {machine : Machine C R σ ε ρ}

theorem vouched_step (looked : ∀ c state, vetting.looks c (machine.exec c state).2 = some true →
      fit (machine.exec c state).1)
    (kept : ∀ c state, fit state → vetting.spoils c (machine.exec c state).2 = false → fit (machine.exec c state).1)
    {state : σ} {trace : List (Event C R)} (vouched : vetting.Vouched fit state trace) (mover : Nat) (c : C) :
    vetting.Vouched fit (machine.exec c state).1 (⟨mover, c, (machine.exec c state).2⟩ :: trace) := by
  intro thread seen undisturbed
  simp only [verdict, disturbed] at seen undisturbed
  have carried (before : vetting.verdict thread trace = some true)
      (unspoiled : (vetting.spoils c (machine.exec c state).2 || vetting.disturbed thread trace) = false) :
      fit (machine.exec c state).1 := by
    simp only [Bool.or_eq_false_iff] at unspoiled
    exact kept c state (vouched thread before unspoiled.2) unspoiled.1
  by_cases own : mover = thread
  · cases look : vetting.looks c (machine.exec c state).2 with
    | none =>
      simp only [own, look, if_true, none_or] at seen
      simp only [look, isSome_none, Bool.false_eq_true, and_false, if_false] at undisturbed
      exact carried seen undisturbed
    | some =>
      simp only [own, look, if_true, some_or, some.injEq] at seen
      subst seen
      exact looked c state look
  · simp only [own, if_false] at seen
    simp only [own, false_and, if_false] at undisturbed
    exact carried seen undisturbed

end Vetting

variable {machine : Machine C R σ ε ρ} {d : Discipline C R γ} {post : γ → ρ → Prop}
  {inv : σ → List (Event C R) → List γ → Prop}
  {side : Config C R σ ρ → Action C R ε ρ → Prop} {config : Config C R σ ρ}

variable (sound : Sound machine d post inv side)

include sound

theorem Sound.act {action : Action C R ε ρ} (allowed : side config action) (coherent : Coherent d post inv config) :
    Coherent d post inv (machine.act config action) := by
  obtain ⟨locals, obeys, holds⟩ := coherent
  cases action with
  | step thread =>
    cases pending : config.pending thread with
    | none =>
      rw [machine.act_idle pending]
      exact ⟨locals, obeys, holds⟩
    | some c =>
      obtain ⟨next, found⟩ := Config.pending_eq_some.mp pending
      obtain ⟨g, located, obeysThread⟩ := forall₂_getElem? obeys found
      obtain ⟨valid, forked, forkedObeys, holds'⟩ :=
        sound.step config locals thread g c allowed pending holds located obeysThread.1
      rw [machine.act_step found]
      refine ⟨_, ?_, holds'⟩
      exact List.rel_append (forall₂_set obeys thread (obeysThread.2 _ valid)) forkedObeys
  | disturb change => exact ⟨locals, obeys, sound.disturb config locals change allowed holds⟩
  | spawn program =>
    obtain ⟨g, obeysNew, holds'⟩ := sound.spawn config locals program allowed holds
    exact ⟨locals ++ [g], List.rel_append obeys (.cons obeysNew .nil), holds'⟩

theorem Sound.run (allowed : machine.Always side config schedule) (coherent : Coherent d post inv config) :
    Coherent d post inv (machine.run config schedule) := by
  induction schedule generalizing config with
  | nil => exact coherent
  | cons action rest ih => exact ih allowed.2 (sound.act allowed.1 coherent)

theorem Sound.run_along (along : Config C R σ ρ → Prop) {further : Config C R σ ρ → Action C R ε ρ → Prop}
    (kept : ∀ config action, side config action → further config action → Coherent d post inv config →
      along config → along (machine.act config action))
    (allowed : machine.Always side config schedule)
    (always : machine.Always further config schedule) (coherent : Coherent d post inv config)
    (holds : along config) :
    along (machine.run config schedule) := by
  induction schedule generalizing config with
  | nil => exact holds
  | cons action rest ih =>
    exact ih allowed.2 always.2 (sound.act allowed.1 coherent) (kept config action allowed.1 always.1 coherent holds)

end Pool
