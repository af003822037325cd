import Mathlib.Data.List.Basic

/-!
Programs over atomic calls: a program returns, or performs one call and continues with the answer. A
sequential executor or a pool of threads decides what a call does.
-/

inductive Prog (C : Type) (R : C → Type) (α : Type) : Type
  | ret (value : α)
  | call (c : C) (next : R c → Prog C R α)

namespace Prog

variable {condition : Prop} {C D : Type} {R : C → Type} {S : D → Type} {α β γ σ : Type}
  {post : γ → α → Prop} {g : γ} {program first second : Prog C R α} {c : C}
  {rest : α → Prog C R β} {value : α} {body : β → α → Prog C R β} {items : List α}

def bind : Prog C R α → (α → Prog C R β) → Prog C R β
  | .ret value, rest => rest value
  | .call c next, rest => .call c (fun answer => bind (next answer) rest)

instance : Monad (Prog C R) where
  pure := .ret
  bind := bind

def perform (c : C) : Prog C R (R c) :=
  .call c .ret

@[simp] theorem pure_eq (value : α) : (pure value : Prog C R α) = .ret value := by
  rfl

@[simp] theorem ret_bind (value : α) (rest : α → Prog C R β) : (ret value >>= rest) = rest value := by
  rfl

@[simp] theorem call_bind (c : C) (next : R c → Prog C R α) (rest : α → Prog C R β) :
    (call c next >>= rest) = .call c (fun answer => next answer >>= rest) := by
  rfl

@[simp] theorem perform_bind (c : C) (rest : R c → Prog C R β) : (perform c >>= rest) = .call c rest := by
  rfl

theorem bind_ret (program : Prog C R α) : (program >>= ret) = program := by
  induction program with
  | ret => rfl
  | call c next ih => simp [ih]

theorem bind_bind {δ : Type} (program : Prog C R α) (middle : α → Prog C R β) (rest : β → Prog C R δ) :
    ((program >>= middle) >>= rest) = program >>= fun value => middle value >>= rest := by
  induction program with
  | ret => rfl
  | call c next ih => simp [ih]

instance : LawfulMonad (Prog C R) :=
  LawfulMonad.mk' (Prog C R) (fun program => bind_ret program) (fun _ _ => rfl)
    (fun program middle rest => bind_bind program middle rest)

def translate (handle : (c : C) → Prog D S (R c)) : Prog C R α → Prog D S α
  | .ret value => .ret value
  | .call c next => handle c >>= fun answer => translate handle (next answer)

@[simp] theorem translate_call (handle : (c : C) → Prog D S (R c)) (c : C) (next : R c → Prog C R α) :
    translate handle (.call c next) = handle c >>= fun answer => translate handle (next answer) := by
  rfl

/-!
A discipline says which calls a program may make in which private state, which
answers it has to cope with, and how an answer moves the private state.
-/

structure Discipline (C : Type) (R : C → Type) (γ : Type) where
  may : γ → C → Prop
  valid : γ → (c : C) → R c → Prop
  after : γ → (c : C) → R c → γ

variable {d : Discipline C R γ} {e : Discipline D S γ}

def Obeys (d : Discipline C R γ) (post : γ → α → Prop) : γ → Prog C R α → Prop
  | g, .ret value => post g value
  | g, .call c next => d.may g c ∧
      ∀ answer, d.valid g c answer → Obeys d post (d.after g c answer) (next answer)

@[simp] theorem obeys_ret (d : Discipline C R γ) (post : γ → α → Prop) (g : γ) (value : α) :
    Obeys d post g (.ret value) ↔ post g value := by
  rfl

@[simp] theorem obeys_call (d : Discipline C R γ) (post : γ → α → Prop) (g : γ) (c : C) (next : R c → Prog C R α) :
    Obeys d post g (.call c next) ↔ d.may g c ∧
      ∀ answer, d.valid g c answer → Obeys d post (d.after g c answer) (next answer) := by
  rfl

theorem obeys_ite (d : Discipline C R γ) (post : γ → α → Prop) (g : γ) (condition : Prop)
    [Decidable condition] (first second : Prog C R α) :
    Obeys d post g (if condition then first else second) ↔
      (condition → Obeys d post g first) ∧ (¬condition → Obeys d post g second) := by
  by_cases holds : condition <;> simp [holds]

theorem Obeys.mono {weaker : γ → α → Prop} (implied : ∀ g value, post g value → weaker g value)
    (obeys : Obeys d post g program) : Obeys d weaker g program := by
  induction program generalizing g with
  | ret value => exact implied g value obeys
  | call c next ih => exact ⟨obeys.1, fun answer valid => ih answer (obeys.2 answer valid)⟩

@[simp] theorem obeys_bind (d : Discipline C R γ) (post : γ → β → Prop) (g : γ)
    (program : Prog C R α) (rest : α → Prog C R β) :
    Obeys d post g (program >>= rest) ↔ Obeys d (fun g' value => Obeys d post g' (rest value)) g program := by
  induction program generalizing g with
  | ret => rfl
  | call c next ih =>
    simp only [call_bind, obeys_call]
    exact and_congr_right fun _ => forall₂_congr fun answer _ => ih answer _

theorem obeys_foldlM (d : Discipline C R γ) (inv : γ → β → Prop) (body : β → α → Prog C R β) (items : List α)
    (round : ∀ g total item, item ∈ items → inv g total → Obeys d inv g (body total item)) :
    ∀ g total, inv g total → Obeys d inv g (items.foldlM body total) := by
  induction items with
  | nil => intro g total holds; exact holds
  | cons item rest ih =>
    intro g total holds
    rw [List.foldlM_cons, obeys_bind]
    refine (round g total item (by simp) holds).mono ?_
    intro g' total' holds'
    exact ih (fun g total other member => round g total other (by simp [member])) g' total' holds'

/-- The program follows the discipline from every private state in the invariant, and ends in one. -/
def Keeps (d : Discipline C R γ) (inv : γ → Prop) (program : Prog C R α) : Prop :=
  ∀ g, inv g → Obeys d (fun g' _ => inv g') g program

section

variable {d : Discipline C R γ} {inv : γ → Prop}

theorem keeps_ret (value : α) : Keeps d inv (.ret value : Prog C R α) := by
  intro g holds
  exact holds

theorem keeps_perform (permitted : ∀ g, inv g → d.may g c)
    (kept : ∀ g answer, inv g → d.valid g c answer → inv (d.after g c answer)) :
    Keeps d inv (perform c) := by
  intro g holds
  exact ⟨permitted g holds, fun answer valid => kept g answer holds valid⟩

theorem keeps_bind (first : Keeps d inv program)
    (second : ∀ value, Keeps d inv (rest value)) : Keeps d inv (program >>= rest) := by
  intro g holds
  rw [obeys_bind]
  exact (first g holds).mono fun g' value holds' => second value g' holds'

theorem keeps_ite (condition : Prop) [Decidable condition] (yes : Keeps d inv first) (no : Keeps d inv second) :
    Keeps d inv (if condition then first else second) := by
  split
  · exact yes
  · exact no

theorem Keeps.discard {value : α → β} (kept : Keeps d inv program) :
    Keeps d inv (program >>= fun answer => .ret (value answer)) := by
  exact keeps_bind kept fun _ => keeps_ret _

theorem keeps_unless [Decidable condition]
    (kept : Keeps d inv program) : Keeps d inv (if condition then .ret value else program) := by
  exact keeps_ite _ (keeps_ret _) kept

theorem keeps_when [Decidable condition]
    (kept : Keeps d inv program) : Keeps d inv (if condition then program else .ret value) := by
  exact keeps_ite _ kept (keeps_ret _)

theorem keeps_foldlM (round : ∀ total item, item ∈ items → Keeps d inv (body total item)) (start : β) :
    Keeps d inv (items.foldlM body start) := by
  intro g holds
  refine obeys_foldlM d (fun g' _ => inv g') body items ?_ g start holds
  intro g' total item member holds'
  exact round total item member g' holds'

end

/-- Beside following the discipline, the program returns only values with the property. -/
def Yields (d : Discipline C R γ) (inv : γ → Prop) (post : α → Prop) (program : Prog C R α) : Prop :=
  ∀ g, inv g → Obeys d (fun g' value => inv g' ∧ post value) g program

section

variable {d : Discipline C R γ} {inv : γ → Prop} {post : α → Prop}

theorem yields_ret (holds : post value) : Yields d inv post (.ret value) := by
  intro g kept
  exact ⟨kept, holds⟩

theorem yields_perform {post : R c → Prop} (permitted : ∀ g, inv g → d.may g c)
    (kept : ∀ g answer, inv g → d.valid g c answer → inv (d.after g c answer) ∧ post answer) :
    Yields d inv post (perform c) := by
  intro g holds
  exact ⟨permitted g holds, fun answer valid => kept g answer holds valid⟩

theorem yields_bind {post' : β → Prop}
    (first : Yields d inv post program) (second : ∀ value, post value → Yields d inv post' (rest value)) :
    Yields d inv post' (program >>= rest) := by
  intro g holds
  rw [obeys_bind]
  exact (first g holds).mono fun g' value holds' => second value holds'.2 g' holds'.1

theorem yields_ite [Decidable condition]
    (yes : condition → Yields d inv post first) (no : ¬condition → Yields d inv post second) :
    Yields d inv post (if condition then first else second) := by
  by_cases holds : condition
  · rw [if_pos holds]
    exact yes holds
  · rw [if_neg holds]
    exact no holds

theorem yields_branch [Decidable condition] (yes : Yields d inv post first) (no : Yields d inv post second) :
    Yields d inv post (if condition then first else second) := by
  exact yields_ite (fun _ => yes) fun _ => no

theorem Yields.mono {weaker : α → Prop} (yields : Yields d inv post program)
    (implied : ∀ value, post value → weaker value) : Yields d inv weaker program := by
  intro g holds
  exact (yields g holds).mono fun g' value holds' => ⟨holds'.1, implied value holds'.2⟩

theorem Yields.discard {value : α → β} (yields : Yields d inv post program) :
    Yields d inv (fun _ => True) (program >>= fun answer => .ret (value answer)) := by
  exact yields_bind yields fun _ _ => yields_ret trivial

theorem yields_unless [Decidable condition] (goesOn : ¬condition → Yields d inv (fun _ => True) program) :
    Yields d inv (fun _ => True) (if condition then .ret value else program) := by
  exact yields_ite (fun _ => yields_ret trivial) goesOn

theorem yields_foldlM {total : β → Prop}
    (round : ∀ sum item, item ∈ items → total sum → Yields d inv total (body sum item)) {start : β}
    (holds : total start) : Yields d inv total (items.foldlM body start) := by
  intro g kept
  refine obeys_foldlM d (fun g' sum => inv g' ∧ total sum) body items ?_ g start ⟨kept, holds⟩
  intro g' sum item member holds'
  exact round sum item member holds'.2 g' holds'.1

theorem yields_translate {handle : (c : C) → Prog D S (R c)}
    {inv : γ → Prop} (kept : ∀ c, Yields e inv (fun _ => True) (handle c)) (program : Prog C R α) :
    Yields e inv (fun _ => True) (program.translate handle) := by
  induction program with
  | ret => exact yields_ret trivial
  | call c next ih =>
    rw [translate_call]
    exact yields_bind (kept c) fun answer _ => ih answer

end

end Prog
