import Mathlib.Data.List.Basic

/-!
Stores of cells that are written over. A write gives some cells a new content, so a cell shows the last write
that touched it.
-/

namespace Overwrite

open List

variable {ι β : Type} {cell : ι}

abbrev Write (ι β : Type) := ι → Option β

variable {first second writes : List (Write ι β)}

def apply (store : ι → β) (write : Write ι β) : ι → β :=
  fun cell => (write cell).getD (store cell)

def applyAll (store : ι → β) (writes : List (Write ι β)) : ι → β :=
  writes.foldl apply store

def Touched (writes : List (Write ι β)) (cell : ι) : Prop :=
  ∃ write ∈ writes, write cell ≠ none

theorem applyAll_cons (store : ι → β) (write : Write ι β) (rest : List (Write ι β)) :
    applyAll store (write :: rest) = applyAll (apply store write) rest := by
  rfl

theorem applyAll_append (store : ι → β) (first second : List (Write ι β)) :
    applyAll store (first ++ second) = applyAll (applyAll store first) second := by
  exact foldl_append

theorem Touched.append_left (touched : Touched first cell) : Touched (first ++ second) cell := by
  obtain ⟨write, member, here⟩ := touched
  exact ⟨write, mem_append_left _ member, here⟩

theorem Touched.append_right (touched : Touched second cell) : Touched (first ++ second) cell := by
  obtain ⟨write, member, here⟩ := touched
  exact ⟨write, mem_append_right _ member, here⟩

theorem applyAll_untouched (untouched : ¬ Touched writes cell)
    (store : ι → β) : applyAll store writes cell = store cell := by
  induction writes generalizing store with
  | nil => rfl
  | cons write rest ih =>
    have here : write cell = none := by
      by_contra touches
      exact untouched ⟨write, mem_cons_self, touches⟩
    have later : ¬ Touched rest cell := by
      rintro ⟨other, member, touches⟩
      exact untouched ⟨other, mem_cons_of_mem _ member, touches⟩
    rw [applyAll_cons, ih later]
    simp [apply, here]

theorem applyAll_eq_of_agree {first second : ι → β} (agree : ∀ cell, ¬ Touched writes cell → first cell = second cell) :
    applyAll first writes = applyAll second writes := by
  induction writes generalizing first second with
  | nil =>
    funext cell
    exact agree cell fun ⟨_, member, _⟩ => not_mem_nil member
  | cons write rest ih =>
    rw [applyAll_cons, applyAll_cons]
    refine ih fun cell untouched => ?_
    cases here : write cell with
    | some => simp [apply, here]
    | none =>
      have same := agree cell (by
        rintro ⟨other, member, touches⟩
        rcases mem_cons.mp member with rfl | later
        · exact touches here
        · exact untouched ⟨other, later, touches⟩)
      simp [apply, here, same]

end Overwrite
