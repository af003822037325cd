import Mathlib.Data.List.Count
import Mathlib.Data.List.Nodup

/-!
Lists whose places are updated one at a time, and lists of names counted by a mark on each
name.
-/

namespace Slots

open List

variable {α β : Type} {next : α} {property : α → Prop} {items : List α} {index : Nat} {item : α}

theorem found_append {added : List α} (found : items[index]? = some item) : (items ++ added)[index]? = some item := by
  rw [List.getElem?_append_left (List.getElem?_eq_some_iff.mp found).1]
  exact found

theorem countP_set (items : List α) (index : Nat) (next : α) (found : items[index]? = some item) (test : α → Bool) :
    (items.set index next).countP test + (test item).toNat = items.countP test + (test next).toNat := by
  obtain ⟨bound, rfl⟩ := List.getElem?_eq_some_iff.mp found
  rw [List.countP_set bound]
  cases kept : test items[index] with
  | false => cases test next <;> simp
  | true =>
    have some : 0 < items.countP test := countP_pos_iff.mpr ⟨_, getElem_mem bound, kept⟩
    cases test next <;> simp <;> omega

theorem forall_set (holds : ∀ item ∈ items, property item) (fresh : property next) :
    ∀ item ∈ items.set index next, property item := by
  intro item member
  rcases mem_or_eq_of_mem_set member with old | same
  · exact holds item old
  · rw [same]
    exact fresh

section

variable {names : List β} {name : β} [DecidableEq β]

theorem countP_mark {before after : β → Bool} (distinct : names.Nodup)
    (listed : name ∈ names) (unmarked : before name = false) (marked : after name = true)
    (others : ∀ other, other ≠ name → after other = before other) :
    names.countP after = names.countP before + 1 := by
  induction names with
  | nil => cases listed
  | cons first rest ih =>
    rw [nodup_cons] at distinct
    by_cases same : first = name
    · subst same
      have tail : rest.countP after = rest.countP before := by
        refine countP_congr ?_
        intro other member
        rw [others other (fun hit => distinct.1 (hit ▸ member))]
      simp [tail, unmarked, marked]
    · have member : name ∈ rest := (mem_cons.mp listed).resolve_left (Ne.symm same)
      have tail := ih distinct.2 member
      simp only [countP_cons, others first same, tail]
      omega

theorem countP_erase (mark : β → Bool) (listed : name ∈ names) :
    (names.erase name).countP mark + (mark name).toNat = names.countP mark := by
  have perm := (perm_cons_erase listed).countP_eq mark
  rw [countP_cons] at perm
  cases found : mark name <;> simp [found] at perm ⊢ <;> omega

end

end Slots
