import Mathlib.Data.List.Sort
import Mathlib.Data.Finset.Card

/-!
Bounded reads of ordered lists: an item is shown, behind items that precede it only, or the read is full of
such items.
-/

namespace List

variable {α κ : Type} {precedes : α → α → Prop} {items : List α} {item : α}

theorem Pairwise.split (ordered : items.Pairwise precedes) (member : item ∈ items) :
    ∃ before after, items = before ++ item :: after ∧ item ∉ before ∧ ∀ other ∈ before, precedes other item := by
  obtain ⟨before, after, rfl, fresh⟩ := eq_append_cons_of_mem member
  refine ⟨before, after, rfl, fresh, ?_⟩
  intro other earlier
  rw [pairwise_append] at ordered
  exact ordered.2.2 other earlier item (by simp)

theorem take_append_cons (before after : List α) (item : α) (count : Nat) :
    (∃ rest, (before ++ item :: after).take count = before ++ item :: rest) ∨
    (count ≤ before.length ∧ (before ++ item :: after).take count = before.take count) := by
  by_cases reached : before.length < count
  · left
    obtain ⟨more, enough⟩ : ∃ more, count = before.length + (more + 1) :=
      ⟨count - before.length - 1, by omega⟩
    subst enough
    exact ⟨after.take more, by simp [take_append]⟩
  · right
    exact ⟨by omega, take_append_of_le_length (by omega)⟩

theorem Pairwise.split_take (ordered : items.Pairwise precedes) (member : item ∈ items) (count : Nat) :
    (∃ before after, items.take count = before ++ item :: after ∧ item ∉ before ∧
      ∀ other ∈ before, precedes other item) ∨
    ((items.take count).length = count ∧ count < items.length ∧
      ∀ other ∈ items.take count, other ≠ item ∧ precedes other item) := by
  obtain ⟨before, after, rfl, fresh, earlier⟩ := ordered.split member
  rcases take_append_cons before after item count with ⟨rest, shown⟩ | ⟨short, cut⟩
  · exact .inl ⟨before, rest, shown, fresh, earlier⟩
  · right
    rw [cut]
    refine ⟨length_take_of_le short, by simp; omega, ?_⟩
    intro other taken
    have listed := mem_of_mem_take taken
    exact ⟨fun same => fresh (same ▸ listed), earlier other listed⟩

theorem Pairwise.filter_eq_takeWhile (ordered : items.Pairwise precedes) (keep : α → Bool)
    (closed : ∀ left right, precedes left right → keep right = true → keep left = true) :
    items.filter keep = items.takeWhile keep := by
  induction items with
  | nil => rfl
  | cons item rest ih =>
    rw [pairwise_cons] at ordered
    cases kept : keep item with
    | true => rw [filter_cons_of_pos kept, takeWhile_cons_of_pos kept, ih ordered.2]
    | false =>
      rw [filter_cons_of_neg (by simp [kept]), takeWhile_cons_of_neg (by simp [kept])]
      apply filter_eq_nil_iff.mpr
      intro other member keeps
      simp [closed item other (ordered.1 other member) keeps] at kept

section

variable {β : Type} [LinearOrder β] {key : α → β} {comes : α → α → Prop} [DecidableRel comes]
  (byKey : ∀ left right, comes left right ↔ key left ≤ key right)

include byKey

theorem pairwise_orderedInsert_ties
    (first : ∀ other ∈ items, key item = key other → precedes item other)
    (ordered : items.Pairwise fun left right => key left < key right ∨ key left = key right ∧ precedes left right) :
    (items.orderedInsert comes item).Pairwise fun left right =>
      key left < key right ∨ key left = key right ∧ precedes left right := by
  induction items with
  | nil => simp
  | cons head rest ih =>
    have follow := pairwise_cons.mp ordered
    rw [orderedInsert_cons]
    split
    · rename_i early
      rw [byKey] at early
      refine pairwise_cons.mpr ⟨?_, ordered⟩
      intro other member
      have later : key head ≤ key other := by
        rcases mem_cons.mp member with rfl | behind
        · exact le_rfl
        · rcases follow.1 other behind with less | same
          · exact less.le
          · exact same.1.le
      rcases (early.trans later).lt_or_eq with less | same
      · exact .inl less
      · exact .inr ⟨same, first other member same⟩
    · rename_i late
      rw [byKey, not_le] at late
      refine pairwise_cons.mpr ⟨?_, ih (fun other member => first other (mem_cons_of_mem _ member)) follow.2⟩
      intro other member
      rcases (mem_orderedInsert comes).mp member with rfl | behind
      · exact .inl late
      · exact follow.1 other behind

theorem pairwise_insertionSort_ties
    (ties : items.Pairwise fun left right => key left = key right → precedes left right) :
    (items.insertionSort comes).Pairwise fun left right =>
      key left < key right ∨ key left = key right ∧ precedes left right := by
  induction items with
  | nil => exact .nil
  | cons item rest ih =>
    obtain ⟨first, others⟩ := pairwise_cons.mp ties
    rw [insertionSort_cons]
    refine pairwise_orderedInsert_ties byKey (fun other member => ?_) (ih others)
    exact first other ((mem_insertionSort comes).mp member)

theorem pairwise_insertionSort_by (items : List α) :
    (items.insertionSort comes).Pairwise fun left right => key left ≤ key right := by
  have ties : items.Pairwise fun left right => key left = key right → True := pairwise_of_forall fun _ _ _ => trivial
  refine (pairwise_insertionSort_ties byKey ties).imp ?_
  rintro left right (less | same)
  · exact less.le
  · exact same.1.le

end

theorem take_filter_take [DecidableEq κ] (key : α → κ) (names : Finset κ) (distinct : (items.map key).Nodup) (count : Nat) :
    ((items.take (count + names.card)).filter fun item => key item ∉ names).take count =
      (items.filter fun item => key item ∉ names).take count := by
  have skipped : ((items.take (count + names.card)).filter fun item => key item ∈ names).length ≤ names.card := by
    have kept : (((items.take (count + names.card)).filter fun item => key item ∈ names).map key).Nodup :=
      distinct.sublist ((filter_sublist.trans (take_sublist _ _)).map key)
    rw [← length_map (f := key), ← toFinset_card_of_nodup kept]
    apply Finset.card_le_card
    intro name member
    simp only [mem_toFinset, mem_map, mem_filter, decide_eq_true_eq] at member
    obtain ⟨item, ⟨_, named⟩, rfl⟩ := member
    exact named
  have parts := length_eq_length_filter_add (l := items.take (count + names.card)) fun item => decide (key item ∈ names)
  rw [length_take] at parts
  by_cases whole : items.length ≤ count + names.card
  · rw [take_of_length_le whole]
  · nth_rewrite 2 [← take_append_drop (count + names.card) items]
    rw [filter_append, take_append_of_le_length]
    simp only [decide_not]
    omega

theorem foldl_max_spec [LinearOrder α] (items : List α) (start : α) :
    start ≤ items.foldl max start ∧ (∀ item ∈ items, item ≤ items.foldl max start) ∧
      (items.foldl max start = start ∨ items.foldl max start ∈ items) := by
  induction items generalizing start with
  | nil => simp
  | cons first rest ih =>
    obtain ⟨above, covers, reached⟩ := ih (max start first)
    simp only [foldl_cons, mem_cons, forall_eq_or_imp]
    refine ⟨(le_max_left _ _).trans above, ⟨(le_max_right _ _).trans above, covers⟩, ?_⟩
    rcases reached with same | later
    · rw [same]
      exact (max_choice start first).imp_right Or.inl
    · exact .inr (Or.inr later)

end List
