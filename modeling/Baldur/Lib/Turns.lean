import Mathlib.Algebra.Order.BigOperators.Group.Finset

/-!
Turns among lanes that share one server. A lane is a finite set of spots, some good, with a cursor. A round
serves the next good spot of one lane, from the start when none is left after the cursor. A lane not served
comes closer, unless two lanes run out together and one lies wholly behind the other's first good spot.
-/

namespace Turns

variable {ι α : Type} [LinearOrder α] {cursor : Option α}

def Past (cursor : Option α) (spot : α) : Prop :=
  ∀ low, cursor = some low → low < spot

instance (cursor : Option α) (spot : α) : Decidable (Past cursor spot) :=
  match cursor with
  | none => .isTrue (by simp [Past])
  | some low => decidable_of_iff (low < spot) (by simp [Past])

@[simp] theorem past_some (low spot : α) : Past (some low) spot ↔ low < spot := by
  simp [Past]

theorem Past.trans {first second : α} (past : Past cursor first) (later : first ≤ second) : Past cursor second := by
  intro low known
  exact (past low known).trans_le later

structure Rota (ι α : Type) where
  all : ι → Finset α
  good : ι → Finset α
  marks : ι → Finset α

namespace Rota

variable {spot : α} {lane : ι} (rota : Rota ι α)

def due (lane : ι) (cursor : Option α) : Finset α :=
  (rota.good lane).filter (Past cursor)

def left (lane : ι) (cursor : Option α) : Nat :=
  ((rota.marks lane).filter (Past cursor)).card

def Advances (lane : ι) (before after : Option α) : Prop :=
  ∃ mark ∈ rota.marks lane, Past before mark ∧ after = some mark ∧
    ∀ spot ∈ rota.good lane, Past before spot → mark < spot

def TurnsAround (lane : ι) (before after : Option α) : Prop :=
  rota.due lane before = ∅ ∧ ∃ mark, after = some mark ∧ ∀ spot ∈ rota.good lane, mark < spot

/-- One round. It is early, when no lane had to turn around; or it is late, and every lane with
good spots has moved, except one that ran out and whose every spot comes after the one served. -/
structure Serves (before after : ι → Option α) (lane : ι) (spot : α) : Prop where
  good : spot ∈ rota.good lane
  marked : after lane = some spot
  next : (Past (before lane) spot ∧ ∀ other ∈ rota.good lane, Past (before lane) other → spot ≤ other) ∨
    rota.due lane (before lane) = ∅ ∧ ∀ other ∈ rota.good lane, spot ≤ other
  others : ∀ other ≠ lane, after other = before other ∨ rota.Advances other (before other) (after other) ∨
    rota.TurnsAround other (before other) (after other)
  pace : (Past (before lane) spot ∧
      ∀ other ≠ lane, after other = before other ∨ rota.Advances other (before other) (after other)) ∨
    ∀ other ≠ lane, (rota.good other).Nonempty → rota.Advances other (before other) (after other) ∨
      rota.TurnsAround other (before other) (after other) ∨
      after other = before other ∧ rota.due other (before other) = ∅ ∧ ∀ item ∈ rota.all other, spot ≤ item

/-- When two lanes have run out, each has a spot before every good spot of the other. -/
def Apart (cursors : ι → Option α) : Prop :=
  ∀ first second, first ≠ second → (rota.good first).Nonempty → (rota.good second).Nonempty →
    rota.due first (cursors first) = ∅ → rota.due second (cursors second) = ∅ →
      ∃ item ∈ rota.all first, ∀ spot ∈ rota.good second, item < spot

section

variable {rota} {lane : ι} {before after : Option α}

theorem mem_due_iff (rota : Rota ι α) (lane : ι) (cursor : Option α) (spot : α) :
    spot ∈ rota.due lane cursor ↔ spot ∈ rota.good lane ∧ Past cursor spot := by
  simp [due]

section

variable (advances : rota.Advances lane before after)

include advances

theorem Advances.past_iff (good : spot ∈ rota.good lane) : Past after spot ↔ Past before spot := by
  obtain ⟨mark, _, past, rfl, clear⟩ := advances
  rw [past_some]
  exact ⟨fun later => past.trans later.le, clear spot good⟩

theorem Advances.due_eq : rota.due lane after = rota.due lane before := by
  apply Finset.filter_congr
  intro spot good
  exact advances.past_iff good

theorem Advances.left_lt : rota.left lane after < rota.left lane before := by
  obtain ⟨mark, marked, past, rfl, _⟩ := advances
  apply Finset.card_lt_card
  rw [Finset.ssubset_iff_of_subset]
  · exact ⟨mark, by simp [marked, past], by simp⟩
  · intro spot member
    simp only [Finset.mem_filter, past_some] at member ⊢
    exact ⟨member.1, past.trans member.2.le⟩

end

theorem TurnsAround.due_eq (turns : rota.TurnsAround lane before after) : rota.due lane after = rota.good lane := by
  obtain ⟨_, mark, rfl, clear⟩ := turns
  apply Finset.filter_true_of_mem
  intro spot good
  rw [past_some]
  exact clear spot good

end

section

variable {a b c c' d d' : Nat} {rota} {before after : ι → Option α} {served : ι} {spot : α}

theorem Serves.card_due_lt (serves : rota.Serves before after served spot) (past : Past (before served) spot) :
    (rota.due served (after served)).card < (rota.due served (before served)).card := by
  apply Finset.card_lt_card
  rw [Finset.ssubset_iff_of_subset]
  · refine ⟨spot, (mem_due_iff _ _ _ _).mpr ⟨serves.good, past⟩, ?_⟩
    simp [mem_due_iff, serves.marked]
  · intro other member
    rw [mem_due_iff, serves.marked, past_some] at member
    exact (mem_due_iff _ _ _ _).mpr ⟨member.1, past.trans member.2.le⟩

theorem Serves.past_of_due (serves : rota.Serves before after served spot)
    (pending : rota.due served (before served) ≠ ∅) : Past (before served) spot :=
  (serves.next.resolve_right fun out => pending out.1).1

def Elder (rota : Rota ι α) (lane other : ι) : Prop :=
  ∃ spot ∈ rota.good other, ∀ item ∈ rota.all lane, spot ≤ item

open Classical in
noncomputable def rank [Fintype ι] (rota : Rota ι α) (lane : ι) (cursors : ι → Option α) : Nat × Nat × Nat × Nat :=
  (if rota.due lane (cursors lane) = ∅ then 1 else 0, rota.left lane (cursors lane),
    ∑ other with rota.Elder lane other, (rota.due other (cursors other)).card,
    ∑ other, (rota.due other (cursors other)).card)

abbrev Nearer : Nat × Nat × Nat × Nat → Nat × Nat × Nat × Nat → Prop :=
  Prod.Lex (· < ·) (Prod.Lex (· < ·) (Prod.Lex (· < ·) (· < ·)))

theorem wellFounded_nearer : WellFounded Nearer :=
  (Prod.lex ⟨_, Nat.lt_wfRel.wf⟩ (Prod.lex ⟨_, Nat.lt_wfRel.wf⟩
    (Prod.lex ⟨_, Nat.lt_wfRel.wf⟩ ⟨_, Nat.lt_wfRel.wf⟩))).wf

theorem nearer_of_le {a' b' : Nat} (first : a' ≤ a) (second : b' ≤ b) (third : c' ≤ c)
    (fourth : d' < d) : Nearer (a', b', c', d') (a, b, c, d) := by
  simp only [Nearer, Prod.lex_def]
  omega

theorem nearer_of_third (third : c' < c) : Nearer (a, b, c', d') (a, b, c, d) :=
  .right _ (.right _ (.left _ _ third))

theorem Serves.rank_nearer [Fintype ι] (serves : rota.Serves before after served spot) (apart : rota.Apart before)
    (waits : (rota.good lane).Nonempty) (unserved : lane ≠ served) :
    Nearer (rota.rank lane after) (rota.rank lane before) := by
  classical
  rcases serves.pace with ⟨past, early⟩ | late
  · have dueEq : ∀ other ≠ served, rota.due other (after other) = rota.due other (before other) := by
      intro other apart
      rcases early other apart with same | advances
      · rw [same]
      · exact advances.due_eq
    have dueLe : ∀ other, (rota.due other (after other)).card ≤ (rota.due other (before other)).card := by
      intro other
      by_cases own : other = served
      · subst own
        exact (serves.card_due_lt past).le
      · rw [dueEq other own]
    refine nearer_of_le ?_ ?_ (Finset.sum_le_sum fun other _ => dueLe other)
      (Finset.sum_lt_sum (fun other _ => dueLe other) ⟨served, Finset.mem_univ _, serves.card_due_lt past⟩)
    · rw [dueEq lane unserved]
    · rcases early lane unserved with same | advances
      · rw [same]
      · exact advances.left_lt.le
  · rcases late lane unserved waits with advances | turns | ⟨same, out, after'⟩
    · simp only [rank, advances.due_eq]
      exact Prod.Lex.right _ (Prod.Lex.left _ _ advances.left_lt)
    · simp only [rank, turns.due_eq, turns.1, waits.ne_empty, if_false, if_true]
      exact Prod.Lex.left _ _ Nat.zero_lt_one
    · simp only [rank, same]
      refine nearer_of_third ?_
      -- An elder lane has not run out, since this one has: it cannot have turned around.
      have elderDue : ∀ other, other ≠ lane → rota.Elder lane other → rota.due other (before other) ≠ ∅ := by
        rintro other apart' ⟨first, good, elder⟩ otherOut
        obtain ⟨item, member, earlier⟩ := apart lane other apart'.symm waits ⟨first, good⟩ out otherOut
        exact absurd (earlier first good) (not_lt.mpr (elder item member))
      have servedElder : rota.Elder lane served := ⟨spot, serves.good, after'⟩
      have servedLt := serves.card_due_lt (serves.past_of_due (elderDue served unserved.symm servedElder))
      refine Finset.sum_lt_sum ?_ ⟨served, by simp [servedElder], servedLt⟩
      intro other member
      by_cases own : other = served
      · subst own
        exact servedLt.le
      · by_cases self : other = lane
        · rw [self, same]
        · rcases serves.others other own with same' | advances | turns
          · rw [same']
          · rw [advances.due_eq]
          · exact absurd turns.1 (elderDue other self (Finset.mem_filter.mp member).2)

end

section

variable {served : ι} {wanted : α} {rota} {cursors : Nat → ι → Option α} {lanes : Nat → ι} {spots : Nat → α}

theorem served_again [Fintype ι] (serves : ∀ n, rota.Serves (cursors n) (cursors (n + 1)) (lanes n) (spots n))
    (apart : ∀ n, rota.Apart (cursors n)) (waits : (rota.good lane).Nonempty) (start : Nat) :
    ∃ n, start ≤ n ∧ lanes n = lane := by
  have sooner : ∀ rank, ∀ start, rota.rank lane (cursors start) = rank → ∃ n, start ≤ n ∧ lanes n = lane := by
    intro rank
    induction rank using wellFounded_nearer.induction with
    | h rank ih =>
      rintro start rfl
      by_cases now : lanes start = lane
      · exact ⟨start, le_rfl, now⟩
      · obtain ⟨n, later, found⟩ := ih _ ((serves start).rank_nearer (apart start) waits (Ne.symm now))
          (start + 1) rfl
        exact ⟨n, by omega, found⟩
  exact sooner _ start rfl

def ahead (rota : Rota ι α) (lane : ι) (cursor : Option α) (spot : α) : Finset α :=
  (rota.good lane).filter fun other =>
    if Past cursor spot then Past cursor other ∧ other < spot else Past cursor other ∨ other < spot

theorem mem_ahead_of_past (past : Past cursor spot) (other : α) :
    other ∈ rota.ahead lane cursor spot ↔ other ∈ rota.good lane ∧ Past cursor other ∧ other < spot := by
  simp [ahead, past]

theorem mem_ahead_of_not_past (passed : ¬Past cursor spot) (other : α) :
    other ∈ rota.ahead lane cursor spot ↔ other ∈ rota.good lane ∧ (Past cursor other ∨ other < spot) := by
  simp [ahead, passed]

theorem not_past_of_due_eq_empty (out : rota.due lane cursor = ∅)
    (good : spot ∈ rota.good lane) : ¬Past cursor spot := by
  intro past
  exact Finset.notMem_empty spot (out ▸ (mem_due_iff rota lane cursor spot).mpr ⟨good, past⟩)

theorem ahead_eq_of_unserved {before after : ι → Option α}
    (serves : rota.Serves before after served spot) (unserved : lane ≠ served)
    (good : wanted ∈ rota.good lane) :
    rota.ahead lane (after lane) wanted = rota.ahead lane (before lane) wanted := by
  rcases serves.others lane unserved with same | advances | turns
  · rw [same]
  · apply Finset.filter_congr
    intro other otherGood
    simp only [advances.past_iff good, advances.past_iff otherGood]
  · obtain ⟨out, mark, marked, clear⟩ := turns
    apply Finset.filter_congr
    intro other otherGood
    simp [marked, clear wanted good, clear other otherGood, not_past_of_due_eq_empty out good,
      not_past_of_due_eq_empty out otherGood]

theorem ahead_ssubset_of_served {before after : ι → Option α}
    (serves : rota.Serves before after served spot) (good : wanted ∈ rota.good served)
    (notYet : spot ≠ wanted) :
    rota.ahead served (after served) wanted ⊂ rota.ahead served (before served) wanted := by
  rw [serves.marked]
  rcases serves.next with ⟨past, least⟩ | ⟨out, least⟩
  · by_cases wantedPast : Past (before served) wanted
    · have earlier : spot < wanted := lt_of_le_of_ne (least wanted good wantedPast) notYet
      have stillPast : Past (some spot) wanted := (past_some spot wanted).mpr earlier
      rw [Finset.ssubset_iff_of_subset]
      · exact ⟨spot, (mem_ahead_of_past wantedPast spot).mpr ⟨serves.good, past, earlier⟩,
          by simp [mem_ahead_of_past stillPast]⟩
      · intro other member
        obtain ⟨otherGood, later, below⟩ := (mem_ahead_of_past stillPast other).mp member
        exact (mem_ahead_of_past wantedPast other).mpr
          ⟨otherGood, past.trans ((past_some spot other).mp later).le, below⟩
    · have earlier : wanted < spot := by
        apply lt_of_not_ge
        intro later
        exact wantedPast (past.trans later)
      have stillPassed : ¬Past (some spot) wanted := by
        rw [past_some]
        exact earlier.asymm
      rw [Finset.ssubset_iff_of_subset]
      · exact ⟨spot, (mem_ahead_of_not_past wantedPast spot).mpr ⟨serves.good, .inl past⟩,
          by simp [mem_ahead_of_not_past stillPassed, earlier.le]⟩
      · intro other member
        obtain ⟨otherGood, later | below⟩ := (mem_ahead_of_not_past stillPassed other).mp member
        · exact (mem_ahead_of_not_past wantedPast other).mpr
            ⟨otherGood, .inl (past.trans ((past_some spot other).mp later).le)⟩
        · exact (mem_ahead_of_not_past wantedPast other).mpr ⟨otherGood, .inr below⟩
  · have earlier : spot < wanted := lt_of_le_of_ne (least wanted good) notYet
    have wantedPassed := not_past_of_due_eq_empty out good
    have nowPast : Past (some spot) wanted := (past_some spot wanted).mpr earlier
    rw [Finset.ssubset_iff_of_subset]
    · exact ⟨spot, (mem_ahead_of_not_past wantedPassed spot).mpr ⟨serves.good, .inr earlier⟩,
        by simp [mem_ahead_of_past nowPast]⟩
    · intro other member
      obtain ⟨otherGood, _, below⟩ := (mem_ahead_of_past nowPast other).mp member
      exact (mem_ahead_of_not_past wantedPassed other).mpr ⟨otherGood, .inr below⟩

theorem every_spot_served [Fintype ι] (serves : ∀ n, rota.Serves (cursors n) (cursors (n + 1)) (lanes n) (spots n))
    (apart : ∀ n, rota.Apart (cursors n)) (good : wanted ∈ rota.good lane) :
    ∃ n, lanes n = lane ∧ spots n = wanted := by
  by_contra never
  simp only [not_exists, not_and] at never
  -- Each time the lane is served, one spot fewer is ahead of the wanted one.
  have kept : Antitone fun n => (rota.ahead lane (cursors n lane) wanted).card := by
    apply antitone_nat_of_succ_le
    intro n
    by_cases own : lanes n = lane
    · have drop := ahead_ssubset_of_served (serves n) (own ▸ good) (never n own)
      rw [own] at drop
      exact (Finset.card_lt_card drop).le
    · rw [ahead_eq_of_unserved (serves n) (Ne.symm own) good]
  have dropped : ∀ count, ∃ n, (rota.ahead lane (cursors n lane) wanted).card + count ≤
      (rota.ahead lane (cursors 0 lane) wanted).card := by
    intro count
    induction count with
    | zero => exact ⟨0, le_rfl⟩
    | succ count ih =>
      obtain ⟨start, bound⟩ := ih
      obtain ⟨n, later, own⟩ := served_again serves apart ⟨wanted, good⟩ start
      have drop := ahead_ssubset_of_served (serves n) (own ▸ good) (never n own)
      rw [own] at drop
      have fewer := Finset.card_lt_card drop
      have since := kept later
      beta_reduce at since
      exact ⟨n + 1, by omega⟩
  obtain ⟨n, bound⟩ := dropped ((rota.ahead lane (cursors 0 lane) wanted).card + 1)
  omega

end

end Rota

end Turns
