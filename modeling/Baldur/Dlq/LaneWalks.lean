import Baldur.Dlq.RecoveryWalkCore

/-!
One lane of the candidate walk over a backlog that does not change.
-/

namespace Baldur.Dlq

open List Option

abbrev Placed := Position × Entry

/-- The selector contract for one lane of an unchanging backlog: a page lists the first entries after the
cursor, all of them when it is short and did not stop on its scan bound; an empty page that did resumes at a
mark further on, before all of them. -/
structure SteadyPages (select : Option Cursor → ReplayablePage) (limit : Nat) where
  entries : List Placed
  marks : Finset Position
  sorted : entries.Pairwise fun left right => left.1 < right.1
  placed : ∀ item ∈ entries, item.2.position = some item.1
  marked : ∀ item ∈ entries, item.1 ∈ marks
  listed : ∀ cursor, ∃ found,
    found <+: entries.filter (fun item => beyond (decodeReplayCursor cursor) item.1) ∧
    (select cursor).entries = found.map Prod.snd
  complete : ∀ cursor, (select cursor).scanExhausted = false → (select cursor).entries.length < limit →
    (select cursor).entries = (entries.filter fun item => beyond (decodeReplayCursor cursor) item.1).map Prod.snd
  resumes : ∀ cursor, (select cursor).scanExhausted = true → (select cursor).entries = [] →
    ∃ mark ∈ marks, (select cursor).nextCursor = some (.encoded mark) ∧
      beyond (decodeReplayCursor cursor) mark = true ∧
      ∀ item ∈ entries, beyond (decodeReplayCursor cursor) item.1 = true → mark < item.1

def LaneWalk.within (walk : LaneWalk) (item : Placed) : Bool :=
  !walk.wrapped || walk.start.all (item.1 ≤ ·)

def LaneWalk.look (walk : LaneWalk) (item : Placed) : LaneWalk :=
  walk.moveTo (.encoded item.1)

open LaneWalk

theorem positioned_eq (walk : LaneWalk) (active : walk.done = false) {found : List Placed}
    (placed : ∀ item ∈ found, item.2.position = some item.1) :
    walk.positioned (found.map Prod.snd) = (found.takeWhile walk.within, found.any fun item => !walk.within item) := by
  induction found with
  | nil => simp [LaneWalk.positioned, active]
  | cons item rest ih =>
    have tail := ih fun other member => placed other (List.mem_cons_of_mem item member)
    have stops : (walk.wrapped && walk.start.any (· < item.1)) = !walk.within item := by
      cases started : walk.start <;> simp [within, started, ← not_le]
    simp only [List.map_cons, LaneWalk.positioned, placed item List.mem_cons_self, stops, tail]
    cases kept : walk.within item <;> simp [kept]

namespace SteadyPages

variable {mark : Position} {item : Placed}
  {select : Option Cursor → ReplayablePage} {limit : Nat} (pages : SteadyPages select limit)

def ahead (floor : Option Position) : List Placed :=
  pages.entries.filter fun item => beyond floor item.1

def behind (start : Option Position) : List Placed :=
  pages.entries.filter fun item => start.all (item.1 ≤ ·)

def route (stored : Option Cursor) : List Placed :=
  pages.ahead (decodeReplayCursor stored) ++
    if stored.isNone then [] else pages.behind (decodeReplayCursor stored)

def remaining (walk : LaneWalk) : List Placed :=
  (pages.ahead (decodeReplayCursor walk.cursor)).filter walk.within

def left (floor : Option Position) : Nat :=
  (pages.marks.filter fun mark => beyond floor mark = true).card

def weight (walk : LaneWalk) : Nat :=
  if walk.done then 0
  else 1 + (pages.remaining walk).length + pages.left (decodeReplayCursor walk.cursor) +
    if walk.wrapped then 0 else 1 + pages.entries.length + pages.marks.card

def Stands (walk : LaneWalk) (mark : Position) : Prop :=
  mark ∈ pages.marks ∧ walk.cursor = some (.encoded mark) ∧ walk.recorded = some (.encoded mark)

structure Skips (walk : LaneWalk) (mark : Position) : Prop where
  known : mark ∈ pages.marks
  past : beyond (decodeReplayCursor walk.cursor) mark = true
  clear : ∀ item ∈ pages.entries, beyond (decodeReplayCursor walk.cursor) item.1 = true → mark < item.1

structure FirstLeg (stored : Option Cursor) (walk : LaneWalk) (log : List Placed) : Prop where
  around : walk.wrapped = stored.isNone
  covered : log ++ pages.remaining walk = pages.ahead (decodeReplayCursor stored)
  cursor : walk.cursor = stored ∧ walk.recorded = none ∨
    ∃ mark, beyond (decodeReplayCursor stored) mark = true ∧ pages.Stands walk mark

structure SecondLeg (stored : Option Cursor) (walk : LaneWalk) (log : List Placed) : Prop where
  resumed : stored.isSome = true
  around : walk.wrapped = true
  covered : ∃ again, log = pages.ahead (decodeReplayCursor stored) ++ again ∧
    again ++ pages.remaining walk = pages.behind (decodeReplayCursor stored)
  cursor : (walk.cursor = none ∧ (walk.recorded = none ∨ ∃ mark ∈ pages.marks,
      beyond (decodeReplayCursor stored) mark = true ∧ walk.recorded = some (.encoded mark))) ∨
    ∃ mark, pages.Stands walk mark

structure Tracks (stored : Option Cursor) (walk : LaneWalk) (pending log : List Placed) : Prop where
  start : walk.start = decodeReplayCursor stored
  leg : pages.FirstLeg stored walk log ∨ pages.SecondLeg stored walk log
  next : pending <+: pages.remaining walk
  ended : walk.done = true ∨ walk.lastPage = true → pending = pages.remaining walk
  finished : walk.done = true → walk.wrapped = true

@[simp] theorem decode_encoded (place : Position) : decodeReplayCursor (some (.encoded place)) = some place :=
  rfl

@[simp] theorem decode_none : decodeReplayCursor none = none :=
  rfl

@[simp] theorem beyond_some (low place : Position) : beyond (some low) place = true ↔ low < place := by
  simp [beyond]

@[simp] theorem beyond_none (place : Position) : beyond none place = true :=
  rfl

theorem beyond_iff (floor : Option Position) (place : Position) :
    beyond floor place = true ↔ ∀ low, floor = some low → low < place := by
  cases floor <;> simp [beyond]

variable {floor : Option Position}

theorem beyond_trans {low high : Position} (past : beyond floor low = true) (later : low < high) :
    beyond floor high = true := by
  rw [beyond_iff] at past ⊢
  intro bottom known
  exact (past bottom known).trans later

theorem mem_remaining_iff (walk : LaneWalk) (item : Placed) :
    item ∈ pages.remaining walk ↔ item ∈ pages.entries ∧
      beyond (decodeReplayCursor walk.cursor) item.1 = true ∧ walk.within item = true := by
  simp only [remaining, ahead, mem_filter, and_assoc]

theorem remaining_sorted (walk : LaneWalk) : (pages.remaining walk).Pairwise fun left right => left.1 < right.1 :=
  (pages.sorted.sublist filter_sublist).sublist filter_sublist

theorem left_mono (past : beyond floor mark = true) : pages.left (some mark) ≤ pages.left floor := by
  apply Finset.card_le_card
  intro other member
  simp only [Finset.mem_filter] at member ⊢
  exact ⟨member.1, beyond_trans past (by simpa using member.2)⟩

theorem left_lt (known : mark ∈ pages.marks) (past : beyond floor mark = true) :
    pages.left (some mark) < pages.left floor := by
  apply Finset.card_lt_card
  rw [Finset.ssubset_iff_of_subset]
  · exact ⟨mark, by simp [known, past], by simp⟩
  · intro other member
    simp only [Finset.mem_filter] at member ⊢
    exact ⟨member.1, beyond_trans past (by simpa using member.2)⟩

section

variable {pages} {stored : Option Cursor} {walk : LaneWalk} {pending log : List Placed} {mark : Position}

theorem remaining_moveTo (past : beyond (decodeReplayCursor walk.cursor) mark = true) :
    pages.remaining (walk.moveTo (.encoded mark)) = (pages.remaining walk).filter fun item => mark < item.1 := by
  have kept : (walk.moveTo (.encoded mark)).within = walk.within := rfl
  have moved : decodeReplayCursor (walk.moveTo (.encoded mark)).cursor = some mark := rfl
  simp only [remaining, ahead, List.filter_filter, kept, moved]
  apply List.filter_congr
  intro item _
  rw [Bool.eq_iff_iff]
  simp only [Bool.and_eq_true, beyond_some, decide_eq_true_eq]
  constructor
  · rintro ⟨inside, later⟩
    exact ⟨later, inside, beyond_trans past later⟩
  · rintro ⟨later, inside, _⟩
    exact ⟨inside, later⟩

variable {rest : List Placed}

theorem remaining_look (next : pages.remaining walk = item :: rest) : pages.remaining (walk.look item) = rest := by
  have member : item ∈ pages.remaining walk := by simp [next]
  have sorted := pages.remaining_sorted walk
  rw [next, pairwise_cons] at sorted
  rw [look, remaining_moveTo ((pages.mem_remaining_iff walk item).mp member).2.1, next]
  simp only [filter_cons, lt_irrefl, decide_false, Bool.false_eq_true, if_false]
  apply filter_eq_self.mpr
  intro other later
  exact decide_eq_true (sorted.1 other later)

theorem remaining_skip (skips : pages.Skips walk mark) :
    pages.remaining (walk.moveTo (.encoded mark)) = pages.remaining walk := by
  rw [remaining_moveTo skips.past]
  apply filter_eq_self.mpr
  intro item member
  obtain ⟨listed, ahead, _⟩ := (pages.mem_remaining_iff walk item).mp member
  exact decide_eq_true (skips.clear item listed ahead)

theorem leg_flags (leg : pages.FirstLeg stored walk log ∨ pages.SecondLeg stored walk log) (done lastPage : Bool) :
    pages.FirstLeg stored { walk with done, lastPage } log ∨
      pages.SecondLeg stored { walk with done, lastPage } log := by
  rcases leg with leg | leg
  · exact .inl { leg with }
  · exact .inr { leg with }

theorem FirstLeg.not_second {walk' : LaneWalk} {log' : List Placed} (leg : pages.FirstLeg stored walk log)
    (same : walk'.wrapped = walk.wrapped) : ¬pages.SecondLeg stored walk' log' := by
  intro second
  have none : stored.isNone = true := by rw [← leg.around, ← same, second.around]
  have present := second.resumed
  rw [isNone_iff_eq_none] at none
  simp [none] at present

theorem FirstLeg.mem_ahead (leg : pages.FirstLeg stored walk log)
    (member : item ∈ pages.remaining walk) : beyond (decodeReplayCursor stored) item.1 = true := by
  have covered : item ∈ pages.ahead (decodeReplayCursor stored) := by
    rw [← leg.covered]
    exact mem_append_right log member
  exact (mem_filter.mp covered).2

theorem tracks_begin (lane : Lane) (after : LaneCursors) :
    pages.Tracks (after.get lane.key) (begin lane after) [] [] := by
  have whole : pages.remaining (begin lane after) = pages.ahead (decodeReplayCursor (after.get lane.key)) := by
    apply filter_eq_self.mpr
    intro item _
    cases found : after.get lane.key <;> simp [within, begin, found, decodeReplayCursor]
  constructor
  · rfl
  · exact .inl ⟨rfl, by simp [whole], .inl ⟨rfl, rfl⟩⟩
  · exact nil_prefix
  · simp [begin]
  · simp [begin]

theorem stands_look (member : item ∈ pages.remaining walk) : pages.Stands (walk.look item) item.1 :=
  ⟨pages.marked item ((pages.mem_remaining_iff walk item).mp member).1, rfl, rfl⟩

theorem FirstLeg.look (leg : pages.FirstLeg stored walk log) (next : pages.remaining walk = item :: rest) :
    pages.FirstLeg stored (walk.look item) (log ++ [item]) := by
  have member : item ∈ pages.remaining walk := by simp [next]
  refine ⟨leg.around, ?_, .inr ⟨item.1, leg.mem_ahead member, stands_look member⟩⟩
  rw [remaining_look next, ← leg.covered, next]
  simp

theorem SecondLeg.look (leg : pages.SecondLeg stored walk log) (next : pages.remaining walk = item :: rest) :
    pages.SecondLeg stored (walk.look item) (log ++ [item]) := by
  have member : item ∈ pages.remaining walk := by simp [next]
  obtain ⟨again, whole, covered⟩ := leg.covered
  refine ⟨leg.resumed, leg.around, ⟨again ++ [item], by simp [whole], ?_⟩, .inr ⟨item.1, stands_look member⟩⟩
  rw [remaining_look next, ← covered, next]
  simp

theorem Tracks.remaining_eq (tracks : pages.Tracks stored walk (item :: pending) log) :
    ∃ rest, pages.remaining walk = item :: (pending ++ rest) := by
  obtain ⟨rest, split⟩ := tracks.next
  exact ⟨rest, by simpa using split.symm⟩

theorem Tracks.look (tracks : pages.Tracks stored walk (item :: pending) log) :
    pages.Tracks stored (walk.look item) pending (log ++ [item]) := by
  obtain ⟨rest, next⟩ := tracks.remaining_eq
  have left := remaining_look next
  constructor
  · exact tracks.start
  · exact tracks.leg.imp (fun leg => leg.look next) fun leg => leg.look next
  · rw [left]
    exact prefix_append pending rest
  · intro ends
    have same := tracks.ended ends
    rw [next] at same
    rw [left]
    exact (cons.inj same).2
  · exact tracks.finished

theorem Tracks.prefix_route (tracks : pages.Tracks stored walk pending log) : log <+: pages.route stored := by
  rcases tracks.leg with leg | leg
  · refine IsPrefix.trans ⟨pages.remaining walk, leg.covered⟩ ?_
    exact prefix_append _ _
  · obtain ⟨again, whole, covered⟩ := leg.covered
    have resumed : stored.isNone = false := isNone_eq_false_iff.mpr leg.resumed
    refine ⟨pages.remaining walk, ?_⟩
    rw [route, resumed, whole, ← covered]
    simp

section

variable (tracks : pages.Tracks stored walk [] log)

include tracks

theorem Tracks.eq_route (done : walk.done = true) : log = pages.route stored := by
  have out : pages.remaining walk = [] := (tracks.ended (.inl done)).symm
  rcases tracks.leg with leg | leg
  · have covered := leg.covered
    have absent : stored.isNone = true := by rw [← leg.around, tracks.finished done]
    rw [out, append_nil] at covered
    simp [route, absent, covered]
  · obtain ⟨again, whole, covered⟩ := leg.covered
    have present := leg.resumed
    rw [out, append_nil] at covered
    simp [route, whole, covered, isNone_eq_false_iff.mpr present]

theorem Tracks.skip (active : walk.done = false) (fresh : walk.lastPage = false) (skips : pages.Skips walk mark) :
    pages.Tracks stored (walk.moveTo (.encoded mark)) [] log := by
  have same := remaining_skip skips
  have past := skips.past
  have stands : pages.Stands (walk.moveTo (.encoded mark)) mark := ⟨skips.known, rfl, rfl⟩
  constructor
  · exact tracks.start
  · rcases tracks.leg with leg | leg
    · refine .inl ⟨leg.around, by rw [same]; exact leg.covered, .inr ⟨mark, ?_, stands⟩⟩
      rcases leg.cursor with ⟨here, _⟩ | ⟨low, above, _, here, _⟩
      · rwa [here] at past
      · rw [here] at past
        exact beyond_trans above (by simpa using past)
    · exact .inr ⟨leg.resumed, leg.around, by rw [same]; exact leg.covered, .inr ⟨mark, stands⟩⟩
  · exact nil_prefix
  · simp [moveTo, active, fresh]
  · exact tracks.finished

theorem Tracks.turn (straight : walk.wrapped = false)
    (out : pages.remaining walk = []) : pages.SecondLeg stored walk.endReached log := by
  have turns : walk.endReached = { walk with wrapped := true, cursor := none } := by
    simp [endReached, straight]
  have leg : pages.FirstLeg stored walk log := by
    refine tracks.leg.resolve_right ?_
    intro second
    simp [second.around] at straight
  have whole : pages.remaining walk.endReached = pages.behind (decodeReplayCursor stored) := by
    rw [turns, remaining, ahead, behind, List.filter_filter]
    apply filter_congr
    intro item _
    simp [within, tracks.start]
  have resumed : stored.isSome = true := by
    have kept := leg.around
    rw [straight] at kept
    simpa using kept.symm
  rw [turns] at whole ⊢
  refine ⟨resumed, rfl, ⟨[], ?_, by simpa using whole⟩, .inl ⟨rfl, ?_⟩⟩
  · rw [← leg.covered, out, append_nil, append_nil]
  · rcases leg.cursor with ⟨_, none⟩ | ⟨mark, above, known, _, recorded⟩
    · exact .inl none
    · exact .inr ⟨mark, known, above, recorded⟩

theorem Tracks.endReached (active : walk.done = false)
    (fresh : walk.lastPage = false) (out : pages.remaining walk = []) :
    pages.Tracks stored walk.endReached [] log := by
  cases around : walk.wrapped with
  | true =>
    have ends : walk.endReached = { walk with done := true } := by simp [LaneWalk.endReached, around]
    rw [ends]
    exact ⟨tracks.start, leg_flags tracks.leg _ _, nil_prefix, fun _ => out.symm, fun _ => around⟩
  | false =>
    have second := tracks.turn around out
    have turns : walk.endReached = { walk with wrapped := true, cursor := none } := by
      simp [LaneWalk.endReached, around]
    rw [turns] at second ⊢
    exact ⟨tracks.start, .inr second, nil_prefix, by simp [active, fresh], by simp [active]⟩

theorem Tracks.finishPage : pages.Tracks stored walk.finishPage [] log := by
  by_cases last : walk.lastPage = true ∧ walk.done = false
  · have ends : walk.finishPage = { walk with lastPage := false }.endReached := by
      simp [LaneWalk.finishPage, last]
    have out : pages.remaining walk = [] := (tracks.ended (.inr last.1)).symm
    have clean : pages.Tracks stored { walk with lastPage := false } [] log :=
      ⟨tracks.start, leg_flags tracks.leg _ _, tracks.next, by simp [last], tracks.finished⟩
    rw [ends]
    exact clean.endReached last.2 rfl out
  · have same : walk.finishPage = walk := by
      simp only [LaneWalk.finishPage]
      grind
    rwa [same]

end

end

section

variable {pages} {walk : LaneWalk}

theorem weight_look {rest : List Placed} (next : pages.remaining walk = item :: rest) :
    pages.weight (walk.look item) ≤ pages.weight walk ∧
      (walk.done = false → pages.weight (walk.look item) < pages.weight walk) := by
  have past := ((pages.mem_remaining_iff walk item).mp (by simp [next])).2.1
  have fewer := pages.left_mono past
  have cursor : decodeReplayCursor (walk.look item).cursor = some item.1 := rfl
  have around : (walk.look item).wrapped = walk.wrapped := rfl
  have done : (walk.look item).done = walk.done := rfl
  simp only [weight, remaining_look next, cursor, around, done, next, length_cons]
  cases walk.done with
  | true => simp
  | false =>
    simp only [Bool.false_eq_true, if_false]
    omega

theorem weight_skip (active : walk.done = false) (skips : pages.Skips walk mark) :
    pages.weight (walk.moveTo (.encoded mark)) < pages.weight walk := by
  have fewer := pages.left_lt skips.known skips.past
  have cursor : decodeReplayCursor (walk.moveTo (.encoded mark)).cursor = some mark := rfl
  have around : (walk.moveTo (.encoded mark)).wrapped = walk.wrapped := rfl
  have done : (walk.moveTo (.encoded mark)).done = false := active
  simp only [weight, remaining_skip skips, cursor, around, done, active]
  simp only [Bool.false_eq_true, if_false]
  omega

theorem weight_endReached (active : walk.done = false) : pages.weight walk.endReached < pages.weight walk := by
  cases around : walk.wrapped with
  | true => simp [weight, endReached, around, active]
  | false =>
    have done : walk.endReached.done = false := by simp [endReached, around, active]
    have cursor : walk.endReached.cursor = none := by simp [endReached, around]
    have turned : walk.endReached.wrapped = true := by simp [endReached, around]
    have most : (pages.remaining walk.endReached).length ≤ pages.entries.length :=
      (length_filter_le _ _).trans (length_filter_le _ _)
    have marks : pages.left none ≤ pages.marks.card := Finset.card_filter_le _ _
    simp only [weight, done, cursor, turned, active, around, decode_none, Bool.false_eq_true, if_false, if_true]
    omega

theorem weight_finishPage (walk : LaneWalk) : pages.weight walk.finishPage ≤ pages.weight walk := by
  simp only [finishPage]
  split
  · rename_i last
    have flags : pages.weight { walk with lastPage := false } = pages.weight walk := rfl
    rw [← flags]
    apply (weight_endReached _).le
    simp only [Bool.and_eq_true, Bool.not_eq_true'] at last
    exact last.2
  · exact le_rfl

theorem weight_le (walk : LaneWalk) : pages.weight walk ≤ 2 + 2 * pages.entries.length + 2 * pages.marks.card := by
  have most : (pages.remaining walk).length ≤ pages.entries.length :=
    (length_filter_le _ _).trans (length_filter_le _ _)
  have marks : pages.left (decodeReplayCursor walk.cursor) ≤ pages.marks.card := Finset.card_filter_le _ _
  simp only [weight]
  split
  · omega
  · split <;> omega

end

section

variable {runner : RecoveryTrialRunner} {lane : Lane} {walk : LaneWalk}
  (pages : SteadyPages (runner.findReplayablePage runner.maxReplayAttempts lane trialCandidatePage) trialCandidatePage)

theorem remaining_eq_takeWhile (walk : LaneWalk) :
    pages.remaining walk = (pages.ahead (decodeReplayCursor walk.cursor)).takeWhile walk.within := by
  have sorted : (pages.ahead (decodeReplayCursor walk.cursor)).Pairwise fun left right => left.1 < right.1 :=
    pages.sorted.sublist filter_sublist
  apply sorted.filter_eq_takeWhile
  intro left right earlier inside
  cases started : walk.start with
  | none => simp [within, started]
  | some =>
    simp only [within, started, all_some, Bool.or_eq_true, Bool.not_eq_true', decide_eq_true_eq] at inside ⊢
    exact inside.imp_right earlier.le.trans

theorem readPage_cases (own : walk.lane = lane) (active : walk.done = false) :
    (∃ mark, pages.Skips walk mark ∧ walk.readPage runner = (walk.moveTo (.encoded mark), [])) ∨
    (pages.remaining walk = [] ∧ walk.readPage runner = (walk.endReached, [])) ∨
    (walk.wrapped = true ∧ walk.readPage runner = ({ walk with done := true }, pages.remaining walk)) ∨
    ∃ found lastPage, found ≠ [] ∧ found <+: pages.remaining walk ∧
      (lastPage = true → found = pages.remaining walk) ∧
      walk.readPage runner = ({ walk with lastPage }, found) := by
  subst own
  obtain ⟨found, ⟨more, split⟩, listed⟩ := pages.listed walk.cursor
  have whole : pages.remaining walk = (found ++ more).takeWhile walk.within := by
    rw [remaining_eq_takeWhile, split, ahead]
  have placed : ∀ item ∈ found, item.2.position = some item.1 := by
    intro item member
    have inside : item ∈ pages.ahead (decodeReplayCursor walk.cursor) := by
      rw [ahead, ← split]
      exact mem_append_left more member
    exact pages.placed item (mem_filter.mp inside).1
  cases found with
  | nil =>
    cases bound : (runner.findReplayablePage runner.maxReplayAttempts walk.lane trialCandidatePage
        walk.cursor).scanExhausted with
    | true =>
      obtain ⟨mark, known, next, past, clear⟩ := pages.resumes walk.cursor bound (by simpa using listed)
      exact .inl ⟨mark, ⟨known, past, clear⟩, by simp [readPage, listed, bound, next, givenCursor]⟩
    | false =>
      have all := pages.complete walk.cursor bound (by rw [listed]; decide)
      rw [listed, ← split] at all
      have none : more = [] := by simpa using all.symm
      exact .inr (.inl ⟨by simp [whole, none], by simp [readPage, listed, bound]⟩)
  | cons first rest =>
    have read := positioned_eq walk active placed
    by_cases inside : ∀ item ∈ first :: rest, walk.within item = true
    · have kept : (first :: rest).takeWhile walk.within = first :: rest :=
        takeWhile_eq_self_iff.mpr inside
      have none : ((first :: rest).any fun item => !walk.within item) = false := by
        simpa using inside
      refine .inr (.inr (.inr ⟨first :: rest, _, by simp, ?_, ?_, by
        simp only [readPage, listed, read, kept, none]
        rfl⟩))
      · rw [whole, takeWhile_append, kept, if_pos rfl]
        exact prefix_append _ _
      · intro last
        simp only [Bool.and_eq_true, decide_eq_true_eq, Bool.not_eq_true'] at last
        have all := pages.complete walk.cursor last.2 (by simpa [listed] using last.1)
        rw [listed, ← split] at all
        have done : more = [] := by simpa using all.symm
        rw [whole, done, append_nil, kept]
    · have some : ((first :: rest).any fun item => !walk.within item) = true := by
        simp only [not_forall] at inside
        obtain ⟨item, member, outside⟩ := inside
        exact any_eq_true.mpr ⟨item, member, by simpa using outside⟩
      have around : walk.wrapped = true := by
        by_contra straight
        exact inside fun item _ => by simp [within, straight]
      have cut : ((first :: rest).takeWhile walk.within).length ≠ (first :: rest).length := by
        intro full
        exact inside (takeWhile_eq_self_iff.mp (( takeWhile_prefix _).eq_of_length full))
      refine .inr (.inr (.inl ⟨around, ?_⟩))
      rw [whole, takeWhile_append, if_neg cut]
      simp only [readPage, listed, read, some]
      rfl

variable {pages} {stored : Option Cursor} {log : List Placed}

theorem Tracks.readPage (tracks : pages.Tracks stored walk [] log) (own : walk.lane = lane)
    (active : walk.done = false) (fresh : walk.lastPage = false) :
    pages.Tracks stored (walk.readPage runner).1 (walk.readPage runner).2 log := by
  rcases pages.readPage_cases own active with ⟨mark, skips, read⟩ | ⟨out, read⟩ | ⟨around, read⟩ |
    ⟨found, lastPage, _, next, last, read⟩
  · rw [read]
    exact tracks.skip active fresh skips
  · rw [read]
    exact tracks.endReached active fresh out
  · rw [read]
    exact ⟨tracks.start, leg_flags tracks.leg _ _, prefix_rfl, fun _ => rfl, fun _ => around⟩
  · rw [read]
    refine ⟨tracks.start, leg_flags tracks.leg _ _, next, ?_, tracks.finished⟩
    rintro (done | ends)
    · simp [active] at done
    · exact last ends

def Opening (pages : SteadyPages select limit) (stored : Option Cursor) (walk : LaneWalk)
    (pending log : List Placed) : Prop :=
  pages.FirstLeg stored walk log ∨ pages.SecondLeg stored walk log ∧ walk.cursor = none ∧ pending = []

def Started (pages : SteadyPages select limit) (stored : Option Cursor) (walk : LaneWalk) (log : List Placed) : Prop :=
  walk.recorded.isSome = true ∨ walk.done = true ∨ pages.SecondLeg stored walk log

def Poised (pages : SteadyPages select limit) (stored : Option Cursor) (walk : LaneWalk)
    (pending log : List Placed) : Prop :=
  walk.recorded.isSome = true ∨ walk.done = true ∧ pending = [] ∨ pages.SecondLeg stored walk log ∧ pending ≠ []

theorem recorded_endReached (walk : LaneWalk) : walk.endReached.recorded = walk.recorded := by
  simp only [endReached]
  split <;> rfl

theorem Opening.look {pending : List Placed} (opening : pages.Opening stored walk (item :: pending) log)
    (tracks : pages.Tracks stored walk (item :: pending) log) :
    pages.Opening stored (walk.look item) pending (log ++ [item]) := by
  obtain ⟨rest, next⟩ := tracks.remaining_eq
  rcases opening with leg | ⟨_, _, empty⟩
  · exact .inl (leg.look next)
  · simp at empty

theorem opening_readPage (leg : pages.FirstLeg stored walk log) (tracks : pages.Tracks stored walk [] log)
    (own : walk.lane = lane) (active : walk.done = false) (fresh : walk.lastPage = false) :
    pages.Opening stored (walk.readPage runner).1 (walk.readPage runner).2 log := by
  have kept := (tracks.readPage own active fresh).leg
  rcases pages.readPage_cases own active with ⟨mark, _, read⟩ | ⟨out, read⟩ | ⟨_, read⟩ |
    ⟨found, lastPage, _, _, _, read⟩
  · rw [read] at kept ⊢
    exact .inl (kept.resolve_right (leg.not_second rfl))
  · rw [read]
    cases around : walk.wrapped with
    | true =>
      have ends : walk.endReached = { walk with done := true } := by simp [endReached, around]
      rw [ends]
      exact .inl { leg with }
    | false =>
      have cursor : walk.endReached.cursor = none := by simp [endReached, around]
      exact .inr ⟨tracks.turn around out, cursor, rfl⟩
  · rw [read]
    exact .inl { leg with }
  · rw [read]
    exact .inl { leg with }

theorem lane_endReached (walk : LaneWalk) : walk.endReached.lane = walk.lane := by
  simp only [endReached]
  split <;> rfl

theorem lane_finishPage (walk : LaneWalk) : walk.finishPage.lane = walk.lane := by
  simp only [finishPage]
  split
  · exact lane_endReached _
  · rfl

theorem lastPage_finishPage (walk : LaneWalk) (active : walk.finishPage.done = false) :
    walk.finishPage.lastPage = false := by
  simp only [finishPage] at active ⊢
  split
  · simp only [endReached]
    split <;> rfl
  · rename_i same
    rw [if_neg same] at active
    simpa [active] using same

theorem lane_readPage (pages : SteadyPages
      (runner.findReplayablePage runner.maxReplayAttempts lane trialCandidatePage) trialCandidatePage)
    (own : walk.lane = lane) (active : walk.done = false) :
    (walk.readPage runner).1.lane = lane := by
  rcases pages.readPage_cases own active with ⟨_, _, read⟩ | ⟨_, read⟩ | ⟨_, read⟩ | ⟨_, _, _, _, _, read⟩
  · rw [read]
    exact own
  · rw [read, lane_endReached, own]
  · rw [read]
    exact own
  · rw [read]
    exact own

theorem started_readPage (tracks : pages.Tracks stored walk [] log) (own : walk.lane = lane)
    (active : walk.done = false) :
    pages.Started stored (walk.readPage runner).1 log ∨ (walk.readPage runner).2 ≠ [] := by
  rcases pages.readPage_cases own active with ⟨mark, _, read⟩ | ⟨out, read⟩ | ⟨_, read⟩ |
    ⟨found, lastPage, some, _, _, read⟩
  · rw [read]
    exact .inl (.inl rfl)
  · rw [read]
    cases around : walk.wrapped with
    | true => exact .inl (.inr (.inl (by simp [endReached, around])))
    | false => exact .inl (.inr (.inr (tracks.turn around out)))
  · rw [read]
    exact .inl (.inr (.inl rfl))
  · rw [read]
    exact .inr some

theorem poised_readPage (started : pages.Started stored walk log) (own : walk.lane = lane)
    (active : walk.done = false) :
    pages.Poised stored (walk.readPage runner).1 (walk.readPage runner).2 log := by
  have second : walk.recorded.isSome = false → pages.SecondLeg stored walk log := by
    intro unmoved
    rcases started with moved | done | leg
    · simp [unmoved] at moved
    · simp [active] at done
    · exact leg
  rcases pages.readPage_cases own active with ⟨mark, _, read⟩ | ⟨out, read⟩ | ⟨_, read⟩ |
    ⟨found, lastPage, some, _, _, read⟩
  · rw [read]
    exact .inl rfl
  · rw [read, Poised, recorded_endReached]
    cases moved : walk.recorded.isSome with
    | true => exact .inl rfl
    | false => exact .inr (.inl ⟨by simp [endReached, (second moved).around], rfl⟩)
  · rw [read]
    cases moved : walk.recorded.isSome with
    | true => exact .inl moved
    | false =>
      have leg := second moved
      by_cases out : pages.remaining walk = []
      · exact .inr (.inl ⟨rfl, out⟩)
      · exact .inr (.inr ⟨{ leg with }, out⟩)
  · rw [read]
    cases moved : walk.recorded.isSome with
    | true => exact .inl moved
    | false =>
      have leg := second moved
      exact .inr (.inr ⟨{ leg with }, some⟩)

theorem started_finishPage (started : pages.Started stored walk log) : pages.Started stored walk.finishPage log := by
  simp only [finishPage]
  split
  · rename_i last
    simp only [Bool.and_eq_true, Bool.not_eq_true'] at last
    rcases started with moved | done | leg
    · exact .inl (by rw [recorded_endReached]; exact moved)
    · simp [last.2] at done
    · exact .inr (.inl (by simp [endReached, leg.around]))
  · exact started

theorem weight_readPage (own : walk.lane = lane) (active : walk.done = false) :
    pages.weight (walk.readPage runner).1 < pages.weight walk ∨
    (walk.readPage runner).1.done = false ∧ (walk.readPage runner).2 ≠ [] ∧
      pages.weight (walk.readPage runner).1 = pages.weight walk := by
  rcases pages.readPage_cases own active with ⟨mark, skips, read⟩ | ⟨_, read⟩ | ⟨_, read⟩ |
    ⟨found, lastPage, some, _, _, read⟩
  · rw [read]
    exact .inl (weight_skip active skips)
  · rw [read]
    exact .inl (weight_endReached active)
  · rw [read]
    left
    simp [weight, active]
  · rw [read]
    exact .inr ⟨active, some, rfl⟩

end

end SteadyPages

end Baldur.Dlq
