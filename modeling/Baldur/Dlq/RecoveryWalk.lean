import Baldur.Dlq.LaneWalks
import Baldur.Lib.Turns

/-!
The candidate walk over all lanes of a job name, and its ticks. A round acts on each lane by itself.
-/

namespace Baldur.Dlq

open Function LaneCursors LaneWalk List Option SteadyPages Turns WalkState

variable {item : Placed}

abbrev SteadyBacklog (runner : RecoveryTrialRunner) :=
  ∀ lane, SteadyPages (runner.findReplayablePage runner.maxReplayAttempts lane trialCandidatePage) trialCandidatePage

abbrev RecoveryTrialRunner.Refuses (runner : RecoveryTrialRunner) (items : List Placed) : Prop :=
  ∀ item ∈ items, runner.accepts item.2 = false

theorem eq_of_place_eq {items : List Placed} (sorted : items.Pairwise fun left right => left.1 < right.1)
    {first second : Placed} (firstMember : first ∈ items) (secondMember : second ∈ items)
    (same : first.1 = second.1) : first = second := by
  have distinct : (items.map Prod.fst).Nodup := by
    rw [nodup_iff_pairwise_ne, pairwise_map]
    exact sorted.imp ne_of_lt
  exact inj_on_of_nodup_map distinct firstMember secondMember same

section

variable {n : Nat}

def ofLane (lane : Fin n) (items : List (Fin n × Placed)) : List Placed :=
  (items.filter fun item => item.1 = lane).map Prod.snd

@[simp] theorem ofLane_nil (lane : Fin n) : ofLane lane [] = [] :=
  rfl

theorem ofLane_append (lane : Fin n) (first second : List (Fin n × Placed)) :
    ofLane lane (first ++ second) = ofLane lane first ++ ofLane lane second := by
  simp [ofLane]

theorem ofLane_cons (lane : Fin n) (item : Fin n × Placed) (rest : List (Fin n × Placed)) :
    ofLane lane (item :: rest) = if item.1 = lane then item.2 :: ofLane lane rest else ofLane lane rest := by
  by_cases own : item.1 = lane <;> simp [ofLane, own]

theorem mem_ofLane_iff (lane : Fin n) (items : List (Fin n × Placed)) (item : Placed) :
    item ∈ ofLane lane items ↔ (lane, item) ∈ items := by
  simp only [ofLane, List.mem_map, List.mem_filter, decide_eq_true_eq]
  constructor
  · rintro ⟨⟨_, _⟩, ⟨member, rfl⟩, rfl⟩
    exact member
  · intro member
    exact ⟨(lane, item), ⟨member, rfl⟩, rfl⟩

variable (items : List (Fin n × Placed))

theorem nodup_iff_lanes : items.Nodup ↔ ∀ lane, (ofLane lane items).Nodup := by
  constructor
  · intro distinct lane
    refine (distinct.filter _).map_on ?_
    intro first firstMember second secondMember same
    have firstLane := (mem_filter.mp firstMember).2
    have secondLane := (mem_filter.mp secondMember).2
    simp only [decide_eq_true_eq] at firstLane secondLane
    exact Prod.ext (firstLane.trans secondLane.symm) same
  · intro distinct
    rw [nodup_iff_sublist]
    intro item twice
    have filtered := (twice.filter fun other => decide (other.1 = item.1)).map Prod.snd
    exact nodup_iff_sublist.mp (distinct item.1) item.2 (by simpa [ofLane] using filtered)

theorem lanes_look (state : WalkState n) {item : Fin n × Placed} (placed : item.2.2.position = some item.2.1) :
    (state.look item).lanes = Function.update state.lanes item.1 ((state.lanes item.1).look item.2) := by
  have cursor : item.2.2.cursor = some (.encoded item.2.1) := by
    obtain ⟨instant, created, place⟩ := (position_eq_some_iff item.2.2 item.2.1).mp placed
    simp [FailedOperationData.cursor, created, encodeReplayCursor, place]
  simp [WalkState.look, cursor, LaneWalk.look]

theorem looks_keep {keeps : Fin n → LaneWalk → List Placed → List Placed → Prop}
    (step : ∀ lane walk item pending log, keeps lane walk (item :: pending) log →
      keeps lane (walk.look item) pending (log ++ [item]))
    (before rest : List (Fin n × Placed)) (placed : ∀ item ∈ before, item.2.2.position = some item.2.1)
    (state : WalkState n)
    (held : ∀ lane, keeps lane (state.lanes lane) (ofLane lane (before ++ rest)) (ofLane lane state.examined)) :
    ∀ lane, keeps lane ((before.foldl WalkState.look state).lanes lane) (ofLane lane rest)
      (ofLane lane (before.foldl WalkState.look state).examined) := by
  induction before generalizing state with
  | nil => exact held
  | cons item more ih =>
    apply ih
    · intro other member
      exact placed other (mem_cons_of_mem item member)
    · intro lane
      have now := held lane
      rw [cons_append, ofLane_cons] at now
      rw [lanes_look state (placed item mem_cons_self)]
      have log : ofLane lane (state.look item).examined = ofLane lane state.examined ++ ofLane lane [item] :=
        ofLane_append lane state.examined [item]
      rw [log, ofLane_cons]
      by_cases own : item.1 = lane
      · subst own
        rw [if_pos rfl] at now
        simpa using step _ _ _ _ _ now
      · rw [if_neg own] at now
        simpa [own, update_of_ne (Ne.symm own)] using now

theorem examined_looks (state : WalkState n) :
    (items.foldl WalkState.look state).examined = state.examined ++ items := by
  induction items generalizing state with
  | nil => simp
  | cons item rest ih => simp [ih, WalkState.look]

theorem looks_looks (state : WalkState n) (looks : Nat) :
    items.foldl WalkState.look { state with looks } = { items.foldl WalkState.look state with looks } := by
  induction items generalizing state with
  | nil => rfl
  | cons item rest ih => exact ih (state.look item)

theorem candidate_looks (state : WalkState n) : (items.foldl WalkState.look state).candidate = state.candidate := by
  induction items generalizing state with
  | nil => rfl
  | cons item rest ih => exact ih (state.look item)

variable {runner : RecoveryTrialRunner}

theorem examine_cases (unbounded : ∀ look, runner.past look = false) (items : List (Fin n × Placed))
    (state : WalkState n) :
    (∃ looks, state.examine runner items = ({ items.foldl WalkState.look state with looks }, false) ∧
      ∀ item ∈ items, runner.accepts item.2.2 = false) ∨
    ∃ before item rest looks, items = before ++ item :: rest ∧
      (∀ other ∈ before, runner.accepts other.2.2 = false) ∧ runner.accepts item.2.2 = true ∧
      state.examine runner items =
        ({ (before.foldl WalkState.look state).look item with candidate := some item.2.2, looks }, true) := by
  induction items generalizing state with
  | nil => exact .inl ⟨state.looks, rfl, by simp⟩
  | cons first rest ih =>
    cases accepted : runner.accepts first.2.2 with
    | true =>
      exact .inr ⟨[], first, rest, state.looks, rfl, by simp, accepted, by
        simp [WalkState.examine, accepted, WalkState.look]⟩
    | false =>
      have goesOn : state.examine runner (first :: rest) =
          { state.look first with looks := state.looks + 1 }.examine runner rest := by
        simp [WalkState.examine, accepted, unbounded, WalkState.look]
      rw [goesOn]
      rcases ih { state.look first with looks := state.looks + 1 } with
        ⟨looks, ended, refused⟩ | ⟨before, item, more, looks, split, refused, taken, ended⟩
      · rw [looks_looks] at ended
        exact .inl ⟨looks, ended, by simpa [accepted] using refused⟩
      · rw [looks_looks] at ended
        exact .inr ⟨first :: before, item, more, looks, by simp [split], by simpa [accepted] using refused,
          taken, ended⟩

end

section

variable {n : Nat} {runner : RecoveryTrialRunner}

theorem merged_sorted (state : WalkState n) : (state.merged runner).Pairwise fun left right => left.2.1 ≤ right.2.1 :=
  pairwise_insertionSort_by (fun _ _ => Iff.rfl) _

theorem ofLane_flatMap (found : Fin n → List Placed) (lane : Fin n) {lanes : List (Fin n)} (distinct : lanes.Nodup) :
    ofLane lane (lanes.flatMap fun other => (found other).map fun item => (other, item)) =
      if lane ∈ lanes then found lane else [] := by
  induction lanes with
  | nil => rfl
  | cons first rest ih =>
    rw [List.nodup_cons] at distinct
    rw [List.flatMap_cons, ofLane_append, ih distinct.2]
    by_cases own : first = lane
    · subst own
      simp [ofLane, List.filter_map, Function.comp_def, distinct.1]
    · simp [ofLane, List.filter_map, Function.comp_def, own, Ne.symm own]

theorem ofLane_merged (state : WalkState n) (lane : Fin n) (sorted : (state.lanes lane).done = false →
      ((state.lanes lane).readPage runner).2.Pairwise fun left right => left.1 < right.1) :
    ofLane lane (state.merged runner) =
      if (state.lanes lane).done then [] else ((state.lanes lane).readPage runner).2 := by
  let found := fun other : Fin n =>
    if (state.lanes other).done then [] else ((state.lanes other).readPage runner).2
  have read : ((finRange n).flatMap fun other =>
      if (state.lanes other).done then []
      else ((state.lanes other).readPage runner).2.map fun item => (other, item)) =
      (finRange n).flatMap fun other => (found other).map fun item => (other, item) := by
    apply flatMap_congr
    intro other _
    simp only [found]
    split <;> simp
  have own : ofLane lane ((finRange n).flatMap fun other => (found other).map fun item => (other, item)) =
      found lane := by
    rw [ofLane_flatMap found lane (nodup_finRange n), if_pos (mem_finRange lane)]
  have strict : (found lane).Pairwise fun left right => left.1 < right.1 := by
    simp only [found]
    split
    · exact Pairwise.nil
    · rename_i active
      exact sorted (by simpa using active)
  have same : (ofLane lane (state.merged runner)).Perm (found lane) := by
    rw [← own, ← read]
    exact ((perm_insertionSort _ _).filter _).map Prod.snd
  refine Perm.eq_of_pairwise ?_ ?_ (strict.imp le_of_lt) same
  · intro left right leftMember rightMember before after
    exact eq_of_place_eq strict (same.subset leftMember) rightMember (le_antisymm before after)
  · exact ((merged_sorted state).sublist filter_sublist).map Prod.snd fun _ _ ordered => ordered

end

section

variable {runner : RecoveryTrialRunner} {select : Option Cursor → ReplayablePage} {limit : Nat}
  {pages : SteadyPages select limit} {stored : Option Cursor} {walk : LaneWalk} {pending log : List Placed}

theorem remaining_of_first (leg : pages.FirstLeg stored walk log) (refused : runner.Refuses log)
    (listed : item ∈ pages.entries) (accepted : runner.accepts item.2 = true)
    (past : beyond (decodeReplayCursor stored) item.1 = true) :
    item ∈ pages.remaining walk := by
  have ahead : item ∈ pages.ahead (decodeReplayCursor stored) :=
    mem_filter.mpr ⟨listed, past⟩
  rw [← leg.covered, mem_append] at ahead
  refine ahead.resolve_left ?_
  intro seen
  simp [refused item seen] at accepted

theorem remaining_of_second (leg : pages.SecondLeg stored walk log) (refused : runner.Refuses log)
    (listed : item ∈ pages.entries) (accepted : runner.accepts item.2 = true) :
    beyond (decodeReplayCursor stored) item.1 = false ∧ item ∈ pages.remaining walk := by
  obtain ⟨again, whole, covered⟩ := leg.covered
  have unseen : item ∉ log := by
    intro seen
    simp [refused item seen] at accepted
  rw [whole, mem_append, not_or] at unseen
  have passed : beyond (decodeReplayCursor stored) item.1 = false := by
    by_contra past
    exact unseen.1 (mem_filter.mpr ⟨listed, by simpa using past⟩)
  have behind : item ∈ pages.behind (decodeReplayCursor stored) := by
    refine mem_filter.mpr ⟨listed, ?_⟩
    cases start : decodeReplayCursor stored with
    | none => rfl
    | some => simpa [start, beyond] using passed
  rw [← covered, mem_append] at behind
  exact ⟨passed, behind.resolve_left unseen.2⟩

theorem first_of_second (tracks : pages.Tracks stored walk (item :: pending) log)
    (leg : pages.SecondLeg stored walk log) (start : walk.cursor = none) (other : Placed)
    (listed : other ∈ pages.entries) : item.1 ≤ other.1 := by
  obtain ⟨rest, next⟩ := tracks.remaining_eq
  have sorted := pages.remaining_sorted walk
  rw [next, pairwise_cons] at sorted
  by_cases inside : walk.within other = true
  · have member : other ∈ pages.remaining walk := by
      rw [mem_remaining_iff]
      exact ⟨listed, by simp [start], inside⟩
    rw [next] at member
    rcases mem_cons.mp member with rfl | later
    · exact le_rfl
    · exact (sorted.1 other later).le
  · have own : item ∈ pages.remaining walk := by simp [next]
    have itemInside := ((pages.mem_remaining_iff walk item).mp own).2.2
    cases began : walk.start with
    | none => simp [within, began] at inside
    | some =>
      simp only [within, began, leg.around, all_some, Bool.not_true, Bool.false_or,
        decide_eq_true_eq, not_le] at inside itemInside
      exact itemInside.trans inside.le

theorem refused_of_done (tracks : pages.Tracks stored walk [] log)
    (refused : runner.Refuses log) (done : walk.done = true) :
    runner.Refuses pages.entries := by
  intro item listed
  by_contra accepted
  have accepted : runner.accepts item.2 = true := by simpa using accepted
  have out : pages.remaining walk = [] := (tracks.ended (.inl done)).symm
  have member : item ∈ pages.remaining walk := by
    rcases tracks.leg with leg | leg
    · have none : stored = none := by
        rw [← isNone_iff_eq_none, ← leg.around, tracks.finished done]
      exact remaining_of_first leg refused listed accepted (by simp [none])
    · exact (remaining_of_second leg refused listed accepted).2
  simp [out] at member

end

section

variable {runner : RecoveryTrialRunner} (backlog : SteadyBacklog runner) (lanes : List Lane)

def pagesOf (lane : Fin lanes.length) := backlog (lanes.get lane)

def rota : Turns.Rota (Fin lanes.length) Position where
  all lane := ((pagesOf backlog lanes lane).entries.map Prod.fst).toFinset
  good lane := (((pagesOf backlog lanes lane).entries.filter fun item => runner.accepts item.2).map Prod.fst).toFinset
  marks lane := (pagesOf backlog lanes lane).marks

variable {backlog lanes} {lane : Fin lanes.length} {stored : Option Cursor} {walk : LaneWalk}
  {pending log : List Placed}

theorem mem_all_iff (spot : Position) :
    spot ∈ (rota backlog lanes).all lane ↔ ∃ item ∈ (pagesOf backlog lanes lane).entries, item.1 = spot := by
  simp only [rota, List.mem_toFinset, List.mem_map]

theorem mem_good_iff (spot : Position) :
    spot ∈ (rota backlog lanes).good lane ↔
      ∃ item ∈ (pagesOf backlog lanes lane).entries, runner.accepts item.2 = true ∧ item.1 = spot := by
  simp only [rota, List.mem_toFinset, List.mem_map, List.mem_filter, and_assoc]

theorem past_iff (cursor : Option Position) (spot : Position) : Past cursor spot ↔ beyond cursor spot = true :=
  (beyond_iff cursor spot).symm

theorem due_of_second (leg : (pagesOf backlog lanes lane).SecondLeg stored walk log) (refused : runner.Refuses log) :
    (rota backlog lanes).due lane (decodeReplayCursor stored) = ∅ := by
  rw [Finset.eq_empty_iff_forall_notMem]
  intro spot due
  obtain ⟨good, past⟩ := (Rota.mem_due_iff _ _ _ _).mp due
  obtain ⟨item, listed, accepted, rfl⟩ := (mem_good_iff spot).mp good
  rw [past_iff, (remaining_of_second leg refused listed accepted).1] at past
  simp at past

theorem advances_of_first {mark : Position} (leg : (pagesOf backlog lanes lane).FirstLeg stored walk log)
    (refused : runner.Refuses log)
    (past : beyond (decodeReplayCursor stored) mark = true) (stands : (pagesOf backlog lanes lane).Stands walk mark) :
    (rota backlog lanes).Advances lane (decodeReplayCursor stored) (some mark) := by
  refine ⟨mark, stands.1, (past_iff _ _).mpr past, rfl, ?_⟩
  intro spot good spotPast
  obtain ⟨item, listed, accepted, rfl⟩ := (mem_good_iff spot).mp good
  have member := remaining_of_first leg refused listed accepted ((past_iff _ _).mp spotPast)
  have later := (((pagesOf backlog lanes lane).mem_remaining_iff walk item).mp member).2.1
  simpa [stands.2.1] using later

variable (tracks : (pagesOf backlog lanes lane).Tracks stored walk pending log)

include tracks in
theorem recorded_cases (refused : runner.Refuses log) :
    walk.recorded = none ∨ ∃ mark, walk.recorded = some (.encoded mark) ∧
      ((rota backlog lanes).Advances lane (decodeReplayCursor stored) (some mark) ∨
        (rota backlog lanes).TurnsAround lane (decodeReplayCursor stored) (some mark) ∧ walk.cursor ≠ none ∧
          (pagesOf backlog lanes lane).SecondLeg stored walk log) := by
  rcases tracks.leg with leg | leg
  · rcases leg.cursor with ⟨_, none⟩ | ⟨mark, past, stands⟩
    · exact .inl none
    · exact .inr ⟨mark, stands.2.2, .inl (advances_of_first leg refused past stands)⟩
  · rcases leg.cursor with ⟨_, none | ⟨mark, known, past, recorded⟩⟩ | ⟨mark, stands⟩
    · exact .inl none
    · refine .inr ⟨mark, recorded, .inl ⟨mark, known, (past_iff _ _).mpr past, rfl, ?_⟩⟩
      intro spot good spotPast
      exact absurd spotPast (Rota.not_past_of_due_eq_empty (due_of_second leg refused) good)
    · refine .inr ⟨mark, stands.2.2, .inr ⟨⟨due_of_second leg refused, mark, rfl, ?_⟩, ?_, leg⟩⟩
      · intro spot good
        obtain ⟨item, listed, accepted, rfl⟩ := (mem_good_iff spot).mp good
        have member := (remaining_of_second leg refused listed accepted).2
        have later := (((pagesOf backlog lanes lane).mem_remaining_iff walk item).mp member).2.1
        simpa [stands.2.1] using later
      · simp [stands.2.1]

include tracks in
theorem recorded_opening (opening : (pagesOf backlog lanes lane).Opening stored walk pending log)
    (refused : runner.Refuses log) :
    walk.recorded = none ∨ ∃ mark, walk.recorded = some (.encoded mark) ∧
      (rota backlog lanes).Advances lane (decodeReplayCursor stored) (some mark) := by
  rcases recorded_cases tracks refused with none | ⟨mark, recorded, advances | ⟨_, cursor, second⟩⟩
  · exact .inl none
  · exact .inr ⟨mark, recorded, advances⟩
  · rcases opening with leg | ⟨_, start, _⟩
    · exact absurd second (leg.not_second rfl)
    · exact absurd start cursor

theorem next_of_tracks (tracks : (pagesOf backlog lanes lane).Tracks stored walk (item :: pending) log)
    (refused : runner.Refuses log) :
    (Past (decodeReplayCursor stored) item.1 ∧ ∀ spot ∈ (rota backlog lanes).good lane,
      Past (decodeReplayCursor stored) spot → item.1 ≤ spot) ∨
    (rota backlog lanes).due lane (decodeReplayCursor stored) = ∅ ∧
      ∀ spot ∈ (rota backlog lanes).good lane, item.1 ≤ spot := by
  obtain ⟨rest, next⟩ := tracks.remaining_eq
  have least : ∀ other ∈ (pagesOf backlog lanes lane).remaining walk, item.1 ≤ other.1 := by
    intro other member
    have sorted := (pagesOf backlog lanes lane).remaining_sorted walk
    rw [next] at member sorted
    rcases mem_cons.mp member with rfl | later
    · exact le_rfl
    · exact ((pairwise_cons.mp sorted).1 other later).le
  rcases tracks.leg with leg | leg
  · left
    refine ⟨(past_iff _ _).mpr (leg.mem_ahead (by simp [next])), ?_⟩
    intro spot good past
    obtain ⟨other, listed, accepted, rfl⟩ := (mem_good_iff spot).mp good
    exact least other (remaining_of_first leg refused listed accepted ((past_iff _ _).mp past))
  · right
    refine ⟨due_of_second leg refused, ?_⟩
    intro spot good
    obtain ⟨other, listed, accepted, rfl⟩ := (mem_good_iff spot).mp good
    exact least other (remaining_of_second leg refused listed accepted).2

include tracks in
theorem moved_poised {spot : Position} (poised : (pagesOf backlog lanes lane).Poised stored walk pending log)
    (refused : runner.Refuses log) (later : ∀ item ∈ pending, spot ≤ item.1)
    (good : ((rota backlog lanes).good lane).Nonempty) :
    (rota backlog lanes).Advances lane (decodeReplayCursor stored) (decodeReplayCursor (walk.recorded.or stored)) ∨
      (rota backlog lanes).TurnsAround lane (decodeReplayCursor stored) (decodeReplayCursor (walk.recorded.or stored)) ∨
      decodeReplayCursor (walk.recorded.or stored) = decodeReplayCursor stored ∧
        (rota backlog lanes).due lane (decodeReplayCursor stored) = ∅ ∧
        ∀ item ∈ (rota backlog lanes).all lane, spot ≤ item := by
  rcases recorded_cases tracks refused with unmoved | ⟨mark, recorded, advances | ⟨turns, _⟩⟩
  · rcases poised with moved | ⟨done, rfl⟩ | ⟨leg, more⟩
    · simp [unmoved] at moved
    · obtain ⟨place, good⟩ := good
      obtain ⟨item, listed, accepted, _⟩ := (mem_good_iff place).mp good
      simp [refused_of_done tracks refused done item listed] at accepted
    · obtain ⟨head, rest, rfl⟩ := exists_cons_of_ne_nil more
      have start : walk.cursor = none := by
        rcases leg.cursor with ⟨start, _⟩ | ⟨mark, _, _, recorded⟩
        · exact start
        · simp [recorded] at unmoved
      refine .inr (.inr ⟨by simp [unmoved], due_of_second leg refused, ?_⟩)
      intro place member
      obtain ⟨item, listed, rfl⟩ := (mem_all_iff place).mp member
      exact (later head mem_cons_self).trans (first_of_second tracks leg start item listed)
  · exact .inl (by simpa [recorded] using advances)
  · exact .inr (.inl (by simpa [recorded] using turns))

end

section

variable {walk : LaneWalk} {pending log : List Placed}
  {runner : RecoveryTrialRunner} (backlog : SteadyBacklog runner) (lanes : List Lane)
  (after : LaneCursors) {lane : Fin lanes.length}

def storedCursor (lane : Fin lanes.length) : Option Cursor :=
  after.get (lanes.get lane).key

structure Standing (state : WalkState lanes.length) : Prop where
  own : ∀ lane, (state.lanes lane).lane = lanes.get lane
  tracks : ∀ lane, (pagesOf backlog lanes lane).Tracks (storedCursor lanes after lane) (state.lanes lane) []
    (ofLane lane state.examined)
  fresh : ∀ lane, (state.lanes lane).done = false → (state.lanes lane).lastPage = false
  refused : ∀ item ∈ state.examined, runner.accepts item.2.2 = false
  unfound : state.candidate = none

def Stage (first : Bool) (lane : Fin lanes.length) (walk : LaneWalk) (pending log : List Placed) : Prop :=
  if first then (pagesOf backlog lanes lane).Opening (storedCursor lanes after lane) walk pending log
  else (pagesOf backlog lanes lane).Poised (storedCursor lanes after lane) walk pending log

def Begins (first : Bool) (state : WalkState lanes.length) (lane : Fin lanes.length) : Prop :=
  if first then (state.lanes lane).done = false ∧
    (pagesOf backlog lanes lane).FirstLeg (storedCursor lanes after lane) (state.lanes lane)
      (ofLane lane state.examined)
  else (pagesOf backlog lanes lane).Started (storedCursor lanes after lane) (state.lanes lane)
    (ofLane lane state.examined)

structure Midway (first : Bool) (before : LaneWalk) (lane : Fin lanes.length) (walk : LaneWalk)
    (pending log : List Placed) : Prop where
  own : walk.lane = lanes.get lane
  tracks : (pagesOf backlog lanes lane).Tracks (storedCursor lanes after lane) walk pending log
  stage : Stage backlog lanes after first lane walk pending log
  started : (pagesOf backlog lanes lane).Started (storedCursor lanes after lane) walk log ∨ pending ≠ []
  still : before.done = true → walk = before ∧ pending = []
  lighter : before.done = false →
    (pagesOf backlog lanes lane).weight walk < (pagesOf backlog lanes lane).weight before ∨
    walk.done = false ∧ pending ≠ [] ∧
      (pagesOf backlog lanes lane).weight walk ≤ (pagesOf backlog lanes lane).weight before

variable {backlog lanes after} {state : WalkState lanes.length} {first : Bool} {before : LaneWalk}

theorem Midway.look (midway : Midway backlog lanes after first before lane walk (item :: pending) log) :
    Midway backlog lanes after first before lane (walk.look item) pending (log ++ [item]) := by
  obtain ⟨rest, next⟩ := midway.tracks.remaining_eq
  have moved : (walk.look item).recorded.isSome = true := rfl
  constructor
  · exact midway.own
  · exact midway.tracks.look
  · have stage := midway.stage
    cases first with
    | true => exact Opening.look stage midway.tracks
    | false => exact .inl moved
  · exact .inl (.inl moved)
  · intro done
    simpa using (midway.still done).2
  · intro active
    obtain ⟨noMore, less⟩ := weight_look next
    rcases midway.lighter active with lighter | ⟨going, _, most⟩
    · exact .inl (noMore.trans_lt lighter)
    · exact .inl ((less going).trans_le most)

theorem Standing.readPages (standing : Standing backlog lanes after state)
    (begins : ∀ lane, Begins backlog lanes after first state lane) (looks : Nat) (lane : Fin lanes.length) :
    Midway backlog lanes after first (state.lanes lane) lane
      (({ state with looks }.readPages runner).lanes lane) (ofLane lane (state.merged runner))
      (ofLane lane ({ state with looks }.readPages runner).examined) := by
  have own := standing.own lane
  have tracks := standing.tracks lane
  have stage := begins lane
  cases ended : (state.lanes lane).done with
  | true =>
    have same : ({ state with looks }.readPages runner).lanes lane = state.lanes lane := by
      simp [WalkState.readPages, ended]
    have none : ofLane lane (state.merged runner) = [] := by
      rw [ofLane_merged state lane (by simp [ended]), if_pos ended]
    rw [same, none]
    refine ⟨own, tracks, ?_, .inl (.inr (.inl ended)), fun _ => ⟨rfl, rfl⟩, by simp [ended]⟩
    cases first with
    | true => simp [Begins, ended] at stage
    | false => exact .inr (.inl ⟨ended, rfl⟩)
  | false =>
    have fresh := standing.fresh lane ended
    have read : ({ state with looks }.readPages runner).lanes lane = ((state.lanes lane).readPage runner).1 := by
      simp [WalkState.readPages, ended]
    have next := tracks.readPage own ended fresh
    have found : ofLane lane (state.merged runner) = ((state.lanes lane).readPage runner).2 := by
      rw [ofLane_merged state lane, if_neg (by simp [ended])]
      intro _
      exact ((pagesOf backlog lanes lane).remaining_sorted _).sublist next.next.sublist
    rw [read, found]
    refine ⟨lane_readPage (pagesOf backlog lanes lane) own ended, next, ?_,
      started_readPage tracks own ended, by simp [ended], ?_⟩
    · cases first with
      | true => exact opening_readPage stage.2 tracks own ended fresh
      | false => exact poised_readPage stage own ended
    · intro _
      exact (weight_readPage own ended).imp id fun ⟨going, more, same⟩ => ⟨going, more, same.le⟩

structure Found (backlog : SteadyBacklog runner) (lanes : List Lane) (after : LaneCursors)
    (ended : WalkState lanes.length) (lane : Fin lanes.length) (item : Placed) : Prop where
  candidate : ended.candidate = some item.2
  listed : item ∈ (pagesOf backlog lanes lane).entries
  accepted : runner.accepts item.2 = true
  serves : (rota backlog lanes).Serves (fun lane => decodeReplayCursor (storedCursor lanes after lane))
    (fun lane => decodeReplayCursor ((ended.lanes lane).recorded.or (storedCursor lanes after lane))) lane item.1

theorem found_of_midway {state ended : WalkState lanes.length} {befores : Fin lanes.length → LaneWalk}
    {item : Fin lanes.length × Placed} {rest : List (Fin lanes.length × Placed)}
    (midway : ∀ lane, Midway backlog lanes after first (befores lane) lane (state.lanes lane)
      (ofLane lane (item :: rest)) (ofLane lane state.examined))
    (refused : ∀ other ∈ state.examined, runner.accepts other.2.2 = false)
    (accepted : runner.accepts item.2.2 = true) (ordered : ∀ other ∈ rest, item.2.1 ≤ other.2.1)
    (walked : ended.lanes = (state.look item).lanes) (taken : ended.candidate = some item.2.2) :
    Found backlog lanes after ended item.1 item.2 := by
  have refusedLane : ∀ lane, runner.Refuses (ofLane lane state.examined) := by
    intro lane other member
    exact refused (lane, other) ((mem_ofLane_iff lane _ other).mp member)
  have own : ofLane item.1 (item :: rest) = item.2 :: ofLane item.1 rest := by simp [ofLane_cons]
  have tracks := (midway item.1).tracks
  rw [own] at tracks
  obtain ⟨_, remaining⟩ := tracks.remaining_eq
  have listed : item.2 ∈ (pagesOf backlog lanes item.1).entries :=
    (((pagesOf backlog lanes item.1).mem_remaining_iff _ _).mp (by rw [remaining]; exact mem_cons_self)).1
  have placed := (pagesOf backlog lanes item.1).placed item.2 listed
  have moved : ended.lanes item.1 = (state.lanes item.1).look item.2 := by
    rw [walked, lanes_look state placed, update_self]
  have unmoved : ∀ lane ≠ item.1, ended.lanes lane = state.lanes lane := by
    intro lane other
    rw [walked, lanes_look state placed, update_of_ne other]
  have later : ∀ lane ≠ item.1, ∀ other ∈ ofLane lane (item :: rest), item.2.1 ≤ other.1 := by
    intro lane different other member
    rw [ofLane_cons, if_neg (Ne.symm different)] at member
    exact ordered (lane, other) ((mem_ofLane_iff lane rest other).mp member)
  have next := next_of_tracks tracks (refusedLane item.1)
  refine ⟨taken, listed, accepted, ⟨(mem_good_iff item.2.1).mpr ⟨item.2, listed, accepted, rfl⟩, ?_, next, ?_, ?_⟩⟩
  · rw [moved]
    rfl
  · intro lane different
    rw [unmoved lane different]
    rcases recorded_cases (midway lane).tracks (refusedLane lane) with
      none | ⟨mark, recorded, advances | ⟨turns, _⟩⟩
    · exact .inl (by simp [none])
    · exact .inr (.inl (by simpa [recorded] using advances))
    · exact .inr (.inr (by simpa [recorded] using turns))
  · cases first with
    | true =>
      left
      refine ⟨?_, ?_⟩
      · have stage : (pagesOf backlog lanes item.1).Opening (storedCursor lanes after item.1) (state.lanes item.1)
            (ofLane item.1 (item :: rest)) (ofLane item.1 state.examined) := (midway item.1).stage
        rcases stage with leg | ⟨_, _, none⟩
        · exact (past_iff _ _).mpr (leg.mem_ahead (by rw [remaining]; exact mem_cons_self))
        · simp [own] at none
      · intro lane different
        rw [unmoved lane different]
        rcases recorded_opening (midway lane).tracks (midway lane).stage (refusedLane lane) with
          none | ⟨mark, recorded, advances⟩
        · exact .inl (by simp [none])
        · exact .inr (by simpa [recorded] using advances)
    | false =>
      right
      intro lane different good
      rw [unmoved lane different]
      exact moved_poised (midway lane).tracks (midway lane).stage (refusedLane lane) (later lane different) good

def totalWeight (backlog : SteadyBacklog runner) (lanes : List Lane) (state : WalkState lanes.length) : Nat :=
  ∑ lane, (pagesOf backlog lanes lane).weight (state.lanes lane)

theorem Midway.finishPage
    (midway : Midway backlog lanes after first before lane walk [] log) (active : before.done = false) :
    walk.finishPage.lane = lanes.get lane ∧
      (pagesOf backlog lanes lane).Tracks (storedCursor lanes after lane) walk.finishPage [] log ∧
      (pagesOf backlog lanes lane).Started (storedCursor lanes after lane) walk.finishPage log ∧
      (pagesOf backlog lanes lane).weight walk.finishPage < (pagesOf backlog lanes lane).weight before := by
  have started : (pagesOf backlog lanes lane).Started (storedCursor lanes after lane) walk log :=
    midway.started.resolve_right (by simp)
  have lighter := (midway.lighter active).resolve_right (by simp)
  refine ⟨by rw [lane_finishPage, midway.own], midway.tracks.finishPage, started_finishPage started, ?_⟩
  exact (weight_finishPage walk).trans_lt lighter

theorem round_cases (unbounded : ∀ look, runner.past look = false) (standing : Standing backlog lanes after state)
    (begins : ∀ lane, Begins backlog lanes after first state lane)
    (active : ¬∀ lane, (state.lanes lane).done = true) (fuel : Nat) :
    (∃ ended lane item, WalkState.rounds runner (fuel + 1) state = some ended ∧
      Found backlog lanes after ended lane item ∧
      (∀ lane, ofLane lane ended.examined <+: (pagesOf backlog lanes lane).route (storedCursor lanes after lane)) ∧
      ∀ lane, (ended.lanes lane).lane = lanes.get lane) ∨
    ∃ next, WalkState.rounds runner (fuel + 1) state = WalkState.rounds runner fuel next ∧
      Standing backlog lanes after next ∧ (∀ lane, Begins backlog lanes after false next lane) ∧
      totalWeight backlog lanes next < totalWeight backlog lanes state := by
  let read := { state with looks := state.looks + 1 }.readPages runner
  have reads := standing.readPages begins (state.looks + 1)
  have placed : ∀ item ∈ state.merged runner, item.2.2.position = some item.2.1 := by
    intro item member
    have own : item.2 ∈ ofLane item.1 (state.merged runner) := (mem_ofLane_iff _ _ _).mpr member
    have next := (reads item.1).tracks.next.subset own
    exact (pagesOf backlog lanes item.1).placed item.2 (((pagesOf backlog lanes item.1).mem_remaining_iff _ _).mp next).1
  rcases examine_cases unbounded (state.merged runner) read with
    ⟨looks, outcome, refused⟩ | ⟨before, item, rest, looks, split, refused, accepted, outcome⟩ <;>
    simp only [read] at outcome
  · right
    have midway := looks_keep (fun lane _ _ _ _ held => Midway.look held) (state.merged runner) [] placed read
      (by simpa using reads)
    let looked := (state.merged runner).foldl WalkState.look read
    let next := { looked with looks }.finishPages fun lane => !(state.lanes lane).done
    have log : next.examined = state.examined ++ state.merged runner := examined_looks _ _
    have moved (lane) : (state.lanes lane).done = true ∧ next.lanes lane = state.lanes lane ∨
        (state.lanes lane).done = false ∧ next.lanes lane = (looked.lanes lane).finishPage := by
      cases done : (state.lanes lane).done with
      | true =>
        have same : looked.lanes lane = state.lanes lane := ((midway lane).still done).1
        exact .inl ⟨rfl, by simp [next, WalkState.finishPages, done, same]⟩
      | false => exact .inr ⟨rfl, by simp [next, WalkState.finishPages, done]⟩
    refine ⟨next, by simp only [WalkState.rounds, active, unbounded, outcome]; rfl, ⟨?_, ?_, ?_, ?_, ?_⟩, ?_, ?_⟩
    · intro lane
      rcases moved lane with ⟨done, same⟩ | ⟨done, same⟩ <;> rw [same]
      · exact standing.own lane
      · rw [((midway lane).finishPage done).1]
    · intro lane
      rcases moved lane with ⟨done, same⟩ | ⟨done, same⟩ <;> rw [same]
      · rw [log, ofLane_append, ((reads lane).still done).2, List.append_nil]
        exact standing.tracks lane
      · exact ((midway lane).finishPage done).2.1
    · intro lane going
      rcases moved lane with ⟨done, same⟩ | ⟨done, same⟩ <;> rw [same] at going ⊢
      · simp [done] at going
      · exact SteadyPages.lastPage_finishPage _ going
    · intro item member
      rw [log, List.mem_append] at member
      exact member.elim (standing.refused item) (refused item)
    · exact (candidate_looks _ _).trans standing.unfound
    · intro lane
      rcases moved lane with ⟨done, same⟩ | ⟨done, same⟩
      · refine .inr (.inl ?_)
        rw [same, done]
      · have started := ((midway lane).finishPage done).2.2.1
        rwa [← same] at started
    · have noMore : ∀ lane, (pagesOf backlog lanes lane).weight (next.lanes lane) ≤
          (pagesOf backlog lanes lane).weight (state.lanes lane) := by
        intro lane
        rcases moved lane with ⟨done, same⟩ | ⟨done, same⟩ <;> rw [same]
        exact ((midway lane).finishPage done).2.2.2.le
      obtain ⟨lane, going⟩ := not_forall.mp active
      refine Finset.sum_lt_sum (fun lane _ => noMore lane) ⟨lane, Finset.mem_univ lane, ?_⟩
      rcases moved lane with ⟨done, same⟩ | ⟨done, same⟩
      · exact absurd done going
      · rw [same]
        exact ((midway lane).finishPage done).2.2.2
  · left
    let looked := before.foldl WalkState.look read
    have ordered : (state.merged runner).Pairwise fun left right => left.2.1 ≤ right.2.1 := merged_sorted state
    rw [split] at ordered
    have later : ∀ other ∈ rest, item.2.1 ≤ other.2.1 :=
      (List.pairwise_cons.mp (List.pairwise_append.mp ordered).2.1).1
    have placedBefore : ∀ other ∈ before ++ [item], other.2.2.position = some other.2.1 := by
      intro other member
      apply placed
      rw [split]
      rcases List.mem_append.mp member with early | last
      · exact List.mem_append_left _ early
      · exact List.mem_append_right before (by simp [List.mem_singleton.mp last])
    have midway := looks_keep (fun lane _ _ _ _ held => Midway.look held) before (item :: rest)
      (fun other member => placedBefore other (List.mem_append_left _ member)) read
      (by simpa [← split] using reads)
    have after' := looks_keep (fun lane _ _ _ _ held => Midway.look held) (before ++ [item]) rest placedBefore read
      (by simpa [← split] using reads)
    have log : looked.examined = state.examined ++ before := examined_looks _ _
    refine ⟨_, item.1, item.2, by simp only [WalkState.rounds, active, unbounded, outcome]; rfl, ?_, ?_, ?_⟩
    · refine found_of_midway midway ?_ accepted later rfl rfl
      intro other member
      have listed : other ∈ state.examined ++ before := log ▸ member
      exact (List.mem_append.mp listed).elim (standing.refused other) (refused other)
    · intro lane
      have walked := (after' lane).tracks.prefix_route
      simpa [List.foldl_append] using walked
    · intro lane
      have own := (after' lane).own
      simpa [List.foldl_append] using own

end

section

variable {rounds : Nat} {runner : RecoveryTrialRunner} {backlog : SteadyBacklog runner} {lanes : List Lane}
  {after : LaneCursors}

structure WalkEnds (backlog : SteadyBacklog runner) (lanes : List Lane) (after : LaneCursors)
    (ended : WalkState lanes.length) : Prop where
  own : ∀ lane, (ended.lanes lane).lane = lanes.get lane
  routes : ∀ lane, ofLane lane ended.examined <+: (pagesOf backlog lanes lane).route (storedCursor lanes after lane)
  verdict : (∃ lane item, Found backlog lanes after ended lane item) ∨
    ended.candidate = none ∧ ∀ lane,
      ofLane lane ended.examined = (pagesOf backlog lanes lane).route (storedCursor lanes after lane) ∧
      ∀ item ∈ (pagesOf backlog lanes lane).entries, runner.accepts item.2 = false

theorem Standing.ends {state : WalkState lanes.length} (standing : Standing backlog lanes after state)
    (done : ∀ lane, (state.lanes lane).done = true) : WalkEnds backlog lanes after state := by
  have refused : ∀ lane, runner.Refuses (ofLane lane state.examined) := by
    intro lane item member
    exact standing.refused (lane, item) ((mem_ofLane_iff lane _ item).mp member)
  refine ⟨standing.own, fun lane => (standing.tracks lane).prefix_route, .inr ⟨standing.unfound, ?_⟩⟩
  intro lane
  exact ⟨(standing.tracks lane).eq_route (done lane), refused_of_done (standing.tracks lane) (refused lane) (done lane)⟩

theorem rounds_end (unbounded : ∀ look, runner.past look = false) (fuel : Nat) (first : Bool)
    (state : WalkState lanes.length) (standing : Standing backlog lanes after state)
    (begins : ∀ lane, Begins backlog lanes after first state lane) :
    (∀ ended, WalkState.rounds runner fuel state = some ended → WalkEnds backlog lanes after ended) ∧
    (totalWeight backlog lanes state < fuel → ∃ ended, WalkState.rounds runner fuel state = some ended) := by
  induction fuel generalizing first state with
  | zero => simp [rounds]
  | succ fuel ih =>
    by_cases done : ∀ lane, (state.lanes lane).done = true
    · have stops : rounds runner (fuel + 1) state = some state := by
        simp only [rounds, if_pos done]
      rw [stops]
      constructor
      · rintro _ ⟨⟩
        exact standing.ends done
      · intro _
        exact ⟨state, rfl⟩
    · rcases round_cases unbounded standing begins done fuel with
        ⟨ended, lane, item, stops, found, routes, own⟩ | ⟨next, goesOn, standing', begins', lighter⟩
      · rw [stops]
        constructor
        · rintro _ ⟨⟩
          exact ⟨own, routes, .inl ⟨lane, item, found⟩⟩
        · intro _
          exact ⟨ended, rfl⟩
      · rw [goesOn]
        obtain ⟨ends, returns⟩ := ih false next standing' begins'
        exact ⟨ends, fun enough => returns (by omega)⟩

theorem standing_begin (backlog : SteadyBacklog runner) (lanes : List Lane) (after : LaneCursors) :
    Standing backlog lanes after { lanes := fun lane => begin (lanes.get lane) after } := by
  constructor
  · exact fun _ => rfl
  · exact fun lane => tracks_begin (lanes.get lane) after
  · exact fun _ _ => rfl
  · simp
  · rfl

theorem begins_begin (backlog : SteadyBacklog runner) (lanes : List Lane) (after : LaneCursors)
    (lane : Fin lanes.length) :
    Begins backlog lanes after true { lanes := fun lane => begin (lanes.get lane) after } lane := by
  have tracks : (pagesOf backlog lanes lane).Tracks (storedCursor lanes after lane)
      (begin (lanes.get lane) after) [] [] := tracks_begin (lanes.get lane) after
  refine ⟨rfl, tracks.leg.resolve_right ?_⟩
  intro second
  have around := second.around
  have resumed := second.resumed
  simp only [begin, storedCursor] at around resumed
  rw [isNone_iff_eq_none] at around
  rw [around] at resumed
  simp at resumed

def walkBound (backlog : SteadyBacklog runner) (lanes : List Lane) : Nat :=
  ∑ lane, (2 + 2 * (pagesOf backlog lanes lane).entries.length + 2 * (pagesOf backlog lanes lane).marks.card)

theorem walk_ends (unbounded : ∀ look, runner.past look = false) {ended : WalkState lanes.length}
    (walked : walkCandidates runner rounds lanes after = some ended) : WalkEnds backlog lanes after ended :=
  (rounds_end unbounded rounds true _ (standing_begin backlog lanes after) (begins_begin backlog lanes after)).1
    ended walked

theorem walk_returns (backlog : SteadyBacklog runner) (unbounded : ∀ look, runner.past look = false)
    (enough : walkBound backlog lanes < rounds) (after : LaneCursors) :
    ∃ ended, walkCandidates runner rounds lanes after = some ended := by
  apply (rounds_end unbounded rounds true _ (standing_begin backlog lanes after) (begins_begin backlog lanes after)).2
  refine lt_of_le_of_lt ?_ enough
  exact Finset.sum_le_sum fun lane _ => weight_le _

end

section

theorem LaneCursors.get_merge (left right : LaneCursors) (key : String) :
    (left.merge right).get key = (right.get key).or (left.get key) := by
  have merged : left.merge right = right.entries.foldl (fun all item => if true then all.put (id item) else all) left :=
    rfl
  rw [get, merged, Table.find_foldl_put (fun _ => true) id (fun _ => rfl) right.entries right.distinct]
  cases found : right.entries.find? (fun item => item.1 = key) with
  | none | some item => simp [get, Table.find, found]

variable {lanes : List Lane} {state : WalkState lanes.length}

theorem get_cursors (distinct : (lanes.map Lane.key).Nodup) (own : ∀ lane, (state.lanes lane).lane = lanes.get lane)
    (lane : Fin lanes.length) : state.cursors.get (lanes.get lane).key = (state.lanes lane).recorded := by
  have keys : ∀ other : Fin lanes.length, (lanes.get other).key = (lanes.get lane).key → other = lane := by
    intro other same
    have injective := List.nodup_iff_injective_get.mp distinct
    have indices : (⟨other, by simp⟩ : Fin (lanes.map Lane.key).length) = ⟨lane, by simp⟩ :=
      injective (by simpa using same)
    exact Fin.ext (by simpa using indices)
  have recordOther : ∀ other ≠ lane, ∀ cursors : LaneCursors,
      ((state.lanes other).record cursors).get (lanes.get lane).key = cursors.get (lanes.get lane).key := by
    intro other different cursors
    have apart : (state.lanes other).lane.key ≠ (lanes.get lane).key := by
      rw [own]
      exact fun same => different (keys other same)
    cases recorded : (state.lanes other).recorded with
    | none => simp [LaneWalk.record, recorded]
    | some => simp only [LaneWalk.record, recorded, LaneCursors.get_set, if_neg apart]
  have recordOwn : ∀ cursors : LaneCursors, ((state.lanes lane).record cursors).get (lanes.get lane).key =
      (state.lanes lane).recorded.or (cursors.get (lanes.get lane).key) := by
    intro cursors
    cases recorded : (state.lanes lane).recorded with
    | none => simp [LaneWalk.record, recorded]
    | some => simp only [LaneWalk.record, recorded, own, LaneCursors.get_set, if_true, Option.some_or]
  have collected : ∀ (visited : List (Fin lanes.length)) (cursors : LaneCursors), visited.Nodup →
      (visited.foldl (fun cursors lane => (state.lanes lane).record cursors) cursors).get (lanes.get lane).key =
        if lane ∈ visited then (state.lanes lane).recorded.or (cursors.get (lanes.get lane).key)
        else cursors.get (lanes.get lane).key := by
    intro visited
    induction visited with
    | nil => simp
    | cons other rest ih =>
      intro cursors fresh
      rw [List.nodup_cons] at fresh
      rw [List.foldl_cons, ih _ fresh.2]
      by_cases same : other = lane
      · subst same
        rw [if_neg fresh.1, if_pos List.mem_cons_self, recordOwn]
      · rw [recordOther other same]
        simp [Ne.symm same]
  rw [WalkState.cursors, collected _ _ (List.nodup_finRange _), if_pos (List.mem_finRange lane)]
  simp [LaneCursors.get]

end

end Baldur.Dlq
