import Baldur.Dlq.RecoveryChain
import Baldur.Dlq.RecoveryTrials

/-!
The fill of one recovery pass over an unchanging backlog. A lane hands over the head of what lay beyond its
cursor; a pass that stops early takes each lane back to its last processed entry.
-/

namespace Baldur.Dlq

open SteadyPages FailedOperationData LaneCursors LaneSelection List Option Prog Recovery Table

variable {backlog : List Placed} {quotaBase extra : Nat} {rest : List Lane}

def afterCursor (backlog : List Placed) (cursor : Option Cursor) : List Placed :=
  backlog.filter fun item => beyond (decodeReplayCursor cursor) item.1

/-- What a pass is answered, turn by turn. A page lists the first entries of its lane after the
cursor; the cursor it hands on leaves the others. -/
structure SteadyStore (maxReplays : Int) where
  answer : Nat → (call : RecoveryCall) → call.Answer
  backlog : Lane → List Placed
  sorted : ∀ lane, (backlog lane).Pairwise fun left right => left.1 < right.1
  placed : ∀ lane, ∀ item ∈ backlog lane, item.2.position = some item.1
  lists : ∀ turn lane limit cursor, 0 < limit →
    let page : ReplayablePage := answer turn (.findReplayablePage maxReplays lane limit cursor)
    page.entries.length ≤ limit ∧
      page.entries = ((afterCursor (backlog lane) cursor).take page.entries.length).map Prod.snd ∧
      afterCursor (backlog lane) (page.nextCursor.or cursor) =
        (afterCursor (backlog lane) cursor).drop page.entries.length

/-- No deadline, and pages that are only short at the end of their lane. -/
structure FullStore (maxReplays : Int) extends SteadyStore maxReplays where
  unhurried : ∀ turn, answer turn .pastDeadline = false
  full : ∀ turn lane limit cursor, 0 < limit →
    (answer turn (.findReplayablePage maxReplays lane limit cursor) : ReplayablePage).entries.length =
      min limit (afterCursor (backlog lane) cursor).length

def inLane (lane : Lane) (items : List (String × Entry)) : List Entry :=
  (items.filter fun item => item.1 = lane.key).map Prod.snd

variable (lane : Lane)

theorem afterCursor_split {before rest : List Placed} {item : Placed} {cursor : Option Cursor}
    (sorted : backlog.Pairwise fun left right => left.1 < right.1)
    (split : afterCursor backlog cursor = before ++ item :: rest) :
    afterCursor backlog (some (.encoded item.1)) = rest := by
  have ahead : item ∈ afterCursor backlog cursor := by simp [split]
  have past := (mem_filter.mp ahead).2
  have ascending : (before ++ item :: rest).Pairwise fun left right => left.1 < right.1 := split ▸ sorted.filter _
  have narrowed : afterCursor backlog (some (.encoded item.1)) =
      (afterCursor backlog cursor).filter fun other => item.1 < other.1 := by
    rw [afterCursor, afterCursor, List.filter_filter]
    apply filter_congr
    intro other _
    by_cases later : item.1 < other.1
    · rw [beyond_trans past later]
      simp [beyond, later]
    · simp [beyond, later]
  have passed : ∀ other ∈ before, ¬ item.1 < other.1 := fun other member =>
    ((pairwise_append.mp ascending).2.2 other member item mem_cons_self).asymm
  have follows := (pairwise_cons.mp (pairwise_append.mp ascending).2.1).1
  rw [narrowed, split, filter_append, filter_cons_of_neg (by simp),
    filter_eq_nil_iff.mpr (by simpa using passed), filter_eq_self.mpr (by simpa using follows),
    nil_append]

theorem mem_inLane {items : List (String × Entry)} {item : String × Entry} (member : item ∈ items)
    (named : lane.key = item.1) : item.2 ∈ inLane lane items :=
  mem_map.mpr ⟨item, mem_filter.mpr ⟨member, by simp [named]⟩, rfl⟩

theorem inLane_eq_nil {items : List (String × Entry)} (absent : lane.key ∉ items.map Prod.fst) :
    inLane lane items = [] := by
  rw [inLane, map_eq_nil_iff, filter_eq_nil_iff]
  exact fun item member own => absent (mem_map.mpr ⟨item, member, of_decide_eq_true own⟩)

theorem inLane_append (items more : List (String × Entry)) :
    inLane lane (items ++ more) = inLane lane items ++ inLane lane more := by
  rw [inLane, filter_append, map_append]
  rfl

theorem cursor_of_placed {item : Placed} (placed : item.2.position = some item.1) :
    item.2.cursor = some (.encoded item.1) := by
  obtain ⟨createdAt, known, place⟩ := map_eq_some_iff.mp placed
  simp [cursor, known, encodeReplayCursor, place]

theorem le_highest {items : List Placed} {item : Placed} (member : item ∈ items) :
    ∃ best, highest items = some best ∧ item.1 ≤ best.1 := by
  induction items with
  | nil => cases member
  | cons first rest ih =>
    rw [highest]
    rcases mem_cons.mp member with rfl | later
    · cases highest rest with
      | none => exact ⟨item, rfl, le_rfl⟩
      | some best =>
        by_cases less : item.1 < best.1
        · exact ⟨best, if_pos less, less.le⟩
        · exact ⟨item, if_neg less, le_rfl⟩
    · obtain ⟨best, tail, below⟩ := ih later
      rw [tail]
      by_cases less : first.1 < best.1
      · exact ⟨best, if_pos less, below⟩
      · exact ⟨first, if_neg less, below.trans (not_lt.mp less)⟩

theorem boundary_rest {fresh : List Placed} {cursor : Option Cursor} {limit : Nat} (room : 0 < limit)
    (sorted : backlog.Pairwise fun left right => left.1 < right.1) (within : afterCursor backlog cursor ⊆ fresh)
    (placed : ∀ item ∈ fresh, item.2.position = some item.1)
    (past : ∀ item ∈ fresh, beyond (decodeReplayCursor cursor) item.1 = true) :
    let selected := (afterCursor backlog cursor).take limit
    let boundary := if selected.length < (afterCursor backlog cursor).length ∧ selected ≠ [] then selected.getLast?
      else highest fresh
    afterCursor backlog ((boundary.bind fun item => item.2.cursor).or cursor) =
      (afterCursor backlog cursor).drop limit := by
  intro selected boundary
  have whole : selected ++ (afterCursor backlog cursor).drop limit = afterCursor backlog cursor := take_append_drop _ _
  have size : selected.length = min limit (afterCursor backlog cursor).length := length_take
  by_cases more : limit < (afterCursor backlog cursor).length
  · obtain ⟨before, item, last⟩ := (eq_nil_or_concat selected).resolve_left fun empty => by simp [empty] at size; omega
    have cut : boundary = selected.getLast? := if_pos ⟨by omega, by simp [last]⟩
    rw [last, concat_eq_append] at cut whole
    have listed : item ∈ fresh := within (by rw [← whole]; simp)
    rw [cut, getLast?_append, getLast?_singleton, some_or, bind_some, cursor_of_placed (placed item listed), some_or]
    rw [append_assoc, singleton_append] at whole
    exact afterCursor_split sorted whole.symm
  · have uncut : boundary = highest fresh := if_neg fun cut => more (by omega)
    rw [uncut, drop_eq_nil_of_le (not_lt.mp more)]
    refine filter_eq_nil_iff.mpr fun item member ahead => ?_
    cases top : highest fresh with
    | none =>
      rw [top] at ahead
      obtain ⟨best, found, _⟩ := le_highest (within (mem_filter.mpr ⟨member, ahead⟩))
      cases found.symm.trans top
    | some best =>
      have listed := highest_mem top
      rw [top, bind_some, cursor_of_placed (placed best listed), some_or] at ahead
      have later : best.1 < item.1 := by simpa [beyond, decodeReplayCursor] using ahead
      have here : item ∈ fresh := within (mem_filter.mpr ⟨member, beyond_trans (past best listed) later⟩)
      obtain ⟨other, found, above⟩ := le_highest here
      cases found.symm.trans top
      exact absurd later above.not_gt

theorem processed_get (items : List (String × Entry)) (start : LaneCursors) :
    get (items.foldl (fun cursors item =>
      match item.2.cursor with
      | none => cursors
      | some cursor => set cursors item.1 cursor) start) lane.key =
      ((inLane lane items).filterMap cursor).getLast?.or (start.get lane.key) := by
  induction items using reverseRecOn with
  | nil => rfl
  | append_singleton items item ih =>
    rw [foldl_append, foldl_cons, foldl_nil, inLane_append, filterMap_append]
    by_cases own : item.1 = lane.key <;> cases reached : item.2.cursor <;>
      simp [inLane, own, reached, ih, get_set]

theorem rollBack_get (selection : LaneSelection) (processed : Nat) (carried : LaneCursors) :
    (rollBackLaneCursors selection processed carried).get lane.key =
      ((inLane lane (selection.selected.take processed)).filterMap cursor).getLast?.or
        (if lane.key ∈ selection.selected.map Prod.fst then carried.get lane.key
          else (selection.cursors.get lane.key).or (carried.get lane.key)) := by
  refine (processed_get lane (selection.selected.take processed) _).trans (congrArg _ ?_)
  have kept := find_foldl_put (fun item => decide (item.1 ∉ selection.selected.map Prod.fst)) id (fun _ => rfl)
    selection.cursors.entries selection.cursors.distinct carried lane.key
  rw [foldl_filter]
  refine (congrArg (Option.map Prod.snd) kept).trans ?_
  cases found : selection.cursors.entries.find? fun item => item.1 = lane.key with
  | none => simp [LaneCursors.get, Table.find, found]
  | some item =>
    have named : item.1 = lane.key := of_decide_eq_true (find?_some found :)
    by_cases chosen : lane.key ∈ selection.selected.map Prod.fst
    · simp only [named, chosen, not_true, decide_false, if_true]
      rfl
    · simp [LaneCursors.get, Table.find, found, named, chosen]

section

variable (store : MemoryStore) (iteration : SetIteration) (maxReplays : Int)

theorem memory_size (limit : Nat) (cursor : Option Cursor) :
    (store.findReplayablePage iteration maxReplays lane limit cursor).entries.length =
      min limit (afterCursor (memoryEntries store iteration maxReplays lane) cursor).length := by
  rw [memory_page, length_map, length_take]
  rfl

theorem memory_rest {limit : Nat} (room : 0 < limit) (cursor : Option Cursor) :
    afterCursor (memoryEntries store iteration maxReplays lane)
        ((store.findReplayablePage iteration maxReplays lane limit cursor).nextCursor.or cursor) =
      (afterCursor (memoryEntries store iteration maxReplays lane) cursor).drop limit := by
  have ahead : afterCursor (memoryEntries store iteration maxReplays lane) cursor = _ :=
    memory_found store iteration maxReplays lane cursor
  have size := congrArg length ahead
  rw [length_insertionSort] at size
  simp only [MemoryStore.findReplayablePage]
  rw [← ahead, ← size]
  refine boundary_rest room (memoryPages store iteration maxReplays lane limit).sorted ?_ ?_ ?_
  · intro item member
    rw [ahead, mem_insertionSort] at member
    exact (mem_filter.mp member).1
  · exact fun item member => ((mem_positioned_iff _ item).mp (mem_filter.mp member).1).2
  · exact fun item member => (mem_filter.mp member).2

end

def FullStore.ofMemory (store : MemoryStore) (iteration : SetIteration) (maxReplays : Int) : FullStore maxReplays where
  answer _
    | .parkedCountForRecovery => none
    | .affirmCircuitClosed => .proceeds
    | .replayIntegrityVerdict => true
    | .tryAcquireRecoveryLock => true
    | .checkAllGovernance => true
    | .pastDeadline => false
    | .findReplayablePage maxReplays lane limit cursor => store.findReplayablePage iteration maxReplays lane limit cursor
    | .executeReplay entry => ({ success := true, dlqId := entry.id }, false)
    | .escalate .. => ()
    | .emitCircuitCloseChainStopped _ => ()
    | .queue _ => ()
  backlog := memoryEntries store iteration maxReplays
  sorted lane := (memoryPages store iteration maxReplays lane 0).sorted
  placed lane := (memoryPages store iteration maxReplays lane 0).placed
  lists _ lane limit cursor room := by
    have rest := memory_rest lane store iteration maxReplays room cursor
    have size := memory_size lane store iteration maxReplays limit cursor
    refine ⟨size.trans_le (Nat.min_le_left _ _), ?_, rest.trans ?_⟩
    · rw [size, ← take_eq_take_min]
      exact memory_page store iteration maxReplays lane limit cursor
    · rw [size, ← drop_eq_drop_min]
  unhurried _ := rfl
  full _ lane limit cursor _ := memory_size lane store iteration maxReplays limit cursor

def jobStore : FullStore 3 :=
  .ofMemory parkedJobs jobIteration 3

def declaredLanes : LaneSet :=
  .recovery id (fun _ => some ["timeout", "declined"]) "jobs" []

def jobChain (maxItems : Nat) : ChainSettings where
  lanes := declaredLanes
  maxItems := maxItems
  maxContinuations := 2
  maxReplays := 3

variable (ordered : LaneSet)

namespace SteadyStore

section

variable {maxReplays : Int} (store : SteadyStore maxReplays)

def exec (call : RecoveryCall) (turn : Nat) : Nat × call.Answer :=
  (turn + 1, store.answer turn call)

def read (turn : Nat) (selection : LaneSelection) (lane : Lane) (limit : Nat) : ReplayablePage :=
  store.answer turn (.findReplayablePage maxReplays lane limit (selection.cursors.get lane.key))

def fillOne (turn : Nat) (selection : LaneSelection) (lane : Lane) (limit : Nat) : LaneSelection :=
  selection.record lane limit (store.read turn selection lane limit)

def waiting (cursors : LaneCursors) (lane : Lane) : List Placed :=
  afterCursor (store.backlog lane) (cursors.get lane.key)

def reachable (cursors : LaneCursors) (lanes : List Lane) : Nat :=
  (lanes.map fun lane => (store.waiting cursors lane).length).sum

def Apart (lanes : List Lane) : Prop :=
  ∀ first ∈ lanes, ∀ second ∈ lanes, ∀ item ∈ store.backlog first, ∀ other ∈ store.backlog second,
    item.2 = other.2 → first = second

inductive Fills (lanes : List Lane) : LaneSelection → LaneSelection → Prop
  | done (selection : LaneSelection) : Fills lanes selection selection
  | cut {selection filled : LaneSelection} (rest : Fills lanes { selection with capped := true } filled) :
      Fills lanes selection filled
  | page {selection filled : LaneSelection} {lane : Lane} {limit : Nat} (turn : Nat) (listed : lane ∈ lanes)
      (room : 0 < limit) (rest : Fills lanes (store.fillOne turn selection lane limit) filled) :
      Fills lanes selection filled

structure Follows (lanes : List Lane) (carried : LaneCursors) (selection : LaneSelection) : Prop where
  heads : ∀ lane ∈ lanes, ∃ taken, store.waiting carried lane = taken ++ store.waiting selection.cursors lane ∧
    inLane lane selection.selected = taken.map Prod.snd
  known : ∀ item ∈ selection.selected, ∃ lane ∈ lanes, lane.key = item.1
  grown : ∀ key, selection.cursors.get key = none → carried.get key = none

variable (turn : Nat)

theorem fillOne_length (selection : LaneSelection) (lane : Lane) (limit : Nat) :
    (store.fillOne turn selection lane limit).selected.length =
      selection.selected.length + (store.read turn selection lane limit).entries.length := by
  simp [fillOne, record]

theorem waiting_nodup (cursors : LaneCursors) (lane : Lane) : ((store.waiting cursors lane).map Prod.snd).Nodup := by
  refine pairwise_map.mpr (((store.sorted lane).filter _).imp_of_mem ?_)
  intro first second here there before same
  have one := store.placed lane first (mem_filter.mp here).1
  have two := store.placed lane second (mem_filter.mp there).1
  rw [same, two] at one
  exact before.ne' (some.inj one)

variable {store} {lanes : List Lane} {carried : LaneCursors} {selection filled : LaneSelection} {lane : Lane}
  {limit : Nat}

theorem read_entries (room : 0 < limit) :
    (store.read turn selection lane limit).entries = ((store.waiting selection.cursors lane).take
      (store.read turn selection lane limit).entries.length).map Prod.snd :=
  (store.lists turn lane limit _ room).2.1

theorem read_length_le (selection : LaneSelection) (lane : Lane) (turn : Nat) (room : 0 < limit) :
    (store.read turn selection lane limit).entries.length ≤ (store.waiting selection.cursors lane).length := by
  have listed := congrArg length (store.lists turn lane limit (selection.cursors.get lane.key) room).2.1
  rw [length_map, length_take] at listed
  simp only [read, waiting]
  omega

theorem record_get (page : ReplayablePage) (key : String) :
    (selection.record lane limit page).cursors.get key =
      if lane.key = key then page.nextCursor.or (selection.cursors.get key) else selection.cursors.get key := by
  cases next : page.nextCursor with
  | none => simp [record, next]
  | some => simp [record, next, get_set]

theorem record_inLane (page : ReplayablePage) (other : Lane) :
    inLane other (selection.record lane limit page).selected =
      inLane other selection.selected ++ if lane.key = other.key then page.entries else [] := by
  by_cases same : lane.key = other.key <;>
    simp [inLane, LaneSelection.record, List.filter_map, Function.comp_def, same]

theorem waiting_own (room : 0 < limit) :
    store.waiting (store.fillOne turn selection lane limit).cursors lane =
      (store.waiting selection.cursors lane).drop (store.read turn selection lane limit).entries.length := by
  rw [fillOne, waiting, record_get, if_pos rfl]
  exact (store.lists turn lane limit _ room).2.2

theorem waiting_other {other : Lane} (apart : lane.key ≠ other.key) :
    store.waiting (store.fillOne turn selection lane limit).cursors other = store.waiting selection.cursors other := by
  rw [fillOne, waiting, record_get, if_neg apart, waiting]

theorem Fills.trans {last : LaneSelection} (first : store.Fills lanes selection filled)
    (second : store.Fills lanes filled last) : store.Fills lanes selection last := by
  induction first with
  | done => exact second
  | cut _ ih => exact .cut (ih second)
  | page turn listed room _ ih => exact .page turn listed room (ih second)

section

variable (follows : store.Follows lanes carried selection)

include follows

theorem Follows.starts (listed : lane ∈ lanes) :
    inLane lane selection.selected <+: (store.waiting carried lane).map Prod.snd := by
  obtain ⟨taken, split, shown⟩ := follows.heads lane listed
  rw [shown, split, map_append]
  exact prefix_append _ _

theorem Follows.waits (listed : lane ∈ lanes) {item : String × Entry} (chosen : item ∈ selection.selected)
    (named : lane.key = item.1) : item.2 ∈ (store.backlog lane).map Prod.snd := by
  obtain ⟨placed, member, same⟩ := mem_map.mp ((follows.starts listed).subset (mem_inLane lane chosen named))
  exact mem_map.mpr ⟨placed, (mem_filter.mp member).1, same⟩

variable (processed : Nat)

theorem Follows.rolled_unselected (nothing : lane.key ∉ selection.selected.map Prod.fst) :
    (rollBackLaneCursors selection processed carried).get lane.key = selection.cursors.get lane.key := by
  have before := inLane_eq_nil lane fun listed => nothing (map_subset _ (take_subset processed _) listed)
  rw [rollBack_get, before, if_neg nothing, filterMap_nil, getLast?_nil, none_or]
  cases reached : selection.cursors.get lane.key with
  | none => exact follows.grown _ reached
  | some => rfl

theorem Follows.rolled (listed : lane ∈ lanes) : ∃ done left,
    done.map Prod.snd = inLane lane (selection.selected.take processed) ∧
      left.map Prod.snd = inLane lane (selection.selected.drop processed) ∧
      store.waiting carried lane = done ++ store.waiting (rollBackLaneCursors selection processed carried) lane ∧
      store.waiting (rollBackLaneCursors selection processed carried) lane =
        left ++ store.waiting selection.cursors lane := by
  obtain ⟨taken, ahead, shown⟩ := follows.heads lane listed
  have cut := shown
  rw [← take_append_drop processed selection.selected, inLane_append] at cut
  obtain ⟨done, left, rfl, first, second⟩ := map_eq_append_iff.mp cut.symm
  rw [append_assoc] at ahead
  have waits : store.waiting (rollBackLaneCursors selection processed carried) lane =
      left ++ store.waiting selection.cursors lane := by
    rcases eq_nil_or_concat done with rfl | ⟨before, item, rfl⟩
    · by_cases chosen : lane.key ∈ selection.selected.map Prod.fst
      · rw [waiting, rollBack_get, ← first, if_pos chosen, map_nil, filterMap_nil, getLast?_nil, none_or]
        exact ahead
      · have none : left = [] := by
          rw [← map_eq_nil_iff, ← nil_append left, ← shown]
          exact inLane_eq_nil lane chosen
        rw [waiting, follows.rolled_unselected processed chosen, none, nil_append, waiting]
    · have here : item ∈ store.waiting carried lane := by simp [ahead]
      have reached := cursor_of_placed (store.placed lane item (mem_filter.mp here).1)
      rw [waiting, rollBack_get, ← first]
      simp only [concat_eq_append, map_append, filterMap_append, map_cons, map_nil, filterMap_cons, reached,
        filterMap_nil, getLast?_append, getLast?_singleton, some_or]
      exact afterCursor_split (store.sorted lane) (by simpa [waiting] using ahead)
  exact ⟨done, left, first, second, waits ▸ ahead, waits⟩

end

section

variable (distinct : (lanes.map Lane.key).Nodup)

include distinct

theorem Follows.page (follows : store.Follows lanes carried selection) (turn : Nat) (listed : lane ∈ lanes)
    (room : 0 < limit) : store.Follows lanes carried (store.fillOne turn selection lane limit) := by
  refine ⟨fun other there => ?_, fun item member => ?_, fun key unset => ?_⟩
  · obtain ⟨taken, split, shown⟩ := follows.heads other there
    rw [fillOne, record_inLane]
    by_cases same : lane.key = other.key
    · obtain rfl := inj_on_of_nodup_map distinct listed there same
      refine ⟨taken ++ (store.waiting selection.cursors lane).take
        (store.read turn selection lane limit).entries.length, ?_, ?_⟩
      · rw [← fillOne, waiting_own turn room, append_assoc, take_append_drop]
        exact split
      · rw [if_pos rfl, shown, map_append, ← read_entries turn room]
    · refine ⟨taken, ?_, ?_⟩
      · rw [← fillOne, waiting_other turn same]
        exact split
      · rw [if_neg same, append_nil, shown]
  · rcases mem_append.mp member with old | new
    · exact follows.known item old
    · obtain ⟨_, _, rfl⟩ := mem_map.mp new
      exact ⟨lane, listed, rfl⟩
  · rw [fillOne, record_get] at unset
    apply follows.grown
    split at unset
    · exact (or_eq_none_iff.mp unset).2
    · exact unset

theorem Fills.follows (fills : store.Fills lanes selection filled)
    (follows : store.Follows lanes carried selection) : store.Follows lanes carried filled := by
  induction fills with
  | done => exact follows
  | cut _ ih => exact ih ⟨follows.heads, follows.known, follows.grown⟩
  | page turn listed room _ ih => exact ih (follows.page distinct turn listed room)

theorem reachable_fillOne (selection : LaneSelection) (turn : Nat) (listed : lane ∈ lanes) (room : 0 < limit) :
    (store.read turn selection lane limit).entries.length +
      store.reachable (store.fillOne turn selection lane limit).cursors lanes =
      store.reachable selection.cursors lanes := by
  induction lanes with
  | nil => cases listed
  | cons first rest ih =>
    obtain ⟨fresh, others⟩ := nodup_cons.mp distinct
    simp only [reachable, map_cons, sum_cons] at ih ⊢
    rcases mem_cons.mp listed with rfl | later
    · have kept : ∀ other ∈ rest, (store.waiting (store.fillOne turn selection lane limit).cursors other).length =
          (store.waiting selection.cursors other).length := by
        intro other member
        rw [waiting_other turn fun same => fresh (mem_map.mpr ⟨other, member, same.symm⟩)]
      rw [map_congr_left kept, waiting_own turn room, length_drop]
      have listed : (store.read turn selection lane limit).entries.length ≤ _ := read_length_le selection lane turn room
      omega
    · have apart : lane.key ≠ first.key := fun same => fresh (mem_map.mpr ⟨lane, later, same⟩)
      have account := ih others later
      rw [waiting_other turn apart]
      omega

theorem Fills.account (fills : store.Fills lanes selection filled) :
    filled.selected.length + store.reachable filled.cursors lanes =
      selection.selected.length + store.reachable selection.cursors lanes := by
  induction fills with
  | done => rfl
  | cut _ ih => exact ih
  | page turn listed room _ ih =>
    rw [ih, fillOne_length, Nat.add_assoc, reachable_fillOne distinct _ turn listed room]

end

theorem reachable_spent {cursors : LaneCursors} (spent : ∀ lane ∈ lanes, store.waiting cursors lane = []) :
    store.reachable cursors lanes = 0 := by
  rw [reachable, map_congr_left fun lane there => congrArg length (spent lane there)]
  simp

theorem Fills.spent (distinct : (lanes.map Lane.key).Nodup) (fills : store.Fills lanes selection filled)
    (there : lane ∈ lanes) (spent : store.waiting selection.cursors lane = []) :
    store.waiting filled.cursors lane = [] := by
  induction fills with
  | done => exact spent
  | cut _ ih => exact ih spent
  | @page selection _ other _ turn listed room _ ih =>
    apply ih
    by_cases same : other.key = lane.key
    · obtain rfl := inj_on_of_nodup_map distinct listed there same
      rw [waiting_own turn room, spent, drop_nil]
    · rw [waiting_other turn same, spent]

end

section

variable {settings : ChainSettings} (store : SteadyStore settings.maxReplays) {lanes : List Lane}

/-- The lanes a first round gives a share: all of them, or as many as there are items. -/
def sharing (quotaBase extra index : Nat) (rest : List Lane) : List Lane :=
  rest.take (rest.length * quotaBase + (extra - index))

theorem sharing_cons (quotaBase extra index : Nat) (lane : Lane) (rest : List Lane)
    (share : (quotaBase + if index < extra then 1 else 0) ≠ 0) :
    sharing quotaBase extra index (lane :: rest) = lane :: sharing quotaBase extra (index + 1) rest := by
  have size : (rest.length + 1) * quotaBase = rest.length * quotaBase + quotaBase := Nat.succ_mul _ _
  rw [sharing, sharing, length_cons, size]
  cases quotaBase with
  | zero =>
    have early : index < extra := by
      by_contra late
      simp [late] at share
    rw [show rest.length * 0 + 0 + (extra - index) = (rest.length * 0 + (extra - (index + 1))) + 1 by omega,
      take_succ_cons]
  | succ quotaBase =>
    have whole : rest.length ≤ rest.length * (quotaBase + 1) := Nat.le_mul_of_pos_right _ (Nat.succ_pos _)
    rw [take_of_length_le (by simp only [length_cons]; omega), take_of_length_le (by omega)]

theorem sharing_none {index : Nat} (nothing : (quotaBase + if index < extra then 1 else 0) = 0)
    (rest : List Lane) : sharing quotaBase extra index rest = [] := by
  have zero : quotaBase = 0 ∧ extra ≤ index := by
    split at nothing <;> omega
  simp [sharing, zero.1, Nat.sub_eq_zero_of_le zero.2]

theorem fillShares_fills (index : Nat) (round : FillRound) (turn : Nat)
    (listed : sharing quotaBase extra index rest ⊆ lanes) (known : round.filledExactly ⊆ lanes) :
    let after := ((fillShares settings quotaBase extra index rest round).run store.exec turn).2
    store.Fills lanes round.selection after.selection ∧ after.filledExactly ⊆ lanes := by
  induction rest generalizing index round turn with
  | nil => exact ⟨.done _, known⟩
  | cons lane rest ih =>
    simp only [fillShares, command, perform_bind, run]
    cases (store.exec .pastDeadline turn).2 with
    | true => exact ⟨.cut (.done _), known⟩
    | false =>
      have share := sharing_cons quotaBase extra index lane rest
      generalize (quotaBase + if index < extra then 1 else 0) = quota at share ⊢
      simp only [Bool.false_eq_true, if_false]
      split
      · exact ⟨.done _, known⟩
      · rename_i left
        rw [share left, cons_subset] at listed
        simp only [run]
        refine And.imp (.page (turn + 1) listed.1 (Nat.pos_of_ne_zero left)) id (ih (index + 1) ⟨_, _, _⟩ _ listed.2 ?_)
        show (if _ then _ else _) ⊆ lanes
        split
        · exact append_subset.mpr ⟨known, cons_subset.mpr ⟨listed.1, nil_subset _⟩⟩
        · exact known

theorem fillLeftover_fills (listed : rest ⊆ lanes) (leftover : Nat) (selection : LaneSelection) (turn : Nat) :
    store.Fills lanes selection ((fillLeftover settings rest leftover selection).run store.exec turn).2 := by
  induction rest generalizing leftover selection turn with
  | nil => exact .done _
  | cons lane rest ih =>
    obtain ⟨here, later⟩ := cons_subset.mp listed
    simp only [fillLeftover]
    split
    · exact .done _
    · rename_i left
      simp only [command, perform_bind, run]
      cases (store.exec .pastDeadline turn).2 with
      | true => exact .cut (.done _)
      | false => exact .page (turn + 1) here (Nat.pos_of_ne_zero left) (ih later _ _ _)

def fill (settings : ChainSettings) (store : SteadyStore settings.maxReplays) (lanes : LaneSet)
    (carried : LaneCursors) (turn : Nat) : LaneSelection :=
  ((Recovery.fillCircuitCloseLanes settings lanes.lanes carried).run store.exec turn).2

theorem sharing_all (maxItems : Nat) (lanes : List Lane) :
    sharing (maxItems / lanes.length) (maxItems % lanes.length) 0 lanes = lanes.take maxItems := by
  rw [sharing, Nat.sub_zero, Nat.div_add_mod]

theorem fill_fills (carried : LaneCursors) (turn : Nat) (listed : ordered.lanes.take settings.maxItems ⊆ lanes) :
    store.Fills lanes { cursors := carried } (fill settings store ordered carried turn) := by
  rw [← sharing_all] at listed
  have shares :=
    store.fillShares_fills 0 { selection := { cursors := carried } } turn listed (nil_subset _)
  rw [fill, fillCircuitCloseLanes, run_bind]
  exact shares.1.trans (store.fillLeftover_fills shares.2 _ _ _)

theorem fill_follows (carried : LaneCursors) (turn : Nat) :
    store.Follows ordered.lanes carried (fill settings store ordered carried turn) := by
  refine (store.fill_fills ordered carried turn (take_subset _ _)).follows ordered.distinct ?_
  exact ⟨fun lane _ => ⟨[], rfl, rfl⟩, fun item member => absurd member not_mem_nil, fun _ => id⟩

end

end SteadyStore

namespace FullStore

open SteadyStore

variable {settings : ChainSettings} (store : FullStore settings.maxReplays) {lanes : List Lane}

theorem fillShares_spends (distinct : (lanes.map Lane.key).Nodup) {bound : Nat}
    (index : Nat) (round : FillRound) (turn : Nat) (listed : sharing quotaBase extra index rest ⊆ lanes)
    (used : round.selection.selected.length = round.used)
    (budget : round.used + rest.length * quotaBase + (extra - index) ≤ bound) :
    let after := ((fillShares settings quotaBase extra index rest round).run store.exec turn).2
    after.selection.selected.length = after.used ∧ after.used ≤ bound ∧ ∀ lane ∈ lanes,
      lane ∈ sharing quotaBase extra index rest ∨ lane ∈ round.filledExactly ∨
        store.waiting round.selection.cursors lane = [] →
      lane ∈ after.filledExactly ∨ store.waiting after.selection.cursors lane = [] := by
  induction rest generalizing index round turn with
  | nil => exact ⟨used, show round.used ≤ bound by omega, fun lane _ spent => spent.resolve_left (by simp [sharing])⟩
  | cons lane rest ih =>
    have share := sharing_cons quotaBase extra index lane rest
    have nothing (zero : (quotaBase + if index < extra then 1 else 0) = 0) := sharing_none zero (lane :: rest)
    have size : (rest.length + 1) * quotaBase = rest.length * quotaBase + quotaBase := Nat.succ_mul _ _
    have cost : (quotaBase + if index < extra then 1 else 0) + rest.length * quotaBase + (extra - (index + 1)) =
        (rest.length + 1) * quotaBase + (extra - index) := by
      split <;> omega
    rw [length_cons, Nat.add_assoc, ← cost] at budget
    simp only [fillShares, command, perform_bind, run, exec, store.unhurried]
    generalize (quotaBase + if index < extra then 1 else 0) = quota at share nothing budget ⊢
    simp only [Bool.false_eq_true, if_false]
    split
    · rename_i zero
      rw [nothing zero]
      exact ⟨used, show round.used ≤ bound by omega, fun lane _ spent => spent.resolve_left (by simp)⟩
    · rename_i left
      have room := Nat.pos_of_ne_zero left
      rw [share left] at listed ⊢
      obtain ⟨here, later⟩ := cons_subset.mp listed
      have read : (store.read (turn + 1) round.selection lane quota).entries.length =
        min quota (store.waiting round.selection.cursors lane).length := store.full _ _ _ _ room
      have counted := store.fillOne_length (turn + 1) round.selection lane quota
      obtain ⟨total, within, spends⟩ := ih (index + 1) ⟨store.fillOne (turn + 1) round.selection lane quota,
        if (store.read (turn + 1) round.selection lane quota).entries.length = quota then
          round.filledExactly ++ [lane] else round.filledExactly,
        round.used + (store.read (turn + 1) round.selection lane quota).entries.length⟩ (turn + 1 + 1) later
        (by rw [← used]; exact counted) (by show _ + _ + _ + _ ≤ bound; omega)
      refine ⟨total, within, fun other there spent => spends other there ?_⟩
      rcases spent with member | filled | empty
      · rcases mem_cons.mp member with rfl | others
        · right
          by_cases exactly : (store.read (turn + 1) round.selection other quota).entries.length = quota
          · left
            rw [if_pos exactly]
            exact mem_append_right _ mem_cons_self
          · right
            rw [waiting_own _ room, drop_eq_nil_iff]
            omega
        · exact .inl others
      · right
        left
        split
        · exact mem_append_left _ filled
        · exact filled
      · exact .inr (.inr ((Fills.page (turn + 1) here room (.done _)).spent distinct there empty))

theorem fillLeftover_spends (distinct : (lanes.map Lane.key).Nodup) (listed : rest ⊆ lanes)
    (leftover : Nat) (selection : LaneSelection) (turn : Nat) :
    let after := ((fillLeftover settings rest leftover selection).run store.exec turn).2
    after.selected.length = selection.selected.length + leftover ∨
      after.selected.length ≤ selection.selected.length + leftover ∧ ∀ lane ∈ lanes,
        lane ∈ rest ∨ store.waiting selection.cursors lane = [] → store.waiting after.cursors lane = [] := by
  induction rest generalizing leftover selection turn with
  | nil => exact .inr ⟨Nat.le_add_right _ _, fun lane _ spent => spent.resolve_left not_mem_nil⟩
  | cons lane rest ih =>
    obtain ⟨here, later⟩ := cons_subset.mp listed
    simp only [fillLeftover]
    split
    · rename_i zero
      exact .inl (by rw [zero]; rfl)
    · rename_i left
      have room := Nat.pos_of_ne_zero left
      have read : (store.read (turn + 1) selection lane leftover).entries.length =
        min leftover (store.waiting selection.cursors lane).length := store.full _ _ _ _ room
      have counted := store.fillOne_length (turn + 1) selection lane leftover
      have onward := ih later (leftover - (store.read (turn + 1) selection lane leftover).entries.length)
        (store.fillOne (turn + 1) selection lane leftover) (turn + 1 + 1)
      simp only [command, perform_bind, run, exec, store.unhurried, Bool.false_eq_true, if_false]
      by_cases whole : (store.read (turn + 1) selection lane leftover).entries.length = leftover
      · have ended : fillLeftover settings rest (leftover - (store.read (turn + 1) selection lane
            leftover).entries.length) (store.fillOne (turn + 1) selection lane leftover) =
            .ret (store.fillOne (turn + 1) selection lane leftover) := by
          rw [whole, Nat.sub_self]
          cases rest <;> rfl
        exact .inl ((congrArg (fun program => (run store.exec program (turn + 1 + 1)).2.selected.length)
          ended).trans (by rw [run, counted, whole]))
      · rcases onward with done | ⟨within, spends⟩
        · exact .inl (done.trans (by omega))
        · refine .inr ⟨within.trans (by omega), fun other there spent => spends other there ?_⟩
          rcases spent with member | empty
          · rcases mem_cons.mp member with rfl | others
            · right
              rw [waiting_own _ room, drop_eq_nil_iff]
              omega
            · exact .inl others
          · exact .inr ((Fills.page (turn + 1) here room (.done _)).spent distinct there empty)

theorem fill_total (carried : LaneCursors) (turn : Nat) :
    (store.fill settings ordered carried turn).selected.length =
      min settings.maxItems (store.reachable carried (ordered.lanes.take settings.maxItems)) := by
  have distinct : ((ordered.lanes.take settings.maxItems).map Lane.key).Nodup :=
    ordered.distinct.sublist ((take_sublist _ _).map _)
  have account := (store.fill_fills ordered carried turn (Subset.refl _)).account distinct
  have shared := sharing_all settings.maxItems ordered.lanes
  have bound := Nat.div_add_mod settings.maxItems ordered.lanes.length
  have listed : sharing (settings.maxItems / ordered.lanes.length) (settings.maxItems % ordered.lanes.length) 0
      ordered.lanes ⊆ ordered.lanes.take settings.maxItems := by
    rw [shared]
    exact Subset.refl _
  have known := (store.fillShares_fills 0 { selection := { cursors := carried } } turn listed (nil_subset _)).2
  obtain ⟨total, within, spends⟩ := store.fillShares_spends distinct 0 { selection := { cursors := carried } } turn
    listed rfl (show 0 + _ + _ ≤ settings.maxItems by omega)
  rw [fill, fillCircuitCloseLanes, run_bind] at account ⊢
  generalize (fillShares settings _ _ 0 ordered.lanes { selection := { cursors := carried } }).run store.exec
    turn = round at account known total within spends ⊢
  simp only [length_nil, Nat.zero_add] at account
  rcases store.fillLeftover_spends distinct known (settings.maxItems - round.2.used) round.2.selection round.1 with
    full | ⟨most, spent⟩
  · rw [full] at account ⊢
    omega
  · have empty (lane : Lane) (there : lane ∈ ordered.lanes.take settings.maxItems) := spent lane there
      (spends lane there (.inl (by rwa [shared])))
    rw [reachable_spent empty] at account
    omega

theorem selected_once (carried : LaneCursors) (turn : Nat) (apart : store.Apart ordered.lanes) :
    ((store.fill settings ordered carried turn).selected.map Prod.snd).Nodup := by
  have follows := store.fill_follows ordered carried turn
  generalize store.fill settings ordered carried turn = selection at follows
  rw [nodup_iff_sublist]
  intro entry twice
  obtain ⟨pair, within, same⟩ := sublist_map_iff.mp twice
  obtain ⟨first, second, rfl⟩ := length_eq_two.mp (by simpa using congrArg length same.symm)
  obtain ⟨rfl, equal⟩ : entry = first.2 ∧ entry = second.2 := by simpa using same
  obtain ⟨here, inHere, own⟩ := follows.known first (within.subset (by simp))
  obtain ⟨there, inThere, other⟩ := follows.known second (within.subset (by simp))
  obtain ⟨one, inOne, oneEntry⟩ := mem_map.mp (follows.waits inHere (within.subset (by simp)) own)
  obtain ⟨two, inTwo, twoEntry⟩ := mem_map.mp (follows.waits inThere (within.subset (by simp)) other)
  obtain rfl := apart here inHere there inThere one inOne two inTwo (by rw [oneEntry, twoEntry, equal])
  have once := (store.waiting_nodup carried here).sublist (follows.starts inHere).sublist
  refine nodup_iff_sublist.mp once first.2 ?_
  have both := (within.filter fun item => decide (item.1 = here.key)).map Prod.snd
  simpa [inLane, ← own, ← other, ← equal] using both

theorem fill_selects_reachable_iff (ordered : LaneSet) (carried : LaneCursors) (turn : Nat)
    (apart : store.Apart ordered.lanes) :
    ((store.fill settings ordered carried turn).selected.length =
        min settings.maxItems (store.reachable carried ordered.lanes) ∧
      ((store.fill settings ordered carried turn).selected.map Prod.snd).Nodup ∧
      ∀ lane ∈ ordered.lanes, inLane lane (store.fill settings ordered carried turn).selected <+:
        (store.waiting carried lane).map Prod.snd) ↔
    settings.maxItems ≤ store.reachable carried (ordered.lanes.take settings.maxItems) ∨
      store.reachable carried (ordered.lanes.drop settings.maxItems) = 0 := by
  have parts : store.reachable carried ordered.lanes = store.reachable carried (ordered.lanes.take settings.maxItems) +
      store.reachable carried (ordered.lanes.drop settings.maxItems) := by
    simp only [reachable]
    rw [← sum_append, ← map_append, take_append_drop]
  rw [store.fill_total, parts]
  constructor
  · rintro ⟨total, -, -⟩
    omega
  · intro enough
    exact ⟨by omega, store.selected_once ordered carried turn apart,
      fun _ => (store.fill_follows ordered carried turn).starts⟩

theorem jobs_apart : jobStore.Apart declaredLanes.lanes := by
  have ids : ∀ first ∈ declaredLanes.lanes, ∀ second ∈ declaredLanes.lanes, ∀ item ∈ jobStore.backlog first,
      ∀ other ∈ jobStore.backlog second, item.2.id = other.2.id → first = second := by decide +kernel
  intro first listed second also item here other there same
  exact ids first listed second also item here other there (congrArg FailedOperationData.id same)

theorem jobs_all_selected :
    (jobStore.fill (jobChain 2) declaredLanes empty 0).selected.length = 2 := by
  have reaches := (@fill_selects_reachable_iff (jobChain 2) jobStore declaredLanes empty 0 jobs_apart).mpr (by decide +kernel)
  exact reaches.1.trans (by decide +kernel)

/-- The first lane's one entry is behind its cursor, and the other lane gets no share. -/
theorem quota_break_starves_lane :
    let carried := LaneCursors.set empty (jobLane "timeout").key (encodeReplayCursor 1 "a")
    (jobStore.fill (jobChain 1) declaredLanes carried 0).selected.length ≠
      min 1 (jobStore.reachable carried declaredLanes.lanes) := by
  decide +kernel

end FullStore

end Baldur.Dlq
