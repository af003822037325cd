import Baldur.Dlq.ReplayablePages
import Baldur.Lib.Ordered

/-!
The contract of `find_replayable_page` towards an entry that stays replayable: a page lists it behind earlier
entries only, or is full or stopped on its scan bound, lists only earlier entries and resumes before it.
-/

namespace Baldur.Dlq

open FailedOperationData List Option RedisView Table

variable {place : Position} {item : Position × Entry} {entry : Entry}

def Precedes (earlier later : Position) : Prop :=
  earlier < later ∧ (ofLex earlier).2 ≠ (ofLex later).2

theorem beyond_of_precedes {floor : Option Position}
    (before : ∀ low, floor = some low → Precedes low place) : beyond floor place = true := by
  cases floor with
  | none => rfl
  | some low => exact decide_eq_true (before low rfl).1

def AllBefore (entries : List Entry) (place : Position) : Prop :=
  ∀ other ∈ entries, ∀ position, other.position = some position → Precedes position place

theorem allBefore_append (first second : List Entry) (place : Position) :
    AllBefore (first ++ second) place ↔ AllBefore first place ∧ AllBefore second place := by
  simp only [AllBefore, mem_append]
  constructor
  · intro all
    exact ⟨fun other member => all other (.inl member), fun other member => all other (.inr member)⟩
  · rintro ⟨left, right⟩ other (member | member)
    · exact left other member
    · exact right other member

inductive ReplayablePage.Accounts (limit : Nat) (entry : Entry) (place : Position)
    (page : ReplayablePage) : Prop
  | listed (before after : List Entry) (split : page.entries = before ++ entry :: after)
      (earlier : AllBefore before place)
  | left (bounded : page.entries.length = limit ∨ page.scanExhausted = true)
      (earlier : AllBefore page.entries place)
      (resumes : ∀ position, decodeReplayCursor page.nextCursor = some position → Precedes position place)

/-- A selector over some store, with the entries a store holds replayable in a lane. -/
structure Selector (σ : Type) where
  page : σ → Int → Lane → Nat → Option Cursor → ReplayablePage
  holds : σ → Int → Lane → Entry → Prop
  dated : ∀ store maxRetries lane entry, holds store maxRetries lane entry → entry.createdAt.isSome = true
  accounts : ∀ store maxRetries lane entry, holds store maxRetries lane entry →
    ∀ limit cursor place, 0 < limit → entry.position = some place →
      (∀ low, decodeReplayCursor cursor = some low → Precedes low place) →
      (page store maxRetries lane limit cursor).Accounts limit entry place

theorem position_eq_some_iff (entry : Entry) (place : Position) :
    entry.position = some place ↔ ∃ instant, entry.createdAt = some instant ∧
      place = replayCursorPosition instant entry.id := by
  simp only [position, map_eq_some_iff]
  exact exists_congr fun instant => and_congr_right fun _ => eq_comm

attribute [local simp] decodeReplayCursor

theorem decode_cursor (entry : Entry) : decodeReplayCursor entry.cursor = entry.position := by
  cases created : entry.createdAt <;> simp [cursor, position, created, encodeReplayCursor]

theorem mem_positioned_iff (entries : List Entry) (item : Position × Entry) :
    item ∈ positioned entries ↔ item.2 ∈ entries ∧ item.2.position = some item.1 := by
  obtain ⟨position, entry⟩ := item
  simp only [positioned, mem_filterMap, map_eq_some_iff, Prod.mk.injEq]
  constructor
  · rintro ⟨other, listed, found, known, rfl, rfl⟩
    exact ⟨listed, known⟩
  · rintro ⟨listed, known⟩
    exact ⟨entry, listed, position, known, rfl, rfl⟩

theorem highest_mem {items : List (Position × Entry)} {best : Position × Entry}
    (found : highest items = some best) : best ∈ items := by
  induction items generalizing best with
  | nil => simp [highest] at found
  | cons item rest ih =>
    simp only [highest] at found
    cases tail : highest rest with
    | none =>
      rw [tail] at found
      cases found
      exact mem_cons_self
    | some =>
      rw [tail] at found
      simp only at found
      split at found
      · cases found
        exact mem_cons_of_mem item (ih tail)
      · cases found
        exact mem_cons_self

theorem boundary_mem {fresh taken : List (Position × Entry)} {truncated : Prop}
    [Decidable truncated] (within : taken ⊆ fresh)
    (chosen : (if truncated then taken.getLast? else highest fresh) = some item) : item ∈ fresh := by
  split at chosen
  · exact within (mem_of_getLast? chosen)
  · exact highest_mem chosen

theorem mem_of_truncated {taken items : List (Position × Entry)}
    {other : Option (Position × Entry)} {room : Nat} (full : taken.length = room) (roomy : 0 < room)
    (more : room < items.length)
    (chosen : (if taken.length < items.length ∧ taken ≠ [] then taken.getLast? else other) = some item) :
    item ∈ taken := by
  have truncated : taken.length < items.length ∧ taken ≠ [] := by
    refine ⟨by omega, ?_⟩
    rintro rfl
    exact roomy.ne full
  exact mem_of_getLast? ((if_pos truncated).symm.trans chosen)

theorem resumes_before {boundary : Option (Position × Entry)}
    (known : ∀ item, boundary = some item → item.2.position = some item.1)
    (before : ∀ item, boundary = some item → Precedes item.1 place) {position : Position}
    (decoded : decodeReplayCursor (boundary.bind fun item => item.2.cursor) = some position) :
    Precedes position place := by
  cases found : boundary with
  | none => simp [found] at decoded
  | some item =>
    rw [found, bind_some, decode_cursor, known item found] at decoded
    cases decoded
    exact before item found

theorem id_of_position (known : entry.position = some place) : (ofLex place).2 = entry.id := by
  obtain ⟨_, _, rfl⟩ := (position_eq_some_iff entry place).mp known
  rfl

section

variable {store : MemoryStore} {iteration : SetIteration} {lane : Lane} {maxRetries : Int}
  {entry : Entry} {place : Position}

/-- The store has the entry in the set that selection iterates, and the lane's predicates take it. -/
structure MemoryStore.Holds (store : MemoryStore) (maxRetries : Int) (lane : Lane)
    (entry : Entry) : Prop where
  stored : store.find entry.id = some entry
  dated : entry.createdAt.isSome = true
  pending : entry.id ∈ store.pendingIds lane.domain
  matched : lane.isReplayableMatch maxRetries false entry = true

theorem memory_accounts (held : store.Holds maxRetries lane entry) {limit : Nat} (cursor : Option Cursor)
    (room : 0 < limit) (known : entry.position = some place)
    (ahead : ∀ low, decodeReplayCursor cursor = some low → Precedes low place) :
    (store.findReplayablePage iteration maxRetries lane limit cursor).Accounts limit entry place := by
  let read := (iteration.order (store.pendingIds lane.domain)).filterMap store.find
  let fresh := (positioned read).filter fun item => beyond (decodeReplayCursor cursor) item.1
  let found := fresh.filter fun item => lane.isReplayableMatch maxRetries false item.2
  have stored : ∀ item ∈ fresh, store.find item.2.id = some item.2 ∧ item.2.position = some item.1 := by
    intro item member
    obtain ⟨listed, placed⟩ := (mem_positioned_iff _ _).mp (mem_filter.mp member).1
    obtain ⟨id, _, hit⟩ := mem_filterMap.mp listed
    have named : item.2.id = id := key_of_find hit
    exact ⟨named ▸ hit, placed⟩
  have listed : (place, entry) ∈ found := by
    have member : entry ∈ read :=
      mem_filterMap.mpr ⟨entry.id, (iteration.complete _ _).mpr held.pending, held.stored⟩
    simp only [found, fresh, mem_filter, mem_positioned_iff]
    exact ⟨⟨⟨member, known⟩, beyond_of_precedes ahead⟩, held.matched⟩
  have strictly : ∀ item ∈ found, item ≠ (place, entry) → item.1 ≤ place → Precedes item.1 place := by
    intro item member apart before
    have hit := stored item (mem_filter.mp member).1
    have otherId : item.2.id ≠ entry.id := by
      intro named
      have same := hit.1
      rw [named, held.stored] at same
      have sameEntry := some.inj same
      have samePlace := some.inj (known.symm.trans (sameEntry ▸ hit.2))
      exact apart (Prod.ext samePlace.symm sameEntry.symm)
    have ids : (ofLex item.1).2 ≠ (ofLex place).2 := by
      rwa [id_of_position hit.2, id_of_position known]
    refine ⟨lt_of_le_of_ne before fun same => ids ?_, ids⟩
    rw [same]
  let sorted := found.insertionSort fun left right => left.1 ≤ right.1
  have ordered : sorted.Pairwise fun left right => left.1 ≤ right.1 :=
    pairwise_insertionSort_by (fun _ _ => Iff.rfl) found
  have belongs : ∀ {item}, item ∈ sorted → item ∈ found := (mem_insertionSort _).mp
  have beforePlace : ∀ items : List (Position × Entry),
      (∀ item ∈ items, item ∈ found ∧ item ≠ (place, entry) ∧ item.1 ≤ place) →
      AllBefore (items.map Prod.snd) place := by
    intro items all other member position placed
    obtain ⟨item, inItems, rfl⟩ := mem_map.mp member
    obtain ⟨inFound, apart, before⟩ := all item inItems
    have own := (stored item (mem_filter.mp inFound).1).2
    rw [placed] at own
    cases own
    exact strictly item inFound apart before
  rcases ordered.split_take ((mem_insertionSort _).mpr listed) limit with
    ⟨before, after, split, notYet, earlier⟩ | ⟨full, more, earlier⟩
  · refine .listed (before.map Prod.snd) (after.map Prod.snd) ?_ ?_
    · have entries := congrArg (map Prod.snd) split
      rw [map_append, map_cons] at entries
      exact entries
    · apply beforePlace
      intro item member
      refine ⟨belongs (mem_of_mem_take (split ▸ mem_append_left _ member)), ?_, earlier item member⟩
      rintro rfl
      exact notYet member
  · have taken : ∀ item ∈ sorted.take limit, item ∈ found ∧ item ≠ (place, entry) ∧ item.1 ≤ place := by
      intro item member
      exact ⟨belongs (mem_of_mem_take member), earlier item member⟩
    refine .left (.inl ((length_map _).trans full)) (beforePlace _ taken) ?_
    intro position decoded
    rw [length_insertionSort] at more
    refine resumes_before ?_ ?_ decoded
    · intro item chosen
      have member := mem_of_truncated full room more chosen
      exact (stored item (mem_filter.mp (taken item member).1).1).2
    · intro item chosen
      obtain ⟨inFound, apart, before⟩ := taken item (mem_of_truncated full room more chosen)
      exact strictly item inFound apart before

end

def memberPosition (member : String × Time) : Position :=
  replayCursorPosition member.2 member.1

theorem zorder_iff (left right : String × Time) :
    zorder left right = true ↔ memberPosition left ≤ memberPosition right := by
  simp only [zorder, memberPosition, replayCursorPosition, Prod.Lex.toLex_le_toLex, Bool.or_eq_true,
    Bool.and_eq_true, decide_eq_true_eq]

namespace RedisQuery

def windowMembers (set : SortedSet) (minScore : Option Time) (window : Nat)
    (consumedAtFloor : Finset String) : List (String × Time) :=
  ((((set.entries.insertionSort fun left right => zorder left right = true).filter fun member =>
    minScore.all fun low => low ≤ member.2).take (window + consumedAtFloor.card)).filter fun member =>
      member.1 ∉ consumedAtFloor).take window

theorem replayableWindowIds_eq (set : SortedSet) (minScore : Option Time) (window : Nat)
    (consumedAtFloor : Finset String) :
    replayableWindowIds set minScore window consumedAtFloor =
      (windowMembers set minScore window consumedAtFloor).map Prod.fst := by
  simp only [replayableWindowIds, SortedSet.zrangebyscore, windowMembers, ← List.map_take, List.filter_map]
  rfl

theorem split_windowMembers {set : SortedSet} {minScore : Option Time} (window : Nat)
    {consumedAtFloor : Finset String} {member : String × Time} (stored : member ∈ set.entries)
    (above : (minScore.all fun low => low ≤ member.2) = true) (unread : member.1 ∉ consumedAtFloor) :
    (∃ before after, windowMembers set minScore window consumedAtFloor = before ++ member :: after ∧
      ∀ other ∈ before, other ∈ set.entries ∧ Precedes (memberPosition other) (memberPosition member)) ∨
    ((windowMembers set minScore window consumedAtFloor).length = window ∧
      ∀ other ∈ windowMembers set minScore window consumedAtFloor,
        other ∈ set.entries ∧ Precedes (memberPosition other) (memberPosition member)) := by
  let ranged := (set.entries.insertionSort fun left right => zorder left right = true).filter fun member =>
    minScore.all fun low => low ≤ member.2
  let named := ranged.filter fun member => member.1 ∉ consumedAtFloor
  have distinct : (ranged.map Prod.fst).Nodup := by
    have sorted := ((perm_insertionSort (fun left right => zorder left right = true) set.entries).map
      Prod.fst).nodup_iff.mpr set.distinct
    exact sorted.sublist (filter_sublist.map Prod.fst)
  have whole : windowMembers set minScore window consumedAtFloor = named.take window :=
    take_filter_take Prod.fst consumedAtFloor distinct window
  have ordered : named.Pairwise fun left right => memberPosition left ≤ memberPosition right :=
    ((pairwise_insertionSort_by zorder_iff set.entries).filter _).filter _
  have present : member ∈ named :=
    mem_filter.mpr ⟨mem_filter.mpr ⟨(mem_insertionSort _).mpr stored, above⟩, by simpa using unread⟩
  have precedes : ∀ other ∈ named.take window, other ≠ member → memberPosition other ≤ memberPosition member →
      other ∈ set.entries ∧ Precedes (memberPosition other) (memberPosition member) := by
    intro other taken apart before
    have known := (mem_insertionSort _).mp (mem_filter.mp (mem_filter.mp (mem_of_mem_take taken)).1).1
    have ids : other.1 ≠ member.1 := fun same => apart (inj_on_of_nodup_map set.distinct known stored same)
    exact ⟨known, lt_of_le_of_ne before fun same => ids (congrArg (fun place => (ofLex place).2) same), ids⟩
  rw [whole]
  rcases ordered.split_take present window with ⟨before, after, split, notYet, earlier⟩ | ⟨full, _, earlier⟩
  · refine .inl ⟨before, after, split, ?_⟩
    intro other first
    exact precedes other (split ▸ mem_append_left _ first) (fun same => notYet (same ▸ first)) (earlier other first)
  · refine .inr ⟨full, ?_⟩
    intro other taken
    exact precedes other taken (earlier other taken).1 (earlier other taken).2

/-- The window can see the entry: its index names it at its creation instant, its blob is there,
and no other member is scored by anything but its blob's creation instant. -/
structure Sees (view : RedisView) (lane : Lane) (entry : Entry) (place : Position) : Prop where
  indexed : (view.indexed.index (replayableIndexKey lane.domain)).find entry.id = some (entry.id, (ofLex place).1)
  loaded : view.loaded.find entry.id = some entry
  placed : entry.position = some place
  scored : ∀ member ∈ (view.indexed.index (replayableIndexKey lane.domain)).entries, ∀ other,
    view.loaded.find member.1 = some other → ∀ createdAt, other.createdAt = some createdAt → createdAt = member.2

section

variable {members : List (String × Time)} {window : List (Position × Entry)} {views : Nat → RedisView}
  {view : RedisView} {lane : Lane} {maxRetries : Int} {entry : Entry}
  {floor : Option Position} {limit : Nat} {scan : ReplayScan}

def RedisView.read (view : RedisView) (members : List (String × Time)) : List (Position × Entry) :=
  positioned ((members.map Prod.fst).filterMap view.loaded.find)

def MembersBefore (view : RedisView) (lane : Lane) (members : List (String × Time)) (place : Position) : Prop :=
  ∀ member ∈ members, member ∈ (view.indexed.index (replayableIndexKey lane.domain)).entries ∧
    Precedes (memberPosition member) place

theorem read_before (held : Sees view lane entry place) (before : MembersBefore view lane members place)
    (read : item ∈ RedisView.read view members) : Precedes item.1 place := by
  obtain ⟨listed, placed⟩ := (mem_positioned_iff _ _).mp read
  obtain ⟨id, named, hit⟩ := mem_filterMap.mp listed
  obtain ⟨member, known, rfl⟩ := mem_map.mp named
  obtain ⟨created, stamped, same⟩ := (position_eq_some_iff _ _).mp placed
  have scored := held.scored member (before member known).1 item.2 hit created stamped
  have own : item.2.id = member.1 := key_of_find hit
  rw [same, scored, own]
  exact (before member known).2

structure Ahead (limit : Nat) (entry : Entry) (place : Position) (scan : ReplayScan) : Prop where
  room : scan.found.length < limit
  earlier : AllBefore scan.found place
  resumes : ∀ item, scan.boundary = some item →
    item.2.position = some item.1 ∧ Precedes item.1 place
  above : (scan.minScore.all fun low => low ≤ (ofLex place).1) = true
  unread : entry.id ∉ scan.consumedAtFloor

structure Left (limit : Nat) (place : Position) (scan : ReplayScan) : Prop where
  bounded : scan.found.length = limit ∨ scan.scanExhausted = true
  earlier : AllBefore scan.found place
  resumes : ∀ item, scan.boundary = some item → item.2.position = some item.1 ∧ Precedes item.1 place

def Listed (entry : Entry) (place : Position) (scan : ReplayScan) : Prop :=
  ∃ before after, scan.found = before ++ entry :: after ∧ AllBefore before place

theorem fartherBoundary_cases {old new : Option (Position × Entry)}
    (chosen : fartherBoundary old new = some item) :
    old = some item ∨ new = some item := by
  cases old with
  | none => exact .inr chosen
  | some =>
    cases new with
    | none => exact .inl chosen
    | some =>
      simp only [fartherBoundary] at chosen
      split at chosen
      · exact .inr chosen
      · exact .inl chosen

theorem allBefore_collected {taken : List (Position × Entry)}
    (known : ∀ item ∈ window, item.2.position = some item.1) (within : taken ⊆ window)
    (before : ∀ item ∈ taken, Precedes item.1 place) : AllBefore (taken.map Prod.snd) place := by
  intro other member position placed
  obtain ⟨item, inTaken, rfl⟩ := mem_map.mp member
  rw [known item (within inTaken)] at placed
  cases placed
  exact before item inTaken

section

variable {room : Nat} {collected : List Entry × Option (Position × Entry)}

theorem collect_before (did : collectReplayableWindow maxRetries lane floor room window = collected)
    (known : ∀ item ∈ window, item.2.position = some item.1) (before : ∀ item ∈ window, Precedes item.1 place) :
    collected.1.length ≤ room ∧ AllBefore collected.1 place ∧ ∀ item, collected.2 = some item → item ∈ window := by
  subst did
  let fresh := window.filter fun item => beyond floor item.1
  let eligible := fresh.filter fun item => lane.isReplayableMatch maxRetries false item.2
  have freshIn : fresh ⊆ window := filter_sublist.subset
  have takenIn : eligible.take room ⊆ fresh :=
    ((take_sublist _ _).trans filter_sublist).subset
  refine ⟨?_, ?_, ?_⟩
  · simp only [collectReplayableWindow, length_map, length_take]
    omega
  · exact allBefore_collected known (Subset.trans takenIn freshIn) fun item member => before item (freshIn (takenIn member))
  · intro item chosen
    exact freshIn (boundary_mem takenIn chosen)

theorem collect_present {before after : List (Position × Entry)} (roomy : 0 < room)
    (did : collectReplayableWindow maxRetries lane floor room (before ++ (place, entry) :: after) = collected)
    (known : ∀ item ∈ before ++ (place, entry) :: after, item.2.position = some item.1)
    (earlier : ∀ item ∈ before, Precedes item.1 place) (ahead : beyond floor place = true)
    (matched : lane.isReplayableMatch maxRetries false entry = true) :
    (∃ firsts lasts, collected.1 = firsts ++ entry :: lasts ∧ AllBefore firsts place) ∨
      collected.1.length = room ∧ AllBefore collected.1 place ∧ ∀ item, collected.2 = some item → item ∈ before := by
  subst did
  let pick := fun items : List (Position × Entry) =>
    (items.filter fun item => beyond floor item.1).filter fun item => lane.isReplayableMatch maxRetries false item.2
  let eligible := pick (before ++ (place, entry) :: after)
  have split : eligible = pick before ++ (place, entry) :: pick after := by
    simp [eligible, pick, ahead, matched]
  have picked : pick before ⊆ before := (filter_sublist.trans filter_sublist).subset
  have inWindow : pick before ⊆ before ++ (place, entry) :: after := Subset.trans picked (subset_append_left _ _)
  rcases take_append_cons (pick before) (pick after) (place, entry) room with ⟨rest, shown⟩ | ⟨short, cut⟩
  · left
    refine ⟨(pick before).map Prod.snd, rest.map Prod.snd, ?_, ?_⟩
    · have taken : eligible.take room = pick before ++ (place, entry) :: rest := by rw [split, shown]
      have entries := congrArg (map Prod.snd) taken
      rw [map_append, map_cons] at entries
      exact entries
    · exact allBefore_collected known inWindow fun item member => earlier item (picked member)
  · right
    have taken : eligible.take room = (pick before).take room := by rw [split, cut]
    have takenIn : (pick before).take room ⊆ pick before := (take_sublist _ _).subset
    have size : ((pick before).take room).length = room := length_take_of_le short
    refine ⟨?_, ?_, ?_⟩
    · have entries := congrArg length taken
      rw [size] at entries
      exact (length_map _).trans entries
    · have all := allBefore_collected known (Subset.trans takenIn inWindow)
        fun item member => earlier item (picked (takenIn member))
      rw [← taken] at all
      exact all
    · intro item chosen
      have more : room < eligible.length := by
        rw [split]
        simp
        omega
      have last := mem_of_truncated (by rw [taken, size]) roomy more chosen
      rw [taken] at last
      exact picked (takenIn last)

end

theorem anchor_ahead {anchor : Option Time × Finset String} (held : Sees view lane entry place)
    (before : MembersBefore view lane members place)
    (above : (scan.minScore.all fun low => low ≤ (ofLex place).1) = true) (unread : entry.id ∉ scan.consumedAtFloor)
    (moved : advanceReplayableAnchor (RedisView.read view members) (members.map Prod.fst) scan.minScore
      scan.consumedAtFloor = anchor) :
    (anchor.1.all fun low => low ≤ (ofLex place).1) = true ∧ entry.id ∉ anchor.2 := by
  have unnamed : entry.id ∉ scan.consumedAtFloor ∪ (members.map Prod.fst).toFinset := by
    simp only [Finset.mem_union, List.mem_toFinset, not_or]
    refine ⟨unread, ?_⟩
    intro named
    obtain ⟨member, known, same⟩ := List.mem_map.mp named
    have stored := (Table.mem_entries_iff _ _).mp (before member known).1
    rw [same, held.indexed] at stored
    cases stored
    exact (before _ known).2.2 (id_of_position held.placed).symm
  subst moved
  simp only [advanceReplayableAnchor]
  split
  · rename_i top best found
    have early := (read_before held before (highest_mem found)).1
    split
    · refine ⟨?_, ?_⟩
      · rw [Option.all_some, decide_eq_true_eq]
        exact Prod.Lex.monotone_fst _ _ early.le
      · simp only [List.mem_toFinset, List.mem_map, List.mem_filter, not_exists, not_and]
        rintro item ⟨member, _⟩ same
        have listed := (mem_positioned_iff _ _).mp member
        obtain ⟨id, _, hit⟩ := List.mem_filterMap.mp listed.1
        have own : item.2.id = id := Table.key_of_find hit
        rw [← own, same, held.loaded] at hit
        cases hit
        have placed := listed.2.symm.trans held.placed
        exact (read_before held before member).2 (by rw [Option.some.inj placed])
    · exact ⟨above, unnamed⟩
  · exact ⟨above, unnamed⟩

section

variable {window : Nat} {after : ReplayScan} {goes : Bool}
  (stepped : scanWindow view maxRetries lane floor limit window scan = (after, goes))

include stepped

theorem scanWindow_inv :
    let members := windowMembers (view.indexed.index (replayableIndexKey lane.domain)) scan.minScore window
      scan.consumedAtFloor
    (members = [] ∧ after = scan ∧ goes = false) ∨
      ∃ collected, collectReplayableWindow maxRetries lane floor (limit - scan.found.length)
          (RedisView.read view members) = collected ∧
        after.found = scan.found ++ collected.1 ∧ after.boundary = fartherBoundary scan.boundary collected.2 ∧
        (goes = false ∧ (limit ≤ after.found.length ∨ members.length < window) ∨
          goes = true ∧ after.found.length < limit ∧ advanceReplayableAnchor (RedisView.read view members)
            (members.map Prod.fst) scan.minScore scan.consumedAtFloor = (after.minScore, after.consumedAtFloor)) := by
  intro members
  simp only [scanWindow, replayableWindowIds_eq] at stepped
  split at stepped
  · rename_i empty
    cases stepped
    exact .inl ⟨map_eq_nil_iff.mp empty, rfl, rfl⟩
  · refine .inr ⟨_, rfl, ?_⟩
    split at stepped <;> rename_i stops <;> cases stepped
    · rw [length_map] at stops
      exact ⟨rfl, rfl, .inl ⟨rfl, stops⟩⟩
    · exact ⟨rfl, rfl, .inr ⟨rfl, Nat.not_le.mp fun full => stops (.inl full), rfl⟩⟩

theorem scanWindow_listed (listed : Listed entry place scan) : Listed entry place after := by
  obtain ⟨before, later, split, earlier⟩ := listed
  rcases scanWindow_inv stepped with ⟨_, rfl, _⟩ | ⟨collected, _, found, _⟩
  · exact ⟨before, later, split, earlier⟩
  · exact ⟨before, later ++ collected.1, by rw [found, split]; simp, earlier⟩

theorem scanWindow_cases (held : Sees view lane entry place) (wide : 0 < window)
    (matched : lane.isReplayableMatch maxRetries false entry = true)
    (beyondFloor : beyond floor place = true)
    (state : Listed entry place scan ∨ Ahead limit entry place scan) :
    Listed entry place after ∨
      goes = false ∧ Left limit place after ∨
      goes = true ∧ Ahead limit entry place after := by
  rcases state with listed | ahead
  · exact .inl (scanWindow_listed stepped listed)
  have stored := (Table.mem_entries_iff _ (entry.id, (ofLex place).1)).mpr held.indexed
  have own : memberPosition (entry.id, (ofLex place).1) = place := by
    rw [← id_of_position held.placed]
    rfl
  have room := ahead.room
  have windows := split_windowMembers window stored ahead.above ahead.unread
  rw [own] at windows
  rcases scanWindow_inv stepped with ⟨empty, _⟩ | ⟨collected, did, found, boundary, next⟩
  · rcases windows with ⟨before, later, members, _⟩ | ⟨full, _⟩
    · simp [members] at empty
    · simp [empty, wide.ne] at full
  generalize windowMembers (view.indexed.index (replayableIndexKey lane.domain)) scan.minScore window
    scan.consumedAtFloor = members at windows did next
  have known : ∀ item ∈ RedisView.read view members, item.2.position = some item.1 :=
    fun item member => ((mem_positioned_iff _ _).mp member).2
  have size : after.found.length = scan.found.length + collected.1.length := by rw [found, List.length_append]
  have kept (all : AllBefore collected.1 place)
      (chosen : ∀ item, collected.2 = some item → item ∈ RedisView.read view members ∧
        Precedes item.1 place) :
      AllBefore after.found place ∧ ∀ item, after.boundary = some item →
        item.2.position = some item.1 ∧ Precedes item.1 place := by
    rw [found, boundary, allBefore_append]
    refine ⟨⟨ahead.earlier, all⟩, fun item picked => ?_⟩
    rcases fartherBoundary_cases picked with old | new
    · exact ahead.resumes item old
    · exact ⟨known item (chosen item new).1, (chosen item new).2⟩
  rcases windows with ⟨before, later, rfl, earlier⟩ | ⟨full, earlier⟩
  · have read : RedisView.read view (before ++ (entry.id, (ofLex place).1) :: later) =
        RedisView.read view before ++ (place, entry) :: RedisView.read view later := by
      simp [RedisView.read, positioned, held.loaded, held.placed]
    rw [read] at did known kept
    rcases collect_present (by omega) did known (fun item member => read_before held earlier member) beyondFloor matched with
      ⟨firsts, lasts, shown, before⟩ | ⟨filled, all, chosen⟩
    · refine .inl ⟨scan.found ++ firsts, lasts, by rw [found, shown, List.append_assoc], ?_⟩
      exact (allBefore_append _ _ _).mpr ⟨ahead.earlier, before⟩
    · rcases next with ⟨stops, _⟩ | ⟨_, short, _⟩
      · obtain ⟨allBefore, resumes⟩ := kept all fun item new =>
          ⟨List.mem_append_left _ (chosen item new), read_before held earlier (chosen item new)⟩
        exact .inr (.inl ⟨stops, .inl (by omega), allBefore, resumes⟩)
      · omega
  · obtain ⟨short, all, chosen⟩ := collect_before did known fun item member => read_before held earlier member
    obtain ⟨allBefore, resumes⟩ := kept all fun item new =>
      ⟨chosen item new, read_before held earlier (chosen item new)⟩
    rcases next with ⟨stops, why⟩ | ⟨goes, unfilled, moved⟩
    · exact .inr (.inl ⟨stops, .inl (by omega), allBefore, resumes⟩)
    · have anchor := anchor_ahead held earlier ahead.above ahead.unread moved
      exact .inr (.inr ⟨goes, unfilled, allBefore, resumes, anchor.1, anchor.2⟩)

end

theorem scanWindows_accounts (chunk maxScan : Nat) (held : ∀ turn, Sees (views turn) lane entry place)
    (matched : lane.isReplayableMatch maxRetries false entry = true)
    (beyondFloor : beyond floor place = true) (rounds turn : Nat)
    (state : Listed entry place scan ∨ Ahead limit entry place scan)
    {final : ReplayScan} (ran : scanWindows views chunk maxScan maxRetries lane floor limit rounds turn scan = final) :
    Listed entry place final ∨
      Left limit place final := by
  have exhausted : ∀ {scan : ReplayScan}, Listed entry place scan ∨
      Ahead limit entry place scan → { scan with scanExhausted := true } = final →
      Listed entry place final ∨
        Left limit place final := by
    rintro scan (listed | ahead) rfl
    · exact .inl listed
    · exact .inr ⟨.inr rfl, ahead.earlier, ahead.resumes⟩
  induction rounds generalizing turn scan with
  | zero => exact exhausted state ran
  | succ rounds ih =>
    simp only [scanWindows] at ran
    split at ran
    · rename_i full
      rcases state with listed | ahead
      · exact .inl (ran ▸ listed)
      · exact absurd full (Nat.not_le.mpr ahead.room)
    · split at ran
      · exact exhausted state ran
      · rename_i wide
        split at ran <;> rename_i after stepped <;>
          rcases scanWindow_cases stepped (held turn) (Nat.pos_of_ne_zero wide) matched beyondFloor state with
            listed | ⟨stops, left⟩ | ⟨goes, ahead⟩
        · exact .inl (ran ▸ listed)
        · exact .inr (ran ▸ left)
        · cases goes
        · exact ih (turn + 1) (.inl listed) ran
        · cases stops
        · exact ih (turn + 1) (.inr ahead) ran

structure Holds (views : Nat → RedisView) (maxRetries : Int) (lane : Lane) (entry : Entry) :
    Prop where
  seen : ∃ place, ∀ turn, Sees (views turn) lane entry place
  matched : lane.isReplayableMatch maxRetries false entry = true

theorem redis_accounts (chunk maxScan : Nat) (held : Holds views maxRetries lane entry)
    (cursor : Option Cursor) (room : 0 < limit) (known : entry.position = some place)
    (ahead : ∀ low, decodeReplayCursor cursor = some low → Precedes low place) :
    (findReplayablePage views chunk maxScan maxRetries lane limit cursor).Accounts limit entry place := by
  obtain ⟨_, sees⟩ := held.seen
  obtain rfl := some.inj (known.symm.trans (sees 0).placed)
  have start : Ahead limit entry place
      { minScore := (decodeReplayCursor cursor).map fun position => (ofLex position).1
        consumedAtFloor := ((decodeReplayCursor cursor).map fun position => ((ofLex position).2 : String)).toFinset } := by
    cases floor : decodeReplayCursor cursor with
    | none => exact ⟨room, by simp [AllBefore], by simp, rfl, by simp⟩
    | some low =>
      refine ⟨room, by simp [AllBefore], by simp, ?_, by simpa [← id_of_position known] using (ahead low floor).2.symm⟩
      simp only [map_some, all_some, decide_eq_true_eq]
      exact Prod.Lex.monotone_fst _ _ (ahead low floor).1.le
  rcases scanWindows_accounts chunk maxScan sees held.matched (beyond_of_precedes ahead) (maxScan + 1) 0 (.inr start) rfl with
    ⟨before, after, split, earlier⟩ | left
  · exact .listed before after split earlier
  · refine .left left.bounded left.earlier fun position decoded => ?_
    exact resumes_before (fun item stood => (left.resumes item stood).1) (fun item stood => (left.resumes item stood).2) decoded

end

end RedisQuery

def memorySelector : Selector (MemoryStore × SetIteration) where
  page source := source.1.findReplayablePage source.2
  holds source := source.1.Holds
  dated _ _ _ _ held := held.dated
  accounts _ _ _ _ held _ cursor _ room known ahead := memory_accounts held cursor room known ahead

def redisSelector (chunk maxScan : Nat) : Selector (Nat → RedisView) where
  page views := RedisQuery.findReplayablePage views chunk maxScan
  holds := RedisQuery.Holds
  dated _ _ _ _ held := by
    obtain ⟨_, seen⟩ := held.seen
    obtain ⟨_, created, _⟩ := (position_eq_some_iff _ _).mp (seen 0).placed
    rw [created]
    rfl
  accounts _ _ _ _ held _ cursor _ room known ahead :=
    RedisQuery.redis_accounts chunk maxScan held cursor room known ahead

attribute [local simp] RedisQuery.replayableIndexKey

theorem holds_of_mirrored {world : RedisWorld} (mirrored : Mirrored world) {lane : Lane}
    {instant : Time} (stored : world.find entry.id = some entry)
    (pending : entry.status = .pending) (domain : lane.domain = none ∨ lane.domain = some entry.domain)
    (created : entry.createdAt = some instant) :
    RedisQuery.Sees ⟨world, world⟩ lane entry (replayCursorPosition instant entry.id) := by
  have noRegistry : RedisQuery.replayableIndexKey lane.domain ≠ .domains := by
    rcases domain with all | own
    · simp [all]
    · simp [own]
  have home : RedisQuery.replayableIndexKey lane.domain ∈ homes entry := by
    rcases domain with all | own
    · simp [all, homes, pending, RedisDlq.statusKey]
    · simp [own, homes, pending]
  refine ⟨?_, stored, (position_eq_some_iff _ _).mpr ⟨instant, created, rfl⟩, ?_⟩
  · have score := mirrored.placed entry.id _ noRegistry
    rw [stored, homeScore, if_pos home, created, RedisWorld.score, Option.map_eq_some_iff] at score
    obtain ⟨member, found, same⟩ := score
    have named : member.1 = entry.id := Table.key_of_find found
    rw [← same, ← named]
    rwa [← named] at found
  · intro member listed other found createdAt stamped
    have score := mirrored.placed member.1 _ noRegistry
    have indexed := (Table.mem_entries_iff _ _).mp listed
    rw [found, homeScore, RedisWorld.score, indexed, Option.map_some] at score
    split at score
    · exact Option.mem_unique stamped score.symm
    · cases score

section

variable {σ : Type} (selector : Selector σ) {store : σ} {maxRetries : Int} {lane : Lane} {limit : Nat}

def Selector.walk (store : σ) (maxRetries : Int) (lane : Lane) (limit : Nat) :
    (calls : Nat) → Option Cursor → List ReplayablePage
  | 0, _ => []
  | calls + 1, cursor =>
      let page := selector.page store maxRetries lane limit cursor
      page :: Selector.walk store maxRetries lane limit calls page.nextCursor

theorem Selector.walk_lists (held : selector.holds store maxRetries lane entry) (room : 0 < limit)
    (known : entry.position = some place) (calls : Nat) (cursor : Option Cursor)
    (ahead : ∀ low, decodeReplayCursor cursor = some low → Precedes low place) {last : ReplayablePage}
    (reached : last ∈ selector.walk store maxRetries lane limit calls cursor)
    (short : last.entries.length ≠ limit ∧ last.scanExhausted = false) :
    ∃ page ∈ selector.walk store maxRetries lane limit calls cursor, entry ∈ page.entries := by
  induction calls generalizing cursor with
  | zero => cases reached
  | succ calls ih =>
    rcases selector.accounts store maxRetries lane entry held limit cursor place room known ahead with
      ⟨before, after, split, _⟩ | ⟨bounded, _, resumes⟩
    · exact ⟨_, mem_cons_self, by simp [split]⟩
    · rcases mem_cons.mp reached with rfl | later
      · simp [short] at bounded
      · obtain ⟨page, listed, found⟩ := ih _ resumes later
        exact ⟨page, mem_cons_of_mem _ listed, found⟩

end

/-- After every sequential run, a walk that meets a page neither full nor cut short has listed every
replayable entry of its lane. -/
theorem redis_walk_lists_every_entry (clock : Time) (namespaceText : String) (operations : List RedisOperation)
    (chunk maxScan : Nat) :
    Alone (runOperations operations) (emptyRedis clock namespaceText) fun _ after =>
      ∀ (maxRetries : Int) (lane : Lane) (limit calls : Nat), 0 < limit →
        let pages := (redisSelector chunk maxScan).walk (fun _ => ⟨after, after⟩) maxRetries lane limit calls none
        (∃ last ∈ pages, last.entries.length ≠ limit ∧ last.scanExhausted = false) →
          ∀ id entry, after.find id = some entry → entry.status = .pending →
            (lane.domain = none ∨ lane.domain = some entry.domain) →
              lane.isReplayableMatch maxRetries false entry = true → ∃ page ∈ pages, entry ∈ page.entries := by
  have kept : Alone (runOperations operations) (emptyRedis clock namespaceText) fun _ after => Mirrored after :=
    Prog.ensures_foldlM (fun _ operation during _ mirrored => alone_operation mirrored operation)
      (mirrored_emptyRedis clock namespaceText)
  refine kept.mono ?_
  rintro _ after mirrored maxRetries lane limit calls room pages ⟨last, reached, short⟩ id entry stored pending domain
    matched
  obtain ⟨instant, created⟩ := isSome_iff_exists.mp (mirrored.dated id entry stored)
  obtain rfl : entry.id = id := Table.key_of_find stored
  have sees := holds_of_mirrored mirrored stored pending domain created
  exact (redisSelector chunk maxScan).walk_lists ⟨⟨_, fun _ => sees⟩, matched⟩ room sees.placed calls none nofun reached short

end Baldur.Dlq
