import Baldur.Dlq.RecoveryWalk
import Mathlib.Tactic.Linarith

/-!
Failing recovery trials, tick after tick: they take the entries in turn as long as lanes that run out
together stay apart.
-/

namespace Baldur.Dlq

open List Option

variable {after : LaneCursors} {rounds : Nat}

section

variable {items : List Placed} (store : MemoryStore) (iteration : SetIteration) (maxReplays : Int)

def memoryEntries (lane : Lane) : List Placed :=
  let read := (iteration.order (store.pendingIds lane.domain)).filterMap store.find
  ((positioned read).filter fun item => lane.isReplayableMatch maxReplays false item.2).insertionSort
    fun left right => left.1 ≤ right.1

attribute [local simp] positioned

theorem nodup_read (ids : List String) (distinct : ids.Nodup) :
    ((positioned (ids.filterMap store.find)).map Prod.fst).Nodup := by
  induction ids with
  | nil => simp
  | cons id rest ih =>
    rw [nodup_cons] at distinct
    have tail := ih distinct.2
    cases found : store.find id with
    | none => simpa [found] using tail
    | some entry =>
      have named : entry.id = id := Table.key_of_find found
      cases known : entry.position with
      | none => simpa [found, known] using tail
      | some place =>
        have split : positioned ((id :: rest).filterMap store.find) =
            (place, entry) :: positioned (rest.filterMap store.find) := by
          simp [found, known]
        rw [split, map_cons, nodup_cons]
        refine ⟨?_, tail⟩
        intro member
        obtain ⟨other, listed, same⟩ := mem_map.mp member
        obtain ⟨read, placed⟩ := (mem_positioned_iff _ other).mp listed
        obtain ⟨otherId, otherMember, otherFound⟩ := mem_filterMap.mp read
        have otherNamed : other.2.id = otherId := Table.key_of_find otherFound
        have sameId : entry.id = other.2.id := by
          rw [← id_of_position known, ← id_of_position placed, same]
        rw [named, otherNamed] at sameId
        exact distinct.1 (sameId ▸ otherMember)

theorem strict_insertionSort (distinct : (items.map Prod.fst).Nodup) :
    (items.insertionSort fun left right => left.1 ≤ right.1).Pairwise fun left right => left.1 < right.1 := by
  have weak : (items.insertionSort fun left right => left.1 ≤ right.1).Pairwise fun left right => left.1 ≤ right.1 :=
    pairwise_insertionSort_by (fun _ _ => Iff.rfl) items
  have apart : ((items.insertionSort fun left right => left.1 ≤ right.1).map Prod.fst).Nodup :=
    ((perm_insertionSort _ items).map Prod.fst).nodup_iff.mpr distinct
  rw [nodup_iff_pairwise_ne, pairwise_map] at apart
  exact (weak.and apart).imp fun ⟨ordered, different⟩ => lt_of_le_of_ne ordered different

theorem filter_insertionSort (distinct : (items.map Prod.fst).Nodup) (keep : Placed → Bool) :
    (items.insertionSort fun left right => left.1 ≤ right.1).filter keep =
      (items.filter keep).insertionSort fun left right => left.1 ≤ right.1 := by
  have fewer : ((items.filter keep).map Prod.fst).Nodup := distinct.sublist (filter_sublist.map Prod.fst)
  refine Perm.eq_of_pairwise ?_ ((strict_insertionSort distinct).sublist filter_sublist) (strict_insertionSort fewer) ?_
  · intro left right _ _ before after
    exact absurd before after.asymm
  · exact ((perm_insertionSort _ items).filter keep).trans (perm_insertionSort _ _).symm

theorem nodup_matches (lane : Lane) :
    (((positioned ((iteration.order (store.pendingIds lane.domain)).filterMap store.find)).filter fun item =>
      lane.isReplayableMatch maxReplays false item.2).map Prod.fst).Nodup :=
  (nodup_read store _ (iteration.distinct _)).sublist (filter_sublist.map Prod.fst)

theorem memory_found (lane : Lane) (cursor : Option Cursor) :
    let read := (iteration.order (store.pendingIds lane.domain)).filterMap store.find
    let fresh := (positioned read).filter fun item => beyond (decodeReplayCursor cursor) item.1
    (memoryEntries store iteration maxReplays lane).filter (fun item => beyond (decodeReplayCursor cursor) item.1) =
      (fresh.filter fun item => lane.isReplayableMatch maxReplays false item.2).insertionSort
        fun left right => left.1 ≤ right.1 := by
  intro read fresh
  have order := filter_insertionSort (nodup_matches store iteration maxReplays lane)
    fun item => beyond (decodeReplayCursor cursor) item.1
  rw [memoryEntries, order, List.filter_filter, List.filter_filter]
  simp only [Bool.and_comm]
  rfl

theorem memory_page (lane : Lane) (limit : Nat) (cursor : Option Cursor) :
    (store.findReplayablePage iteration maxReplays lane limit cursor).entries =
      (((memoryEntries store iteration maxReplays lane).filter fun item =>
        beyond (decodeReplayCursor cursor) item.1).take limit).map Prod.snd := by
  rw [memory_found]
  rfl

def memoryPages (lane : Lane) (limit : Nat) :
    SteadyPages (store.findReplayablePage iteration maxReplays lane limit) limit where
  entries := memoryEntries store iteration maxReplays lane
  marks := ((memoryEntries store iteration maxReplays lane).map Prod.fst).toFinset
  sorted := strict_insertionSort (nodup_matches store iteration maxReplays lane)
  placed := by
    intro item member
    have listed := List.mem_of_mem_filter ((List.perm_insertionSort _ _).subset member)
    exact ((mem_positioned_iff _ item).mp listed).2
  marked := by
    intro item member
    exact List.mem_toFinset.mpr (List.mem_map_of_mem member)
  listed := by
    intro cursor
    exact ⟨_, List.take_prefix limit _, memory_page store iteration maxReplays lane limit cursor⟩
  complete := by
    intro cursor _ short
    rw [memory_page] at short ⊢
    rw [List.take_of_length_le]
    rw [List.length_map, List.length_take] at short
    omega
  resumes := by
    intro cursor bound
    simp [MemoryStore.findReplayablePage] at bound

def memoryRunner (truncateGate handlerRefusal : Entry → Option String) : RecoveryTrialRunner where
  findReplayablePage := store.findReplayablePage iteration
  maxReplayAttempts := maxReplays
  truncateGate := truncateGate
  handlerRefusal := handlerRefusal

def memoryBacklog (truncateGate handlerRefusal : Entry → Option String) :
    SteadyBacklog (memoryRunner store iteration maxReplays truncateGate handlerRefusal) :=
  fun lane => memoryPages store iteration maxReplays lane trialCandidatePage

end

section

variable {runner : RecoveryTrialRunner} {backlog : SteadyBacklog runner} {lanes : List Lane} {lane : Fin lanes.length}

def positionsOf (lanes : List Lane) (after : LaneCursors) (lane : Fin lanes.length) : Option Position :=
  decodeReplayCursor (storedCursor lanes after lane)

def Waits (backlog : SteadyBacklog runner) (lane : Lane) : Prop :=
  ∃ item ∈ (backlog lane).entries, runner.accepts item.2 = true

def RunOut (backlog : SteadyBacklog runner) (after : LaneCursors) (lane : Lane) : Prop :=
  ∀ item ∈ (backlog lane).entries, runner.accepts item.2 = true →
    beyond (decodeReplayCursor (after.get lane.key)) item.1 = false

/-- Of two lanes that have both run out, each holds an entry older than every accepted one of the other. -/
def LanesApart (backlog : SteadyBacklog runner) (lanes : List Lane) (after : LaneCursors) : Prop :=
  ∀ first ∈ lanes, ∀ second ∈ lanes, first ≠ second → Waits backlog first → Waits backlog second →
    RunOut backlog after first → RunOut backlog after second →
      ∃ item ∈ (backlog first).entries, ∀ other ∈ (backlog second).entries,
        runner.accepts other.2 = true → item.1 < other.1

theorem runOut_of_due (out : (rota backlog lanes).due lane (positionsOf lanes after lane) = ∅) :
    RunOut backlog after (lanes.get lane) := by
  intro item listed accepted
  have good : item.1 ∈ (rota backlog lanes).good lane := (mem_good_iff item.1).mpr ⟨item, listed, accepted, rfl⟩
  have passed := Turns.Rota.not_past_of_due_eq_empty out good
  rw [past_iff] at passed
  simpa [positionsOf, storedCursor] using passed

theorem waits_of_good (good : ((rota backlog lanes).good lane).Nonempty) : Waits backlog (lanes.get lane) := by
  obtain ⟨spot, member⟩ := good
  obtain ⟨item, listed, accepted, _⟩ := (mem_good_iff spot).mp member
  exact ⟨item, listed, accepted⟩

theorem apart_of_lanes (distinct : (lanes.map Lane.key).Nodup)
    (apart : LanesApart backlog lanes after) : (rota backlog lanes).Apart (positionsOf lanes after) := by
  intro first second different firstGood secondGood firstOut secondOut
  have lanesDiffer : lanes.get first ≠ lanes.get second := by
    intro same
    exact different (nodup_iff_injective_get.mp (Nodup.of_map Lane.key distinct) same)
  obtain ⟨item, listed, older⟩ := apart _ (lanes.get_mem first) _ (lanes.get_mem second) lanesDiffer
    (waits_of_good firstGood) (waits_of_good secondGood) (runOut_of_due firstOut) (runOut_of_due secondOut)
  refine ⟨item.1, (mem_all_iff item.1).mpr ⟨item, listed, rfl⟩, ?_⟩
  intro spot good
  obtain ⟨other, otherListed, accepted, rfl⟩ := (mem_good_iff spot).mp good
  exact older other otherListed accepted

theorem runTrial_after (pacing : TrialPacing) (cursors : LaneCursors) (now : Time) {outcome : TrialOutcome}
    (fails : outcome ≠ .succeeded) :
    ∃ next, runTrial pacing cursors now outcome = some next ∧ next.after = cursors := by
  cases outcome with
  | succeeded => exact absurd rfl fails
  | _ => exact ⟨_, rfl, rfl⟩

theorem tick_serves (backlog : SteadyBacklog runner) (unbounded : ∀ look, runner.past look = false)
    (distinct : (lanes.map Lane.key).Nodup) (waits : ∃ lane ∈ lanes, Waits backlog lane)
    (enough : walkBound backlog lanes < rounds) {pacing : TrialPacing} {moment : TickMoment}
    (due : pacing.isDue moment.now = true) (passes : moment.checksPass = true)
    (fails : moment.outcome ≠ .succeeded) :
    ∃ lane item next,
      trialUnderLock runner rounds lanes pacing moment = some (.tried item.2 moment.outcome, some next) ∧
      item ∈ (pagesOf backlog lanes lane).entries ∧
      (rota backlog lanes).Serves (positionsOf lanes pacing.after) (positionsOf lanes next.after) lane item.1 := by
  obtain ⟨ended, walked⟩ := walk_returns backlog unbounded enough pacing.after
  have ends : WalkEnds backlog lanes pacing.after ended := walk_ends unbounded walked
  rcases ends.verdict with ⟨lane, item, found⟩ | ⟨_, none⟩
  · obtain ⟨next, left, cursors⟩ := runTrial_after pacing (pacing.after.merge ended.cursors) moment.trialAt fails
    refine ⟨lane, item, next, ?_, found.listed, ?_⟩
    · simp only [trialUnderLock, due, walked, found.candidate, passes, Bool.not_true, Bool.false_eq_true,
        if_false,
        map_some, left]
    · have positions : positionsOf lanes next.after = fun other =>
          decodeReplayCursor ((ended.lanes other).recorded.or (storedCursor lanes pacing.after other)) := by
        funext other
        rw [positionsOf, storedCursor, cursors, LaneCursors.get_merge, get_cursors distinct ends.own]
        rfl
      rw [positions]
      exact found.serves
  · obtain ⟨lane, member, item, listed, accepted⟩ := waits
    obtain ⟨index, rfl⟩ := mem_iff_get.mp member
    simp [(none index).2 item listed] at accepted

attribute [local simp] SteadyPages.ahead SteadyPages.behind SteadyPages.route

theorem nodup_route_iff {select : Option Cursor → ReplayablePage} {limit : Nat} (pages : SteadyPages select limit)
    (stored : Option Cursor) :
    (pages.route stored).Nodup ↔ ∀ text, stored = some (.unusable text) → pages.entries = [] := by
  have distinct : pages.entries.Nodup := by
    rw [nodup_iff_pairwise_ne]
    refine pages.sorted.imp ?_
    intro left right before same
    exact lt_irrefl _ (same ▸ before)
  cases stored with
  | none => simpa using distinct
  | some cursor =>
    cases cursor with
    | unusable text =>
      have twice : pages.route (some (.unusable text)) = pages.entries ++ pages.entries := by
        simp [decodeReplayCursor]
      rw [twice]
      constructor
      · intro once _ _
        apply eq_nil_iff_forall_not_mem.mpr
        intro item member
        exact (nodup_append.mp once).2.2 item member item member rfl
      · intro empty
        simp [empty text rfl]
    | encoded place =>
      have halves : pages.route (some (.encoded place)) =
          pages.entries.filter (fun item => place < item.1) ++ pages.entries.filter (fun item => item.1 ≤ place) := by
        simp [beyond]
      have once : (pages.route (some (.encoded place))).Nodup := by
        rw [halves, nodup_append]
        refine ⟨distinct.filter _, distinct.filter _, ?_⟩
        intro item ahead other behind same
        subst same
        simp only [mem_filter, decide_eq_true_eq] at ahead behind
        exact absurd ahead.2 (not_lt.mpr behind.2)
      simpa using once

theorem walk_result (backlog : SteadyBacklog runner) (unbounded : ∀ look, runner.past look = false)
    (enough : walkBound backlog lanes < rounds) (after : LaneCursors) :
    ∃ walk, walkCandidates runner rounds lanes after = some walk ∧
      ((∀ lane ∈ lanes, ∀ text, after.get lane.key = some (.unusable text) → (backlog lane).entries = []) →
        walk.examined.Nodup) ∧
      (walk.candidate = none → walk.examined.Nodup → ∀ lane ∈ lanes, ∀ text,
        after.get lane.key = some (.unusable text) → (backlog lane).entries = []) ∧
      (walk.candidate.isSome = true ↔ ∃ lane ∈ lanes, Waits backlog lane) ∧
      ∀ entry, walk.candidate = some entry → runner.accepts entry = true ∧
        ∃ lane ∈ lanes, entry ∈ (backlog lane).entries.map Prod.snd := by
  obtain ⟨walk, walked⟩ := walk_returns backlog unbounded enough after
  have ends : WalkEnds backlog lanes after walk := walk_ends unbounded walked
  refine ⟨walk, walked, ?_, ?_, ?_, ?_⟩
  · intro usable
    rw [nodup_iff_lanes]
    intro lane
    have once := (nodup_route_iff (pagesOf backlog lanes lane) (storedCursor lanes after lane)).mpr
      (usable (lanes.get lane) (lanes.get_mem lane))
    exact once.sublist (ends.routes lane).sublist
  · intro unfound distinct lane member
    obtain ⟨index, rfl⟩ := mem_iff_get.mp member
    rcases ends.verdict with ⟨_, _, found⟩ | ⟨_, whole⟩
    · rw [found.candidate] at unfound
      simp at unfound
    · have once := (nodup_iff_lanes _).mp distinct index
      rw [(whole index).1] at once
      exact (nodup_route_iff (pagesOf backlog lanes index) (storedCursor lanes after index)).mp once
  · rcases ends.verdict with ⟨lane, item, found⟩ | ⟨none, whole⟩
    · simp only [found.candidate, isSome_some, true_iff]
      exact ⟨lanes.get lane, lanes.get_mem lane, item, found.listed, found.accepted⟩
    · simp only [none, isSome_none, Bool.false_eq_true, false_iff]
      rintro ⟨lane, member, item, listed, accepted⟩
      obtain ⟨index, rfl⟩ := mem_iff_get.mp member
      simp [(whole index).2 item listed] at accepted
  · intro entry taken
    rcases ends.verdict with ⟨lane, item, found⟩ | ⟨none, _⟩
    · rw [found.candidate] at taken
      cases taken
      exact ⟨found.accepted, lanes.get lane, lanes.get_mem lane, mem_map_of_mem found.listed⟩
    · simp [none] at taken

theorem ticks_reach (backlog : SteadyBacklog runner) (unbounded : ∀ look, runner.past look = false)
    (distinct : (lanes.map Lane.key).Nodup) (enough : walkBound backlog lanes < rounds)
    (first : TrialPacing) (moments : Nat → TickMoment)
    (failing : ∀ n, (moments n).checksPass = true ∧ (moments n).outcome ≠ .succeeded)
    (apart : ∀ n pacing, ticks runner rounds lanes first moments n = some pacing →
      pacing.isDue (moments n).now = true ∧ LanesApart backlog lanes pacing.after)
    {lane : Lane} (member : lane ∈ lanes) {item : Placed} (listed : item ∈ (backlog lane).entries)
    (accepted : runner.accepts item.2 = true) :
    ∃ n pacing next, ticks runner rounds lanes first moments n = some pacing ∧
      trialUnderLock runner rounds lanes pacing (moments n) = some (.tried item.2 (moments n).outcome, next) := by
  have waits : ∃ lane ∈ lanes, Waits backlog lane := ⟨lane, member, item, listed, accepted⟩
  have run : ∀ n, ∃ pacing, ticks runner rounds lanes first moments n = some pacing := by
    intro n
    induction n with
    | zero => exact ⟨first, rfl⟩
    | succ n ih =>
      obtain ⟨pacing, reached⟩ := ih
      obtain ⟨_, _, next, tick, _⟩ := tick_serves backlog unbounded distinct waits enough (apart n pacing reached).1
        (failing n).1 (failing n).2
      exact ⟨next, by simp [ticks, reached, tick]⟩
  choose pacings reached using run
  have turns : ∀ n, ∃ lane item,
      trialUnderLock runner rounds lanes (pacings n) (moments n) =
        some (.tried item.2 (moments n).outcome, some (pacings (n + 1))) ∧
      item ∈ (pagesOf backlog lanes lane).entries ∧
      (rota backlog lanes).Serves (positionsOf lanes (pacings n).after) (positionsOf lanes (pacings (n + 1)).after)
        lane item.1 := by
    intro n
    obtain ⟨lane, item, next, tick, own, serves⟩ := tick_serves backlog unbounded distinct waits enough
      (apart n (pacings n) (reached n)).1 (failing n).1 (failing n).2
    have same : next = pacings (n + 1) := by
      have after' := reached (n + 1)
      rw [ticks, reached n] at after'
      simpa [tick] using after'
    subst same
    exact ⟨lane, item, tick, own, serves⟩
  choose served items ticked own serves using turns
  obtain ⟨index, rfl⟩ := mem_iff_get.mp member
  have good : item.1 ∈ (rota backlog lanes).good index := (mem_good_iff item.1).mpr ⟨item, listed, accepted, rfl⟩
  obtain ⟨n, atLane, atSpot⟩ := Turns.Rota.every_spot_served serves
    (fun n => apart_of_lanes distinct (apart n (pacings n) (reached n)).2) good
  have sameItem : items n = item := by
    have ownHere := own n
    rw [atLane] at ownHere
    exact eq_of_place_eq (pagesOf backlog lanes index).sorted ownHere listed atSpot
  exact ⟨n, pacings n, some (pacings (n + 1)), reached n, sameItem ▸ ticked n⟩

end

/-- A walk without a deadline returns, and returns a candidate exactly when a lane holds an accepted
entry; failing ticks reach every accepted entry as long as lanes that run out together stay apart. -/
theorem recovery_trials_take_turns (runner : RecoveryTrialRunner) (unbounded : ∀ look, runner.past look = false)
    (backlog : SteadyBacklog runner) (lanes : LaneSet) :
    ∃ bound, ∀ rounds, bound < rounds →
      (∀ after, ∃ walk, walkCandidates runner rounds lanes.lanes after = some walk ∧
        ((∀ lane ∈ lanes.lanes, ∀ text, after.get lane.key = some (.unusable text) → (backlog lane).entries = []) →
          walk.examined.Nodup) ∧
        (walk.candidate = none → walk.examined.Nodup → ∀ lane ∈ lanes.lanes, ∀ text,
          after.get lane.key = some (.unusable text) → (backlog lane).entries = []) ∧
        (walk.candidate.isSome = true ↔ ∃ lane ∈ lanes.lanes, Waits backlog lane) ∧
        ∀ entry, walk.candidate = some entry → runner.accepts entry = true ∧
          ∃ lane ∈ lanes.lanes, entry ∈ (backlog lane).entries.map Prod.snd) ∧
      ∀ first moments, (∀ n, (moments n).checksPass = true ∧ (moments n).outcome ≠ .succeeded) →
        (∀ n pacing, ticks runner rounds lanes.lanes first moments n = some pacing →
          pacing.isDue (moments n).now = true ∧ LanesApart backlog lanes.lanes pacing.after) →
        ∀ lane ∈ lanes.lanes, ∀ item ∈ (backlog lane).entries, runner.accepts item.2 = true →
          ∃ n pacing next, ticks runner rounds lanes.lanes first moments n = some pacing ∧
            trialUnderLock runner rounds lanes.lanes pacing (moments n) =
              some (.tried item.2 (moments n).outcome, next) := by
  refine ⟨walkBound backlog lanes.lanes, ?_⟩
  intro rounds enough
  constructor
  · exact walk_result backlog unbounded enough
  · intro first moments failing apart lane member item listed accepted
    exact ticks_reach backlog unbounded lanes.distinct enough first moments failing apart member listed accepted

def parkedJob (id failureType : String) (createdAt : Time) : Entry where
  id := id
  domain := "jobs"
  failureType := failureType
  status := .pending
  createdAt := some createdAt

def jobLane (failureType : String) : Lane :=
  ⟨failureType, some "jobs", none⟩

def jobIds : Finset String :=
  {"a", "b"}

def jobIteration : SetIteration :=
  .listing jobIds ["b", "a"] (by decide) fun item => by
    simp only [jobIds, List.mem_cons, List.not_mem_nil, or_false, Finset.mem_insert, Finset.mem_singleton]
    tauto

def parkedJobs : MemoryStore where
  storage := ⟨[parkedJob "a" "timeout" 1, parkedJob "b" "declined" 2], by decide⟩
  indexByStatusDomain := fun _ _ => jobIds

def jobRunner : RecoveryTrialRunner :=
  memoryRunner parkedJobs jobIteration 3 (fun _ => none) fun _ => none

def jobBacklog : SteadyBacklog jobRunner :=
  memoryBacklog parkedJobs jobIteration 3 (fun _ => none) fun _ => none

def jobLanes : LaneSet :=
  ⟨[jobLane "timeout", jobLane "declined"], by decide⟩

def jobCursors : LaneCursors :=
  (LaneCursors.set Table.empty (jobLane "timeout").key (encodeReplayCursor 1 "a")).set
    (jobLane "declined").key (encodeReplayCursor 2 "b")

def failingTick (n : Nat) : TickMoment where
  now := minutes (10 * n)
  trialAt := minutes (10 * n)
  checksPass := true
  outcome := .failed

theorem trialBackoff_le (streak : Nat) : trialBackoff streak ≤ minutes 9 :=
  min_le_right _ _

theorem ticks_due {runner : RecoveryTrialRunner} {lanes : List Lane} (n : Nat) :
    ∀ pacing, ticks runner rounds lanes ⟨0, 0, after⟩ failingTick n = some pacing →
      pacing.nextAt ≤ minutes (10 * n) := by
  induction n with
  | zero =>
    rintro _ ⟨⟩
    simp [minutes]
  | succ n ih =>
    intro pacing reached
    simp only [ticks, bind_eq_some_iff, map_eq_some_iff] at reached
    obtain ⟨before, earlier, tick, ticked, rfl⟩ := reached
    have bound := ih before earlier
    have spacing := trialBackoff_le (before.streak + 1)
    have later : minutes (10 * n) + minutes 9 ≤ minutes (10 * (n + 1 : Nat)) := by
      simp only [minutes]
      push_cast
      linarith
    have waited : (0 : Time) ≤ minutes 9 := by decide
    have due : before.isDue (failingTick n).now = true := decide_eq_true bound
    simp only [trialUnderLock, due, Bool.not_true, Bool.false_eq_true, if_false, map_eq_some_iff] at ticked
    obtain ⟨walk, _, rfl⟩ := ticked
    cases walk.candidate with
    | none =>
      simp only [getD_some]
      split <;> exact bound.trans (by linarith)
    | some =>
      simp only [failingTick, Bool.not_true, Bool.false_eq_true, if_false, runTrial, getD_some]
      linarith

theorem walk_from_jobs : ∃ walk entry, walkCandidates jobRunner 20 jobLanes.lanes jobCursors = some walk ∧
    walk.candidate = some entry ∧ entry.id = "a" ∧ jobCursors.merge walk.cursors = jobCursors := by
  have ran : ((walkCandidates jobRunner 20 jobLanes.lanes jobCursors).map fun walk =>
      (walk.candidate.map (·.id), (jobCursors.merge walk.cursors).entries)) =
      some (some "a", jobCursors.entries) := by
    decide +kernel
  obtain ⟨walk, walked, outcome⟩ := map_eq_some_iff.mp ran
  obtain ⟨found, kept⟩ := Prod.mk.inj outcome
  obtain ⟨entry, taken, named⟩ := map_eq_some_iff.mp found
  refine ⟨walk, entry, walked, taken, named, ?_⟩
  cases merged : jobCursors.merge walk.cursors with
  | mk =>
    rw [merged] at kept
    exact Table.mk.injEq _ _ _ _ ▸ kept

theorem failing_trials_starve_job :
    (∃ item ∈ (jobBacklog (jobLane "declined")).entries, jobRunner.accepts item.2 = true ∧ item.2.id = "b") ∧
    (∀ n, ∃ pacing entry next,
      ticks jobRunner 20 jobLanes.lanes ⟨0, 0, jobCursors⟩ failingTick n = some pacing ∧
      trialUnderLock jobRunner 20 jobLanes.lanes pacing (failingTick n) = some (.tried entry .failed, next) ∧
      entry.id = "a") ∧
    ((walkCandidates (memoryRunner parkedJobs jobIteration 3 (fun _ => none) fun _ => some "not now") 20
        [jobLane "timeout"] (LaneCursors.set Table.empty (jobLane "timeout").key (.unusable "not a cursor"))).map
      fun walk => walk.examined.map fun item => item.2.2.id) = some ["a", "a"] := by
  refine ⟨by decide +kernel, ?_, by decide +kernel⟩
  · obtain ⟨walk, entry, walked, taken, named, same⟩ := walk_from_jobs
    have tick : ∀ (n : Nat) (pacing : TrialPacing), pacing.after = jobCursors → pacing.nextAt ≤ minutes (10 * n) →
        trialUnderLock jobRunner 20 jobLanes.lanes pacing (failingTick n) = some (.tried entry .failed,
          some ⟨pacing.streak + 1, minutes (10 * n) + trialBackoff (pacing.streak + 1), jobCursors⟩) := by
      intro n pacing cursors bound
      have due : pacing.isDue (failingTick n).now = true := decide_eq_true bound
      simp only [trialUnderLock, due, cursors, walked, taken, same, Bool.not_true, Bool.false_eq_true, if_false,
        map_some]
      rfl
    have run : ∀ n, ∃ pacing, ticks jobRunner 20 jobLanes.lanes ⟨0, 0, jobCursors⟩ failingTick n = some pacing ∧
        pacing.after = jobCursors := by
      intro n
      induction n with
      | zero => exact ⟨_, rfl, rfl⟩
      | succ n ih =>
        obtain ⟨pacing, reached, cursors⟩ := ih
        refine ⟨⟨pacing.streak + 1, minutes (10 * n) + trialBackoff (pacing.streak + 1), jobCursors⟩, ?_, rfl⟩
        rw [ticks, reached, bind_some, tick n pacing cursors (ticks_due n pacing reached)]
        rfl
    intro n
    obtain ⟨pacing, reached, cursors⟩ := run n
    exact ⟨pacing, entry, _, reached, tick n pacing cursors (ticks_due n pacing reached), named⟩

def queuedIds : Finset String :=
  {"a", "b", "x", "y"}

def queuedIteration : SetIteration :=
  .listing queuedIds ["y", "x", "b", "a"] (by decide) fun item => by
    simp only [queuedIds, List.mem_cons, List.not_mem_nil, or_false, Finset.mem_insert, Finset.mem_singleton]
    tauto

def queuedJobs : MemoryStore where
  storage := ⟨[parkedJob "x" "timeout" (-1), parkedJob "y" "declined" 0, parkedJob "a" "timeout" 1,
    parkedJob "b" "declined" 2], by decide⟩
  indexByStatusDomain := fun _ _ => queuedIds

def queuedRunner : RecoveryTrialRunner :=
  memoryRunner queuedJobs queuedIteration 3 (fun _ => none) fun entry =>
    if entry.id = "x" ∨ entry.id = "y" then some "not now" else none

def queuedBacklog : SteadyBacklog queuedRunner :=
  memoryBacklog queuedJobs queuedIteration 3 _ _

theorem queued_lanes_apart (after : LaneCursors) : LanesApart queuedBacklog jobLanes.lanes after := by
  have older : ∀ first ∈ jobLanes.lanes, ∀ second ∈ jobLanes.lanes, first ≠ second →
      ∃ item ∈ (queuedBacklog first).entries, ∀ other ∈ (queuedBacklog second).entries,
        queuedRunner.accepts other.2 = true → item.1 < other.1 := by
    decide +kernel
  intro first firstMember second secondMember different _ _ _ _
  exact older first firstMember second secondMember different

theorem exhausted_lanes_take_turns :
    ∃ rounds n pacing entry next,
      ticks queuedRunner rounds jobLanes.lanes ⟨0, 0, jobCursors⟩ failingTick n = some pacing ∧
      trialUnderLock queuedRunner rounds jobLanes.lanes pacing (failingTick n) =
        some (.tried entry .failed, next) ∧ entry.id = "b" := by
  obtain ⟨bound, turns⟩ := recovery_trials_take_turns queuedRunner (fun _ => rfl) queuedBacklog jobLanes
  obtain ⟨item, inside, accepted, named⟩ : ∃ item ∈ (queuedBacklog (jobLane "declined")).entries,
      queuedRunner.accepts item.2 = true ∧ item.2.id = "b" := by
    decide +kernel
  obtain ⟨n, pacing, next, reached, tried⟩ := (turns (bound + 1) (by omega)).2 ⟨0, 0, jobCursors⟩ failingTick
    (fun n => ⟨rfl, by simp [failingTick]⟩)
    (fun n pacing reached => ⟨decide_eq_true (ticks_due n pacing reached), queued_lanes_apart pacing.after⟩)
    (jobLane "declined") (by simp [jobLanes]) item inside accepted
  exact ⟨bound + 1, n, pacing, item.2, next, reached, tried, named⟩

end Baldur.Dlq
