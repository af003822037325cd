import Baldur.Dlq.RecoveryCore

/-!
A recovery chain that ends silently has handed over every entry that stayed replayable: until it is handed
to a replay, the cursor its lane carries stays before it.
-/

namespace Baldur.Dlq

open Prog BatchReplayResult ChainWorld Lane LaneSelection List Recovery Table

variable {quota : Nat} {page : ReplayablePage} {carried : LaneCursors} {result : BatchReplayResult}

theorem nodup_firstOccurrences (texts : List String) : (firstOccurrences texts).Nodup := by
  unfold firstOccurrences
  refine List.foldlRecOn texts _ nodup_nil ?_
  intro kept distinct text _
  split
  · exact distinct
  · rename_i fresh
    exact distinct.append (nodup_singleton text) (disjoint_singleton.mpr fresh)

theorem laneKey_injective (domain source : Option String) :
    Function.Injective fun failureType => (mk failureType domain source).key := by
  intro first second same
  have texts := congrArg String.toList same
  simp only [key, String.toList_append, append_cancel_right_eq] at texts
  exact String.toList_inj.mp texts

section

variable (resolveStoredDomain : String → String) (declared : String → Option (List String)) (domain : String)
  (failureTypeMap : List (String × List String))

theorem nodup_laneKeys : ((recoveryLanes resolveStoredDomain declared domain failureTypeMap).map key).Nodup := by
  unfold recoveryLanes
  split
  · exact nodup_nil
  · rename_i types _
    generalize mappedEq : firstOccurrences ((failureTypeMap.filter fun item =>
      resolveStoredDomain item.1 = domain).flatMap Prod.snd) = mapped
    have mappedOnce : mapped.Nodup := mappedEq ▸ nodup_firstOccurrences _
    have both : (mapped ++ (firstOccurrences types).filter fun failureType =>
        failureType ∉ mapped ∧ failureType ≠ openCircuitFailureType).Nodup := by
      refine mappedOnce.append ((nodup_firstOccurrences types).filter _) ?_
      intro failureType inMapped inNamed
      simp only [mem_filter, decide_eq_true_eq] at inNamed
      exact inNamed.2.1 inMapped
    have all : (mapped ++ ((firstOccurrences types).filter fun failureType =>
        failureType ∉ mapped ∧ failureType ≠ openCircuitFailureType) ++
        if openCircuitFailureType ∈ mapped then [] else [openCircuitFailureType]).Nodup := by
      split
      · rwa [append_nil]
      · rename_i unmapped
        refine both.append (nodup_singleton _) (disjoint_singleton.mpr ?_)
        simp [unmapped]
    -- the key of a lane does not depend on its source
    convert all.map (laneKey_injective (some domain) none)
    simp only [map_append, map_map]
    split <;> rfl

def LaneSet.recovery : LaneSet where
  lanes := recoveryLanes resolveStoredDomain declared domain failureTypeMap
  distinct := nodup_laneKeys resolveStoredDomain declared domain failureTypeMap

theorem recoveryLanes_distinct :
    ((recoveryLanes resolveStoredDomain declared domain failureTypeMap).map key).Nodup :=
  (LaneSet.recovery resolveStoredDomain declared domain failureTypeMap).distinct

end

def Clear (cursors : LaneCursors) (key : String) (place : Position) : Prop :=
  ∀ low, decodeReplayCursor (cursors.get key) = some low → Precedes low place

section

variable {lane : Lane} {key : String} {place : Position} {entry : Entry} {selection : LaneSelection}
  {cursors : LaneCursors}

theorem Clear.set (clear : Clear cursors key place) {written : String} {cursor : Cursor}
    (before : written = key → ∀ low, decodeReplayCursor (some cursor) = some low → Precedes low place) :
    Clear (cursors.set written cursor) key place := by
  intro low decoded
  rw [LaneCursors.get_set] at decoded
  split at decoded
  · rename_i same
    exact before same low decoded
  · exact clear low decoded

def LaneBefore (key : String) (place : Position) (items : List (String × Entry)) : Prop :=
  ∀ item ∈ items, item.1 = key → ∀ position, item.2.position = some position → Precedes position place

def Chosen (key : String) (entry : Entry) (place : Position) (selection : LaneSelection) : Prop :=
  ∃ before after, selection.selected = before ++ (key, entry) :: after ∧ LaneBefore key place before

structure Awaited (key : String) (place : Position) (selection : LaneSelection) : Prop where
  clear : Clear selection.cursors key place
  earlier : LaneBefore key place selection.selected

def LaneSelection.Flagged (selection : LaneSelection) : Prop :=
  selection.capped = true ∨ selection.scanExhaustedLanes ≠ []

def Followed (key : String) (entry : Entry) (place : Position) (selection : LaneSelection) : Prop :=
  Chosen key entry place selection ∨ Awaited key place selection

def Settled (key : String) (entry : Entry) (place : Position) (selection : LaneSelection) : Prop :=
  Chosen key entry place selection ∨ Awaited key place selection ∧ selection.Flagged

theorem Settled.followed (settled : Settled key entry place selection) : Followed key entry place selection :=
  settled.imp id And.left

theorem Followed.cap (tracked : Followed key entry place selection) :
    Settled key entry place { selection with capped := true } := by
  rcases tracked with chosen | awaited
  · exact .inl chosen
  · exact .inr ⟨⟨awaited.clear, awaited.earlier⟩, .inl rfl⟩

attribute [local simp] LaneSelection.record

theorem LaneSelection.Flagged.record (flagged : selection.Flagged) (lane : Lane) (quota : Nat)
    (page : ReplayablePage) : (selection.record lane quota page).Flagged := by
  rcases flagged with capped | exhausted
  · exact .inl (by simp [capped])
  · right
    simp only [LaneSelection.record]
    split
    · simp
    · exact exhausted

theorem Chosen.record (chosen : Chosen key entry place selection) (lane : Lane) (quota : Nat)
    (page : ReplayablePage) : Chosen key entry place (selection.record lane quota page) := by
  obtain ⟨before, after, split, earlier⟩ := chosen
  refine ⟨before, after ++ page.entries.map fun entry => (lane.key, entry), ?_, earlier⟩
  simp [split]

theorem Awaited.record_other (awaited : Awaited key place selection) (other : lane.key ≠ key)
    (quota : Nat) (page : ReplayablePage) : Awaited key place (selection.record lane quota page) := by
  constructor
  · simp only [record]
    split
    · exact awaited.clear
    · exact awaited.clear.set fun same => absurd same other
  · intro item member own
    simp only [record, mem_append, mem_map] at member
    rcases member with old | ⟨_, _, rfl⟩
    · exact awaited.earlier item old own
    · exact absurd own other

theorem Awaited.record_own (awaited : Awaited key place selection) (own : lane.key = key)
    (accounts : page.Accounts quota entry place) :
    Settled key entry place (selection.record lane quota page) := by
  subst own
  cases accounts with
  | listed before after split earlier =>
    left
    refine ⟨selection.selected ++ before.map fun entry => (lane.key, entry),
      after.map fun entry => (lane.key, entry), ?_, ?_⟩
    · simp [split]
    · intro item member own position placed
      rcases mem_append.mp member with old | new
      · exact awaited.earlier item old own position placed
      · obtain ⟨other, inPage, rfl⟩ := mem_map.mp new
        exact earlier other inPage position placed
  | left bounded earlier resumes =>
    right
    refine ⟨⟨?_, ?_⟩, ?_⟩
    · simp only [record]
      split
      · exact awaited.clear
      · rename_i cursor found
        rw [found] at resumes
        exact awaited.clear.set fun _ => resumes
    · intro item member own position placed
      simp only [record, mem_append, mem_map] at member
      rcases member with old | ⟨other, inPage, rfl⟩
      · exact awaited.earlier item old own position placed
      · exact earlier other inPage position placed
    · rcases bounded with full | exhausted
      · exact .inl (by simp [full])
      · right
        simp only [record, exhausted, true_and]
        split
        · simp
        · rename_i known
          intro none
          rw [none] at known
          simp at known

theorem rollBack_clear (clear : Clear carried key place)
    (tracked : Followed key entry place selection) (processed : Nat)
    (unprocessed : (key, entry) ∉ selection.selected.take processed) :
    Clear (rollBackLaneCursors selection processed carried) key place := by
  have takenBefore : LaneBefore key place (selection.selected.take processed) := by
    rcases tracked with ⟨before, after, split, earlier⟩ | awaited
    · rw [split] at unprocessed ⊢
      rcases take_append_cons before after (key, entry) processed with ⟨rest, shown⟩ | ⟨_, cut⟩
      · rw [shown] at unprocessed
        simp at unprocessed
      · rw [cut]
        intro item member
        exact earlier item (mem_of_mem_take member)
    · intro item member
      exact awaited.earlier item (mem_of_mem_take member)
  have kept : Clear ((selection.cursors.entries.filter fun item =>
      item.1 ∉ selection.selected.map Prod.fst).foldl (fun cursors item => cursors.set item.1 item.2) carried)
      key place := by
    refine foldlRecOn (motive := fun cursors => Clear cursors key place) _ _ clear ?_
    intro cursors clear item member
    apply clear.set
    rintro rfl low decoded
    obtain ⟨listed, unselected⟩ := mem_filter.mp member
    rcases tracked with ⟨before, after, split, _⟩ | awaited
    · simp [split] at unselected
    · apply awaited.clear low
      rw [LaneCursors.get, (mem_entries_iff _ _).mp listed]
      exact decoded
  simp only [rollBackLaneCursors]
  refine foldlRecOn (motive := fun cursors => Clear cursors key place) _ _ kept ?_
  intro cursors clear item member
  cases found : item.2.cursor with
  | none => simpa [found] using clear
  | some =>
    apply clear.set
    intro own low decoded
    rw [← found, decode_cursor] at decoded
    exact takenBefore item member own low decoded

end

section

variable {σ : Type} {selector : Selector σ} {settings : ChainSettings} {within : Moment σ → Prop} {lane : Lane}
  {entry : Entry} {place : Position}

abbrev Swept {α : Type} (selector : Selector σ) (within : Moment σ → Prop) (program : RecoveryProg α)
    (before : ChainWorld σ) (post : α → ChainWorld σ → Prop) : Prop :=
  Prog.Ensures (ChainWorld.exec selector) (ChainWorld.Drifts within) program before post

structure Continues (before after : ChainWorld σ) : Prop where
  handed : ∀ entry ∈ before.handed, entry ∈ after.handed
  stops : after.stops = before.stops
  queued : after.queued = before.queued

theorem continues_refl (world : ChainWorld σ) : Continues world world :=
  ⟨fun _ => id, rfl, rfl⟩

theorem Continues.trans {first second third : ChainWorld σ} (early : Continues first second)
    (late : Continues second third) : Continues first third :=
  ⟨fun entry member => late.handed entry (early.handed entry member), late.stops.trans early.stops,
    late.queued.trans early.queued⟩

theorem swept_command (call : RecoveryCall) {before : ChainWorld σ} {post : call.Answer → ChainWorld σ → Prop}
    (holds : ∀ moment, within moment →
      post (exec selector call { before with moment := moment }).2
        (exec selector call { before with moment := moment }).1) :
    Swept selector within (command call) before post := by
  apply ensures_perform
  rintro _ ⟨moment, fits, rfl⟩
  exact holds moment fits

theorem swept_answer (call : RecoveryCall) (answer : call.Answer) {before : ChainWorld σ}
    (answers : ∀ moment, within moment →
      exec selector call { before with moment := moment } = ({ before with moment := moment }, answer)) :
    Swept selector within (command call) before fun given after => given = answer ∧ Continues before after := by
  apply swept_command
  intro moment fits
  rw [answers moment fits]
  exact ⟨rfl, fun _ => id, rfl, rfl⟩

theorem swept_pastDeadline (before : ChainWorld σ) :
    Swept selector within (command .pastDeadline) before fun _ after => Continues before after := by
  apply swept_command
  intro moment _
  exact ⟨fun _ => id, rfl, rfl⟩

theorem swept_findReplayablePage (maxReplays : Int) (lane : Lane) (limit : Nat) (cursor : Option Cursor)
    (before : ChainWorld σ) :
    Swept selector within (command (.findReplayablePage maxReplays lane limit cursor)) before
      fun page after => ∃ moment, within moment ∧ page = selector.page moment.store maxReplays lane limit cursor ∧
        Continues before after := by
  apply swept_command
  intro moment fits
  exact ⟨moment, fits, rfl, ⟨fun _ => id, rfl, rfl⟩⟩

theorem record_page {moment : Moment σ} (held : selector.holds moment.store settings.maxReplays lane entry)
    (known : entry.position = some place) {other : Lane} (unique : other.key = lane.key → other = lane)
    {selection : LaneSelection} (tracked : Followed lane.key entry place selection) (room : 0 < quota)
    (answered : page = selector.page moment.store settings.maxReplays other quota (selection.cursors.get other.key)) :
    Followed lane.key entry place (selection.record other quota page) ∧
    (other = lane ∨ Settled lane.key entry place selection →
      Settled lane.key entry place (selection.record other quota page)) := by
  rcases tracked with chosen | awaited
  · exact ⟨.inl (chosen.record other quota page), fun _ => .inl (chosen.record other quota page)⟩
  · by_cases own : other.key = lane.key
    · obtain rfl := unique own
      have settled : Settled other.key entry place (selection.record other quota page) := by
        apply awaited.record_own rfl
        rw [answered]
        exact selector.accounts _ _ _ _ held _ _ _ room known awaited.clear
      exact ⟨settled.followed, fun _ => settled⟩
    · have stays := awaited.record_other own quota page
      refine ⟨.inr stays, ?_⟩
      rintro (rfl | settled)
      · exact absurd rfl own
      · rcases settled with chosen | ⟨_, flagged⟩
        · exact .inl (chosen.record other quota page)
        · exact .inr ⟨stays, flagged.record other quota page⟩

variable (seen : ∀ moment, within moment → selector.holds moment.store settings.maxReplays lane entry)
  (known : entry.position = some place)
  (unique : ∀ other ∈ settings.lanes.lanes, other.key = lane.key → other = lane)

include seen known unique

theorem swept_fillShares {quotaBase : Nat} (share : 0 < quotaBase) (extra : Nat) (lanes : List Lane)
    (listed : ∀ other ∈ lanes, other ∈ settings.lanes.lanes) (index : Nat) (round : FillRound)
    (before : ChainWorld σ) (filled : ∀ other ∈ round.filledExactly, other ∈ settings.lanes.lanes)
    (tracked : Followed lane.key entry place round.selection)
    (due : lane ∈ lanes ∨ Settled lane.key entry place round.selection) :
    Swept selector within (fillShares settings quotaBase extra index lanes round) before
      fun round' after => Settled lane.key entry place round'.selection ∧
        (∀ other ∈ round'.filledExactly, other ∈ settings.lanes.lanes) ∧ Continues before after := by
  induction lanes generalizing index round before with
  | nil =>
    refine ensures_ret ⟨?_, filled, continues_refl _⟩
    exact due.resolve_left (by simp)
  | cons other rest ih =>
    simp only [fillShares]
    refine (swept_pastDeadline before).bind fun past during onward => ?_
    refine ensures_ite (fun _ => ensures_ret ⟨tracked.cap, filled, onward⟩) fun _ => ?_
    refine ensures_ite (fun none => by omega) fun _ => ?_
    refine (swept_findReplayablePage _ _ _ _ during).bind ?_
    rintro page later ⟨moment, fits, answered, onward'⟩
    have step := record_page (seen moment fits) known (unique other (listed other (by simp))) tracked
      (by omega) answered
    refine (ih (fun lane member => listed lane (by simp [member])) (index + 1) _ later ?_ step.1 ?_).mono ?_
    · intro lane member
      have among : lane ∈ round.filledExactly ++ [other] := by
        rcases ite_eq_or_eq (page.entries.length = quotaBase + if index < extra then 1 else 0)
          (round.filledExactly ++ [other]) round.filledExactly with longer | same
        · exact longer ▸ member
        · exact mem_append_left _ (same ▸ member)
      rcases mem_append.mp among with old | new
      · exact filled lane old
      · rw [mem_singleton.mp new]
        exact listed other (by simp)
    · rcases due with inLanes | settled
      · rcases mem_cons.mp inLanes with rfl | later
        · exact .inr (step.2 (.inl rfl))
        · exact .inl later
      · exact .inr (step.2 (.inr settled))
    · rintro round' after ⟨settled, fill, onward''⟩
      exact ⟨settled, fill, (onward.trans onward').trans onward''⟩

theorem swept_fillLeftover (lanes : List Lane) (listed : ∀ other ∈ lanes, other ∈ settings.lanes.lanes)
    (leftover : Nat) (selection : LaneSelection) (before : ChainWorld σ)
    (settled : Settled lane.key entry place selection) :
    Swept selector within (fillLeftover settings lanes leftover selection) before
      fun selection' after => Settled lane.key entry place selection' ∧ Continues before after := by
  induction lanes generalizing leftover selection before with
  | nil => exact ensures_ret ⟨settled, continues_refl _⟩
  | cons other rest ih =>
    simp only [fillLeftover]
    refine ensures_ite (fun _ => ensures_ret ⟨settled, continues_refl _⟩) fun some => ?_
    refine (swept_pastDeadline before).bind fun past during onward => ?_
    refine ensures_ite (fun _ => ensures_ret ⟨settled.followed.cap, onward⟩) fun _ => ?_
    refine (swept_findReplayablePage _ _ _ _ during).bind ?_
    rintro page later ⟨moment, fits, answered, onward'⟩
    have step := record_page (seen moment fits) known (unique other (listed other (by simp))) settled.followed
      (Nat.pos_of_ne_zero some) answered
    refine (ih (fun lane member => listed lane (by simp [member])) _ _ later (step.2 (.inr settled))).mono ?_
    rintro selection' after ⟨final, onward''⟩
    exact ⟨final, (onward.trans onward').trans onward''⟩

theorem swept_fillCircuitCloseLanes {lanes : List Lane} (listed : ∀ other ∈ lanes, other ∈ settings.lanes.lanes)
    (present : lane ∈ lanes) (enough : lanes.length ≤ settings.maxItems)
    (clear : Clear carried lane.key place) (before : ChainWorld σ) :
    Swept selector within (fillCircuitCloseLanes settings lanes carried) before
      fun selection after => Settled lane.key entry place selection ∧ Continues before after := by
  have share : 0 < settings.maxItems / lanes.length :=
    Nat.div_pos enough (length_pos_of_mem present)
  have start : Followed lane.key entry place { cursors := carried } :=
    .inr ⟨clear, by simp [LaneBefore]⟩
  refine (swept_fillShares seen known unique share _ lanes listed 0 _ before (by simp) start (.inl present)).bind ?_
  rintro round during ⟨settled, filled, onward⟩
  refine (swept_fillLeftover seen known unique _ filled _ _ during settled).mono ?_
  rintro selection after ⟨final, onward'⟩
  exact ⟨final, onward.trans onward'⟩

end

section

variable {σ : Type} {selector : Selector σ} {settings : ChainSettings} {within : Moment σ → Prop} {key : String}
  {entry : Entry} {place : Position} {selection : LaneSelection} {carried : LaneCursors}

theorem swept_executeReplayWithin (replayed : Entry) (before : ChainWorld σ) :
    Swept selector within (executeReplayWithin replayed) before
      fun _ after => Continues before after ∧ replayed ∈ after.handed := by
  have handing : Swept selector within (command (.executeReplay replayed)) before
      fun _ after => Continues before after ∧ replayed ∈ after.handed := by
    apply swept_command
    intro moment _
    exact ⟨⟨fun other member => mem_append_left _ member, rfl, rfl⟩, mem_append_right _ (by simp)⟩
  refine handing.bind ?_
  rintro ⟨result, stopped⟩ during ⟨onward, handed⟩
  refine ensures_ite (fun _ => ensures_ret ⟨onward, handed⟩) fun _ => ?_
  refine ensures_ite (fun _ => ensures_ret ⟨onward, handed⟩) fun _ => ?_
  refine (swept_pastDeadline during).bind fun past later onward' => ?_
  exact ensures_ret ⟨onward.trans onward', onward'.handed _ handed⟩

theorem swept_escalateFailed (failed : Entry) (replayed : ReplayResult) (before : ChainWorld σ) :
    Swept selector within (escalateFailed settings failed replayed) before fun _ after => Continues before after := by
  refine ensures_ite (fun _ => ?_) fun _ => ensures_ret (continues_refl _)
  apply swept_command
  intro moment _
  exact ⟨fun _ => id, rfl, rfl⟩

def BatchReplayResult.Reachable (result : BatchReplayResult) : Prop :=
  result.capped = true ∨ result.scanExhaustedLanes ≠ []

structure Concluded (key : String) (entry : Entry) (place : Position) (result : BatchReplayResult)
    (world : ChainWorld σ) : Prop where
  ran : result.inflightSkipped = false ∧ result.governanceBlocked = false
  outcome : entry ∈ world.handed ∨ Clear result.laneCursors key place ∧ result.Reachable

structure Reports (selection : LaneSelection) (result : BatchReplayResult) : Prop where
  ran : result.inflightSkipped = false ∧ result.governanceBlocked = false
  capped : result.capped = selection.capped
  cursors : result.laneCursors = selection.cursors
  exhausted : result.scanExhaustedLanes = selection.scanExhaustedLanes

theorem Reports.count (reports : Reports selection result) (replayed : ReplayResult) :
    Reports selection (result.count replayed) := by
  simp only [BatchReplayResult.count]
  split
  · exact { reports with }
  · split
    all_goals exact { reports with }

theorem concluded_stop (clear : Clear carried key place) (tracked : Followed key entry place selection)
    (reports : Reports selection result) {processed : Nat} {world : ChainWorld σ}
    (handed : ∀ item ∈ selection.selected.take processed, item.2 ∈ world.handed) (cutDlqId : Option String)
    (breakerRefused : Bool) :
    Concluded key entry place (result.stopPassAt selection processed carried cutDlqId breakerRefused) world := by
  refine ⟨reports.ran, ?_⟩
  by_cases done : (key, entry) ∈ selection.selected.take processed
  · exact .inl (handed _ done)
  · exact .inr ⟨rollBack_clear clear tracked processed done, .inl rfl⟩

theorem swept_replaySelected (clear : Clear carried key place) (settled : Settled key entry place selection)
    (rest : List (String × Entry)) (processed : Nat)
    (remaining : selection.selected.drop processed = rest) (result : BatchReplayResult)
    (reports : Reports selection result) (before : ChainWorld σ)
    (handed : ∀ item ∈ selection.selected.take processed, item.2 ∈ before.handed) :
    Swept selector within (replaySelected settings selection carried processed rest result) before
      fun result' after => Concluded key entry place result' after ∧ Continues before after := by
  induction rest generalizing processed result before with
  | nil =>
    refine ensures_ret ⟨⟨reports.ran, ?_⟩, continues_refl _⟩
    have all : selection.selected.take processed = selection.selected := by
      have whole := take_append_drop processed selection.selected
      rwa [remaining, append_nil] at whole
    rcases settled with ⟨firsts, lasts, split, _⟩ | ⟨awaited, flagged⟩
    · exact .inl (handed (key, entry) (by rw [all, split]; simp))
    · refine .inr ⟨reports.cursors ▸ awaited.clear, ?_⟩
      rw [Reachable, reports.capped, reports.exhausted]
      exact flagged
  | cons item rest ih =>
    obtain ⟨itemKey, replaying⟩ := item
    simp only [replaySelected]
    refine (swept_pastDeadline before).bind fun past during looked => ?_
    have handedNow : ∀ item ∈ selection.selected.take processed, item.2 ∈ during.handed := by
      intro item member
      exact looked.handed _ (handed item member)
    refine ensures_ite (fun _ => ?_) fun _ => ?_
    · exact ensures_ret ⟨concluded_stop clear settled.followed reports handedNow none false, looked⟩
    refine (swept_executeReplayWithin replaying during).bind ?_
    rintro ⟨replayed, cut⟩ later ⟨ran, given⟩
    have soFar := looked.trans ran
    have handedLater : ∀ item ∈ selection.selected.take processed, item.2 ∈ later.handed := by
      intro item member
      exact ran.handed _ (handedNow item member)
    have stopped := concluded_stop clear settled.followed reports handedLater (some replaying.id)
    refine ensures_ite (fun _ => ensures_ret ⟨stopped false, soFar⟩) fun _ => ?_
    refine ensures_ite (fun _ => ensures_ret ⟨stopped true, soFar⟩) fun _ => ?_
    refine (swept_escalateFailed replaying replayed later).bind fun _ last escalated => ?_
    have next : selection.selected.drop (processed + 1) = rest := by
      rw [← drop_drop, remaining, drop_one, tail_cons]
    have one : selection.selected.take (processed + 1) =
        selection.selected.take processed ++ [(itemKey, replaying)] := by
      rw [take_add, remaining]
      rfl
    refine (ih (processed + 1) next _ (reports.count replayed) last ?_).mono ?_
    · intro item member
      rw [one] at member
      rcases mem_append.mp member with old | new
      · exact escalated.handed _ (handedLater item old)
      · rw [mem_singleton.mp new]
        exact escalated.handed _ given
    · rintro result' after ⟨concluded, onward⟩
      exact ⟨concluded, (soFar.trans escalated).trans onward⟩

end

section

variable {σ : Type} {selector : Selector σ} {settings : ChainSettings} {lane : Lane} {entry : Entry}
  {place : Position} {carried : LaneCursors} {within : Moment σ → Prop} {after : ChainWorld σ}

def StaysReplayable (selector : Selector σ) (settings : ChainSettings) (lane : Lane) (entry : Entry)
    (moment : Moment σ) : Prop :=
  moment.Allows ∧ selector.holds moment.store settings.maxReplays lane entry

/-- How a pass leaves the chain: another pass is queued, with the entry still ahead of its cursors
unless it was handed over; or the chain ends, announced or with the entry handed over. -/
def PassEnds (key : String) (entry : Entry) (place : Position) (world : ChainWorld σ) : Prop :=
  (∃ next, world.queued = [next] ∧ (entry ∈ world.handed ∨ Clear (next.cursors.getD Table.empty) key place)) ∨
  world.queued = [] ∧ (world.stops ≠ [] ∨ entry ∈ world.handed)

variable (present : lane ∈ settings.lanes.lanes) (enough : settings.lanes.lanes.length ≤ settings.maxItems)
  (known : entry.position = some place)

include present enough known in
theorem swept_replayOnCircuitClose (clear : Clear carried lane.key place) (continuation : Nat) (before : ChainWorld σ) :
    Swept selector (StaysReplayable selector settings lane entry)
      (replayOnCircuitClose settings carried continuation) before
      fun result after => Concluded lane.key entry place result after ∧ Continues before after := by
  have unique : ∀ other ∈ settings.lanes.lanes, other.key = lane.key → other = lane := by
    intro other member same
    exact inj_on_of_nodup_map settings.lanes.distinct member present same
  refine (swept_answer .tryAcquireRecoveryLock false fun _ fits => Prod.ext rfl fits.1.2.2.1).bind ?_
  rintro _ during ⟨rfl, locked⟩
  simp only [Bool.false_eq_true, if_false, replayOnCircuitCloseLocked]
  rw [if_neg (ne_nil_of_mem present)]
  refine (swept_answer .checkAllGovernance true fun _ fits => Prod.ext rfl fits.1.2.2.2).bind ?_
  rintro _ later ⟨rfl, checked⟩
  simp only [Bool.not_true, Bool.false_eq_true, if_false]
  have rotated : ∀ other, other ∈ settings.lanes.lanes.drop (continuation % settings.lanes.lanes.length) ++
      settings.lanes.lanes.take (continuation % settings.lanes.lanes.length) ↔ other ∈ settings.lanes.lanes := by
    intro other
    rw [mem_append, or_comm, ← mem_append, take_append_drop]
  refine (swept_fillCircuitCloseLanes (fun moment fits => fits.2) known unique
    (fun other member => (rotated other).mp member) ((rotated lane).mpr present) ?_ clear later).bind ?_
  · simp only [length_append, length_drop, length_take]
    omega
  · rintro selection last ⟨settled, filled⟩
    refine (swept_replaySelected clear settled selection.selected 0 (drop_zero) _ ⟨⟨rfl, rfl⟩, rfl, rfl, rfl⟩ last
      (by simp)).mono ?_
    rintro result after ⟨concluded, replayed⟩
    exact ⟨concluded, ((locked.trans checked).trans filled).trans replayed⟩

variable {message : PassMessage} {before : ChainWorld σ}

theorem swept_dispatch
    (concluded : Concluded lane.key entry place result before) (empty : before.queued = []) :
    Swept selector within (dispatchCircuitCloseContinuation settings message result carried) before
      fun _ after => PassEnds lane.key entry place after := by
  have announced : ∀ stop, Swept selector within (command (.emitCircuitCloseChainStopped stop)) before
      fun _ after => PassEnds lane.key entry place after := by
    intro stop
    apply swept_command
    intro moment _
    exact .inr ⟨empty, .inl (by simp [exec])⟩
  have queues : ∀ next : PassMessage, (entry ∈ before.handed ∨
      Clear (next.cursors.getD Table.empty) lane.key place) →
      Swept selector within (command (.queue next)) before fun _ after => PassEnds lane.key entry place after := by
    intro next ahead
    apply swept_command
    intro moment _
    exact .inl ⟨next, by simp [exec, empty], ahead⟩
  simp only [dispatchCircuitCloseContinuation, concluded.ran.1, Bool.false_eq_true, if_false]
  have reachable : (chainProgress result carried).1 = true ↔ result.Reachable := by
    simp [chainProgress, Reachable]
  generalize chainProgress result carried = progress at reachable ⊢
  obtain ⟨reaches, advanced⟩ := progress
  refine ensures_ite (fun _ => (announced _).discard) fun notStuck => ?_
  refine ensures_ite (fun _ => ?_) fun notMoving => ?_
  · refine ensures_ite (fun _ => (announced _).discard) fun _ => ?_
    have ahead : entry ∈ before.handed ∨ Clear result.laneCursors lane.key place :=
      concluded.outcome.imp id And.left
    refine (queues _ ?_).discard
    exact ahead
  · have handed : entry ∈ before.handed := by
      refine concluded.outcome.resolve_right ?_
      rintro ⟨_, reach⟩
      have reaching := reachable.mpr reach
      cases advanced <;> simp_all
    refine ensures_ite (fun _ => (queues _ (.inl handed)).discard) fun _ => ?_
    exact ensures_ret (.inr ⟨empty, .inr handed⟩)

include present enough known in
theorem swept_pass (clear : Clear (message.cursors.getD Table.empty) lane.key place) (empty : before.queued = []) :
    Swept selector (StaysReplayable selector settings lane entry)
      (Recovery.conditionalReplayOnCircuitClose settings message) before
      fun _ after => PassEnds lane.key entry place after := by
  have busy : (!(message.cursors.getD Table.empty).entries.isEmpty || decide (settings.lanes.lanes ≠ [])) = true := by
    simp [List.ne_nil_of_mem present]
  simp only [Recovery.conditionalReplayOnCircuitClose, Recovery.recoveryIsIdle, busy, if_true, pure_eq,
    Prog.ret_bind, Bool.false_eq_true, if_false]
  refine (swept_answer .affirmCircuitClosed .proceeds fun _ fits => Prod.ext rfl fits.1.1).bind ?_
  rintro _ during ⟨rfl, asked⟩
  refine (swept_answer .replayIntegrityVerdict true fun _ fits => Prod.ext rfl fits.1.2.1).bind ?_
  rintro _ later ⟨rfl, verified⟩
  simp only [Bool.not_true, Bool.false_eq_true, if_false, Recovery.runPass]
  refine (swept_replayOnCircuitClose present enough known clear message.continuation later).bind ?_
  rintro result last ⟨concluded, swept⟩
  have soFar := (asked.trans verified).trans swept
  simp only [concluded.ran.1, concluded.ran.2, Bool.false_eq_true, Bool.false_and, if_false]
  exact swept_dispatch concluded (soFar.queued.trans empty)

theorem handed_kept
    (chain : ChainRuns selector settings within message before after) (handed : entry ∈ before.handed) :
    entry ∈ after.handed := by
  have pass : ∀ message, ∀ before : ChainWorld σ, entry ∈ before.handed →
      Swept selector within (conditionalReplayOnCircuitClose settings message) before
        fun _ after => entry ∈ after.handed := by
    intro message before handed
    refine ensures_invariant ?_ ?_ _ handed
    · rintro world _ handed ⟨moment, _, rfl⟩
      exact handed
    · intro call world handed
      cases call with
      | executeReplay => exact mem_append_left _ handed
      | _ => exact handed
  induction chain with
  | last run => exact pass _ _ handed _ _ run
  | more run another rest ih =>
    have middle := pass _ _ handed _ _ run
    exact ih middle

include present enough known in
theorem handed_of_silent (empty : before.queued = []) (clear : Clear (message.cursors.getD Table.empty) lane.key place)
    (chain : ChainRuns selector settings (StaysReplayable selector settings lane entry) message before after)
    (silent : after.stops = []) : entry ∈ after.handed := by
  induction chain with
  | last run ended =>
    rcases swept_pass present enough known clear empty _ _ run with ⟨next, queued, _⟩ | ⟨_, stopped | handed⟩
    · rw [ended] at queued
      cases queued
    · exact absurd silent stopped
    · exact handed
  | more run another rest ih =>
    rcases swept_pass present enough known clear empty _ _ run with ⟨next, queued, handed | ahead⟩ | ⟨none, _⟩
    · exact handed_kept rest (by exact handed)
    · rw [another] at queued
      cases queued
      exact ih rfl ahead silent
    · rw [another] at none
      cases none

/-- A chain whose last pass queues no other and announces no stop has handed over every entry that
was replayable in one of its lanes throughout. -/
theorem silent_chain_leaves_nothing (selector : Selector σ) (settings : ChainSettings)
    (enough : settings.lanes.lanes.length ≤ settings.maxItems) (lane : Lane)
    (present : lane ∈ settings.lanes.lanes) (entry : Entry) (moment : Moment σ)
    (replayable : StaysReplayable selector settings lane entry moment) (after : ChainWorld σ)
    (chain : ChainRuns selector settings (StaysReplayable selector settings lane entry) {} { moment := moment } after)
    (silent : after.stops = []) : entry ∈ after.handed := by
  obtain ⟨instant, created⟩ := Option.isSome_iff_exists.mp (selector.dated _ _ _ _ replayable.2)
  have known := (position_eq_some_iff entry _).mpr ⟨instant, created, rfl⟩
  refine handed_of_silent present enough known rfl ?_ chain silent
  intro low decoded
  cases decoded

end

def parkedPayment (id : String) (createdAt : Time) : Entry where
  id := id
  domain := "payments"
  failureType := "timeout"
  status := .pending
  createdAt := some createdAt

def paymentLane : Lane :=
  ⟨"timeout", some "payments", none⟩

def paymentIds : Finset String :=
  {"a", "b", "c"}

def paymentIteration : SetIteration :=
  .listing paymentIds ["c", "b", "a"] (by decide) fun item => by
    simp only [paymentIds, List.mem_cons, List.not_mem_nil, or_false, Finset.mem_insert, Finset.mem_singleton]
    tauto

def parkedPayments : Moment (MemoryStore × SetIteration) where
  store :=
    ({ storage := ⟨[parkedPayment "a" 1, parkedPayment "b" 2, parkedPayment "c" 3], by decide⟩
       indexByStatusDomain := fun _ _ => paymentIds },
      paymentIteration)
  replay := fun entry => ({ success := true, dlqId := entry.id }, false)

def paymentChain : ChainSettings where
  lanes := ⟨[paymentLane], by simp⟩
  maxItems := 2
  maxContinuations := 2
  maxReplays := 3

theorem payment_replayable :
    StaysReplayable memorySelector paymentChain paymentLane (parkedPayment "c" 3) parkedPayments := by
  refine ⟨⟨rfl, rfl, rfl, rfl⟩, ⟨rfl, rfl, ?_, rfl⟩⟩
  show "c" ∈ paymentIds
  decide

theorem moment_kept {σ : Type} {selector : Selector σ} {moment : Moment σ} (call : RecoveryCall)
    (world : ChainWorld σ) (same : world.moment = moment) :
    (exec selector call world).1.moment = moment := by
  cases call <;> exact same

theorem payment_pass (message : PassMessage) {world : ChainWorld (MemoryStore × SetIteration)}
    (same : world.moment = parkedPayments) :
    Runs (exec memorySelector) (Drifts (StaysReplayable memorySelector paymentChain paymentLane (parkedPayment "c" 3)))
      (conditionalReplayOnCircuitClose paymentChain message) world
      ((conditionalReplayOnCircuitClose paymentChain message).run (exec memorySelector) world).2
      ((conditionalReplayOnCircuitClose paymentChain message).run (exec memorySelector) world).1 := by
  have still : ∀ world : ChainWorld (MemoryStore × SetIteration), world.moment = parkedPayments →
      Drifts (StaysReplayable memorySelector paymentChain paymentLane (parkedPayment "c" 3)) world world := by
    intro world same
    exact ⟨parkedPayments, payment_replayable, by rw [← same]⟩
  exact runs_run_within (fun world => world.moment = parkedPayments) still moment_kept _ world same

def firstPaymentPass : ChainWorld (MemoryStore × SetIteration) :=
  ((Recovery.conditionalReplayOnCircuitClose paymentChain {}).run (ChainWorld.exec memorySelector)
    { moment := parkedPayments }).1

def secondPaymentPass : ChainWorld (MemoryStore × SetIteration) :=
  ((Recovery.conditionalReplayOnCircuitClose paymentChain (firstPaymentPass.queued.headD {})).run
    (ChainWorld.exec memorySelector) { firstPaymentPass with queued := [] }).1

theorem drained_chain_handed_last :
    ChainRuns memorySelector paymentChain
      (StaysReplayable memorySelector paymentChain paymentLane (parkedPayment "c" 3)) {}
      { moment := parkedPayments } secondPaymentPass ∧
    parkedPayment "c" 3 ∈ secondPaymentPass.handed := by
  have chain : ChainRuns memorySelector paymentChain
      (StaysReplayable memorySelector paymentChain paymentLane (parkedPayment "c" 3)) {}
      { moment := parkedPayments } secondPaymentPass := by
    have still : firstPaymentPass.moment = parkedPayments :=
      run_keeps (fun world : ChainWorld _ => world.moment = parkedPayments) moment_kept _ _ rfl
    refine .more (payment_pass {} rfl) ?_ (.last (payment_pass (firstPaymentPass.queued.headD {}) still) ?_)
    · have one : firstPaymentPass.queued.length = 1 := by decide +kernel
      obtain ⟨next, queued⟩ := length_eq_one_iff.mp one
      exact queued.trans (by rw [queued]; rfl)
    · have none : secondPaymentPass.queued.length = 0 := by decide +kernel
      exact length_eq_zero_iff.mp none
  refine ⟨chain, ?_⟩
  refine silent_chain_leaves_nothing memorySelector paymentChain (by decide) paymentLane (by decide)
    (parkedPayment "c" 3) parkedPayments payment_replayable secondPaymentPass chain ?_
  have none : secondPaymentPass.stops.length = 0 := by decide +kernel
  exact length_eq_zero_iff.mp none

end Baldur.Dlq
