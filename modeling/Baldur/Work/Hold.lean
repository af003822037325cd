import Baldur.Work.ScopeCore

/-!
One scope by itself: what it holds, what was added to it, what its own close answered and what its folds
handed to the callback.
-/

namespace Baldur.Work

open WorkScope

open List Option Table

structure Hold where
  scope : WorkScope
  ended : Nat → Option Bool
  added : List (Nat × Origin)
  returned : List (Option WorkSummary)
  handed : List WorkSummary

def unopened : WorkScope :=
  { origin := none, parent := none }

namespace Hold

inductive Move
  | stays
  | opens (origin : Origin) (parent : Option Nat)
  | ends (future : Nat) (failed : Bool)
  | adds (future : Nat) (origin : Origin)
  | folds (future : Nat)
  | closes
  | returns

open Move

variable (hold : Hold)

def after : Move → Hold
  | stays => hold
  | opens origin parent => { hold with scope := { origin, parent } }
  | ends future failed => { hold with ended := Function.update hold.ended future (some failed) }
  | adds future origin => { hold with
      scope := { hold.scope with running := hold.scope.running.put (future, origin) }
      added := (future, origin) :: hold.added }
  | folds future => { hold with
      scope := (hold.scope.fold future ((hold.ended future).getD false)).1
      handed := (hold.scope.fold future ((hold.ended future).getD false)).2.toList ++ hold.handed }
  | closes => { hold with scope := (hold.scope.close false).1 }
  | returns => { hold with scope := (hold.scope.close true).1, returned := [(hold.scope.close true).2] }

def Allowed : Move → Prop
  | opens _ _ => hold.scope = unopened ∧ hold.added = []
  | ends future _ => hold.ended future = none
  | adds _ _ => hold.scope.isSealed = false
  | folds future => (hold.ended future).isSome
  | returns => hold.returned = []
  | _ => True

/-- No close takes a kept callback away, and its own close does not find the scope sealed. -/
def CalmMove : Move → Prop
  | closes => hold.scope.onSettled = false
  | returns => hold.scope.isSealed = false
  | _ => True

/-- A future is not recorded again as foreign work while it is held as own work. -/
def IntactMove : Move → Prop
  | adds future origin => ∀ entry, hold.scope.running.find future = some entry →
      hold.scope.isOwn entry.2 = true → hold.scope.isOwn origin = true
  | _ => True

end Hold

namespace WorkScope

variable (scope : WorkScope) (origin : Origin) (failed : Bool)

@[simp] theorem note_eq : scope.note origin failed = { scope with
      ownFinished := scope.ownFinished || scope.isOwn origin
      ownFailed := scope.ownFailed || scope.isOwn origin && failed } := by
  unfold note
  split <;> simp_all

theorem isOwn_congr {first second : WorkScope} (same : first.origin = second.origin) :
    first.isOwn origin = second.isOwn origin := by
  simp only [isOwn, same]

def drop (entry : Nat × Origin) : WorkScope :=
  { scope with running := scope.running.erase entry.1 }.note entry.2 failed

variable (entry : Nat × Origin)

attribute [local simp] drop

@[simp] theorem drop_origin : (scope.drop failed entry).origin = scope.origin := by
  simp

@[simp] theorem drop_running : (scope.drop failed entry).running = scope.running.erase entry.1 := by
  simp

@[simp] theorem drop_closed : (scope.drop failed entry).closed = scope.closed := by
  simp

@[simp] theorem drop_isSealed : (scope.drop failed entry).isSealed = scope.isSealed := by
  simp

@[simp] theorem drop_onSettled : (scope.drop failed entry).onSettled = scope.onSettled := by
  simp

theorem drop_own : (scope.drop failed entry).ownFinished = (scope.ownFinished || scope.isOwn entry.2) ∧
    (scope.drop failed entry).ownFailed = (scope.ownFailed || scope.isOwn entry.2 && failed) := by
  simp [isOwn]

theorem fold_cases (future : Nat) :
    (scope.running.find future = none ∧ scope.fold future failed = (scope, none)) ∨
    ∃ entry, scope.running.find future = some entry ∧ entry.1 = future ∧
      ((¬(scope.closed = true ∧ (scope.running.erase future).entries = [] ∧ scope.isSealed = false) ∧
          scope.fold future failed = (scope.drop failed entry, none)) ∨
        (scope.closed = true ∧ (scope.running.erase future).entries = [] ∧ scope.isSealed = false ∧
          scope.fold future failed =
            ({ scope.drop failed entry with isSealed := true, onSettled := false },
              if scope.onSettled then some (scope.drop failed entry).summary else none))) := by
  cases found : scope.running.find future with
  | none => exact .inl ⟨rfl, by simp [fold, found]⟩
  | some entry =>
    have named : entry.1 = future := key_of_find found
    refine .inr ⟨entry, rfl, named, ?_⟩
    have folded : scope.fold future failed = (scope.drop failed entry).settleIfEmpty := by
      simp [fold, found, named]
    by_cases last : scope.closed = true ∧ (scope.running.erase future).entries = [] ∧ scope.isSealed = false
    · refine .inr ⟨last.1, last.2.1, last.2.2, ?_⟩
      rw [folded, settleIfEmpty]
      simp [named, last]
    · refine .inl ⟨last, ?_⟩
      rw [folded, settleIfEmpty, if_neg]
      simpa [named, and_assoc] using last

theorem close_cases (callback : Bool) :
    (scope.isSealed = true ∧ scope.close callback = ({ scope with closed := true }, none)) ∨
    (scope.isSealed = false ∧ scope.running.entries = [] ∧
      scope.close callback = ({ scope with closed := true, isSealed := true }, some scope.summary)) ∨
    (scope.isSealed = false ∧ scope.running.entries ≠ [] ∧
      scope.close callback = ({ scope with closed := true, onSettled := callback }, none)) := by
  cases sealedNow : scope.isSealed with
  | true => exact .inl ⟨rfl, by simp [close, sealedNow]⟩
  | false =>
    by_cases idle : scope.running.entries = []
    · exact .inr (Or.inl ⟨rfl, idle, by simp [close, sealedNow, idle]⟩)
    · exact .inr (Or.inr ⟨rfl, idle, by simp [close, sealedNow, idle]⟩)

end WorkScope

namespace Hold

open Move

variable {scope : WorkScope} {returned : List (Option WorkSummary)}

/-- A callback is kept only by the scope's own close, and handed to at most one fold. -/
structure Books (hold : Hold) : Prop where
  idle : hold.scope.isSealed = true → hold.scope.running.entries = [] ∧ hold.scope.onSettled = false
  holding : hold.scope.closed = true → hold.scope.isSealed = false → hold.scope.running.entries ≠ []
  kept : hold.scope.onSettled = true → hold.scope.closed = true ∧ hold.returned = [none] ∧ hold.handed = []
  once : hold.returned.length ≤ 1
  handed : hold.handed = [] ∨ hold.scope.isSealed = true ∧ hold.returned = [none] ∧ hold.handed = [hold.scope.summary]
  atOnce : ∀ summary, hold.returned = [some summary] → hold.scope.isSealed = true ∧ summary = hold.scope.summary

variable {hold : Hold} {move : Move}

section

variable (books : Books hold)

include books

theorem unhanded_of_unsealed (unsealed : hold.scope.isSealed = false) : hold.handed = [] := by
  rcases books.handed with none | ⟨sealedNow, _⟩
  · exact none
  · simp [unsealed] at sealedNow

theorem unhanded_of_first (first : hold.returned = []) : hold.handed = [] := by
  rcases books.handed with none | ⟨_, returned, _⟩
  · exact none
  · simp [first] at returned

theorem unreturned_of_unsealed (unsealed : hold.scope.isSealed = false)
    (summary : WorkSummary) : hold.returned ≠ [some summary] := by
  intro returned
  have sealedNow := (books.atOnce summary returned).1
  simp [unsealed] at sealedNow

theorem unkept_of_idle (unsealed : hold.scope.isSealed = false)
    (idle : hold.scope.running.entries = []) : hold.scope.onSettled = false := by
  by_contra kept
  exact books.holding (books.kept (by simpa using kept)).1 unsealed idle

end

variable {future : Nat}

section

variable (books : Books hold)

include books

theorem unsealed_of_found {entry : Nat × Origin}
    (found : hold.scope.running.find future = some entry) : hold.scope.isSealed = false := by
  by_contra sealedNow
  have none := (books.idle (by simpa using sealedNow)).1
  simp [find, none] at found

theorem books_folds (future : Nat) : Books (hold.after (folds future)) := by
  simp only [after]
  rcases hold.scope.fold_cases ((hold.ended future).getD false) future with
    ⟨_, folded⟩ | ⟨entry, found, named, ⟨running, folded⟩ | ⟨closed, last, unsealed, folded⟩⟩
  · rw [folded]
    exact books
  · have unsealed := unsealed_of_found books found
    have unhanded := unhanded_of_unsealed books unsealed
    rw [folded]
    refine ⟨?_, ?_, ?_, books.once, Or.inl unhanded, ?_⟩
    · intro sealedNow
      simp [unsealed] at sealedNow
    · intro closed _ none
      simp only [drop_closed, drop_running, named] at closed none
      exact running ⟨closed, none, unsealed⟩
    · intro kept
      simp only [drop_onSettled] at kept
      simpa using books.kept kept
    · intro summary returned
      exact absurd returned (unreturned_of_unsealed books unsealed summary)
  · have unhanded := unhanded_of_unsealed books unsealed
    rw [folded]
    refine ⟨?_, ?_, ?_, books.once, ?_, ?_⟩
    · intro _
      simpa [named] using last
    · intro _ open'
      simp at open'
    · intro kept
      simp at kept
    · cases keeps : hold.scope.onSettled with
      | false => exact .inl (by simp [unhanded])
      | true => exact .inr ⟨rfl, (books.kept keeps).2.1, by simp [unhanded, summary]⟩
    · intro summary returned
      exact absurd returned (unreturned_of_unsealed books unsealed summary)

theorem books_closes : Books (hold.after closes) := by
  simp only [after]
  rcases hold.scope.close_cases false with ⟨sealedNow, closed⟩ | ⟨unsealed, idle, closed⟩ | ⟨unsealed, busy, closed⟩
  · rw [closed]
    refine { books with holding := ?_, kept := ?_ }
    · intro _ unsealed
      simp [sealedNow] at unsealed
    · intro kept
      simp [(books.idle sealedNow).2] at kept
  · rw [closed]
    have unkept := unkept_of_idle books unsealed idle
    have unhanded := unhanded_of_unsealed books unsealed
    refine ⟨fun _ => ⟨idle, unkept⟩, ?_, ?_, books.once, Or.inl unhanded, ?_⟩
    · intro _ open'
      simp at open'
    · intro kept
      simp [unkept] at kept
    · intro summary returned
      exact absurd returned (unreturned_of_unsealed books unsealed summary)
  · rw [closed]
    have unhanded := unhanded_of_unsealed books unsealed
    refine ⟨?_, fun _ _ => busy, ?_, books.once, Or.inl unhanded, ?_⟩
    · intro sealedNow
      simp [unsealed] at sealedNow
    · intro kept
      simp at kept
    · intro summary returned
      exact absurd returned (unreturned_of_unsealed books unsealed summary)

theorem books_returns (first : hold.returned = []) : Books (hold.after returns) := by
  simp only [after]
  have unhanded := unhanded_of_first books first
  rcases hold.scope.close_cases true with ⟨sealedNow, closed⟩ | ⟨unsealed, idle, closed⟩ | ⟨unsealed, busy, closed⟩
  · rw [closed]
    refine ⟨books.idle, ?_, ?_, by simp, Or.inl unhanded, by simp⟩
    · intro _ unsealed
      simp [sealedNow] at unsealed
    · intro kept
      simp [(books.idle sealedNow).2] at kept
  · rw [closed]
    have unkept := unkept_of_idle books unsealed idle
    refine ⟨fun _ => ⟨idle, unkept⟩, ?_, ?_, by simp, Or.inl unhanded, ?_⟩
    · intro _ open'
      simp at open'
    · intro kept
      simp [unkept] at kept
    · intro summary returned
      simp only [cons.injEq, some.injEq, and_true] at returned
      exact ⟨rfl, returned.symm⟩
  · rw [closed]
    refine ⟨?_, fun _ _ => busy, fun _ => ⟨rfl, rfl, unhanded⟩, by simp, Or.inl unhanded, by simp⟩
    intro sealedNow
    simp [unsealed] at sealedNow

end

attribute [local simp] after drop_own

theorem Books.step (books : Books hold) (allowed : hold.Allowed move) : Books (hold.after move) := by
  cases move with
  | stays => exact books
  | opens =>
    obtain ⟨idle, holding, kept, once, handed, atOnce⟩ := books
    rw [allowed.1] at idle holding kept handed atOnce
    exact ⟨idle, holding, kept, once, handed, atOnce⟩
  | ends =>
    exact { books with }
  | adds =>
    have unsealed : hold.scope.isSealed = false := allowed
    refine { books with idle := ?_, holding := fun _ _ => entries_put_ne_nil _ _ }
    intro sealedNow
    simp [unsealed] at sealedNow
  | folds future => exact books_folds books future
  | closes => exact books_closes books
  | returns => exact books_returns books allowed

def Kept (hold : Hold) : Prop :=
  hold.returned = [none] → hold.scope.onSettled = true ∨ hold.handed ≠ []

def Lost (hold : Hold) : Prop :=
  hold.returned = [none] ∧ hold.handed = [] ∧ hold.scope.onSettled = false

theorem onSettled_folds (hold : Hold) (future : Nat) :
    ((hold.after (folds future)).scope.onSettled = hold.scope.onSettled ∧
        (hold.after (folds future)).handed = hold.handed) ∨
      ((hold.after (folds future)).scope.onSettled = false ∧
        ((hold.after (folds future)).handed = hold.handed ↔ hold.scope.onSettled = false)) := by
  simp only [after]
  rcases hold.scope.fold_cases ((hold.ended future).getD false) future with
    ⟨_, folded⟩ | ⟨entry, found, named, ⟨running, folded⟩ | ⟨closed, last, unsealed, folded⟩⟩
  · exact .inl (by simp [folded])
  · exact .inl (by simp [folded])
  · refine .inr ?_
    rw [folded]
    cases keeps : hold.scope.onSettled <;> simp

theorem Kept.step (books : Books hold) (kept : Kept hold) (allowed : hold.Allowed move)
    (calm : hold.CalmMove move) : Kept (hold.after move) := by
  cases move with
  | opens =>
    intro returned
    have still := kept returned
    rwa [allowed.1] at still
  | folds future =>
    intro returned
    rcases kept returned with still | handed
    · rcases onSettled_folds hold future with ⟨same, _⟩ | ⟨_, unhanded⟩
      · exact .inl (same.trans still)
      · refine .inr fun none => ?_
        have before := (books.kept still).2.2
        simp [unhanded.mp (none.trans before.symm)] at still
    · refine .inr fun none => handed ?_
      exact (append_eq_nil_iff.mp none).2
  | closes =>
    intro returned
    rcases kept returned with still | handed
    · have unkept : hold.scope.onSettled = false := calm
      simp [unkept] at still
    · exact .inr handed
  | returns =>
    intro returned
    have unsealed : hold.scope.isSealed = false := calm
    rcases hold.scope.close_cases true with ⟨sealedNow, _⟩ | ⟨_, idle, closed⟩ | ⟨_, busy, closed⟩
    · simp [unsealed] at sealedNow
    · simp [closed] at returned
    · exact .inl (by simp [closed])
  | _ => exact kept

theorem Lost.step (lost : Lost hold) (allowed : hold.Allowed move) : Lost (hold.after move) := by
  obtain ⟨returned, unhanded, unkept⟩ := lost
  cases move with
  | opens => exact ⟨returned, unhanded, rfl⟩
  | folds future =>
    rcases onSettled_folds hold future with ⟨same, handed⟩ | ⟨off, handed⟩
    · exact ⟨returned, handed.trans unhanded, same.trans unkept⟩
    · exact ⟨returned, (handed.mpr unkept).trans unhanded, off⟩
  | closes =>
    refine ⟨returned, unhanded, ?_⟩
    rcases hold.scope.close_cases false with ⟨_, closed⟩ | ⟨_, _, closed⟩ | ⟨_, _, closed⟩ <;>
      simp [closed, unkept]
  | returns =>
    have first : hold.returned = [] := allowed
    simp [first] at returned
  | _ => exact ⟨returned, unhanded, unkept⟩

theorem lost_of_not_calm (books : Books hold) (allowed : hold.Allowed move)
    (uncalm : ¬hold.CalmMove move) : Lost (hold.after move) := by
  cases move with
  | closes =>
    have keeps : hold.scope.onSettled = true := by simpa [CalmMove] using uncalm
    obtain ⟨closedNow, returned, unhanded⟩ := books.kept keeps
    refine ⟨returned, unhanded, ?_⟩
    rcases hold.scope.close_cases false with ⟨sealedNow, _⟩ | ⟨unsealed, idle, _⟩ | ⟨_, _, closed⟩
    · simp [(books.idle sealedNow).2] at keeps
    · exact absurd idle (books.holding closedNow unsealed)
    · simp [closed]
  | returns =>
    have sealedNow : hold.scope.isSealed = true := by simpa [CalmMove] using uncalm
    have unhanded := unhanded_of_first books allowed
    refine ⟨?_, unhanded, ?_⟩ <;> simp [close, sealedNow, (books.idle sealedNow).2]
  | _ => exact absurd trivial uncalm

structure Pieces (hold : Hold) : Prop where
  listed : ∀ entry ∈ hold.scope.running.entries, entry ∈ hold.added
  accounted : ∀ piece ∈ hold.added, (hold.scope.running.find piece.1).isSome ∨ (hold.ended piece.1).isSome
  finished : hold.scope.ownFinished = true → ∃ piece ∈ hold.added, hold.scope.isOwn piece.2 = true
  failed : hold.scope.ownFailed = true →
    ∃ piece ∈ hold.added, hold.scope.isOwn piece.2 = true ∧ hold.ended piece.1 = some true

def Noted (hold : Hold) : Prop :=
  ∀ piece ∈ hold.added, hold.scope.isOwn piece.2 = true →
    (∃ entry, hold.scope.running.find piece.1 = some entry ∧ hold.scope.isOwn entry.2 = true) ∨
      (hold.scope.ownFinished = true ∧
        ∃ failed, hold.ended piece.1 = some failed ∧ (failed = true → hold.scope.ownFailed = true))

theorem folds_cases (hold : Hold) (future : Nat) :
    (hold.scope.running.find future = none ∧ hold.after (folds future) = hold) ∨
      ∃ entry, hold.scope.running.find future = some entry ∧ entry.1 = future ∧
        (hold.after (folds future)).scope.origin = hold.scope.origin ∧
        (hold.after (folds future)).scope.running = hold.scope.running.erase future ∧
        (hold.after (folds future)).scope.ownFinished = (hold.scope.ownFinished || hold.scope.isOwn entry.2) ∧
        (hold.after (folds future)).scope.ownFailed =
          (hold.scope.ownFailed || hold.scope.isOwn entry.2 && (hold.ended future).getD false) := by
  simp only [after]
  rcases hold.scope.fold_cases ((hold.ended future).getD false) future with
    ⟨absent, folded⟩ | ⟨entry, found, named, ⟨_, folded⟩ | ⟨_, _, _, folded⟩⟩
  · exact .inl ⟨absent, by simp [folded]⟩
  · refine .inr ⟨entry, found, named, ?_⟩
    simp [folded, named]
  · refine .inr ⟨entry, found, named, ?_⟩
    simp [folded, named]

theorem close_keeps (scope : WorkScope) (callback : Bool) :
    (scope.close callback).1.origin = scope.origin ∧ (scope.close callback).1.running = scope.running ∧
      (scope.close callback).1.ownFinished = scope.ownFinished ∧
      (scope.close callback).1.ownFailed = scope.ownFailed := by
  rcases scope.close_cases callback with ⟨_, closed⟩ | ⟨_, _, closed⟩ | ⟨_, _, closed⟩ <;> simp [closed]

theorem Pieces.of_same (pieces : Pieces hold)
    (same : scope.origin = hold.scope.origin ∧ scope.running = hold.scope.running ∧
      scope.ownFinished = hold.scope.ownFinished ∧ scope.ownFailed = hold.scope.ownFailed) :
    Pieces { hold with scope, returned } := by
  obtain ⟨origin, running, finished, failed⟩ := same
  have own (other : Origin) : scope.isOwn other = hold.scope.isOwn other := isOwn_congr other origin
  refine ⟨?_, ?_, ?_, ?_⟩
  · simpa only [running] using pieces.listed
  · simpa only [running] using pieces.accounted
  · simpa only [finished, own] using pieces.finished
  · simpa only [failed, own] using pieces.failed

theorem ended_update {failed : Bool} (runs : hold.ended future = none) {other : Nat} {outcome : Bool}
    (known : hold.ended other = some outcome) :
    Function.update hold.ended future (some failed) other = some outcome := by
  have apart : other ≠ future := by
    rintro rfl
    simp [runs] at known
  rw [Function.update_of_ne apart, known]

theorem pieces_adds (pieces : Pieces hold) (future : Nat) (origin : Origin) :
    Pieces (hold.after (adds future origin)) := by
  refine ⟨?_, ?_, ?_, ?_⟩
  · intro entry member
    have found := (mem_entries_iff _ entry).mp member
    simp only [after, find_put] at found
    split at found
    · exact mem_cons.mpr (Or.inl (some.inj found).symm)
    · exact mem_cons_of_mem _ (pieces.listed entry ((mem_entries_iff _ entry).mpr found))
  · intro piece member
    by_cases same : future = piece.1
    · exact .inl (by simp [same])
    · rcases mem_cons.mp member with rfl | earlier
      · exact absurd rfl same
      · simpa [find_put, same] using pieces.accounted piece earlier
  · intro finished
    obtain ⟨piece, member, own⟩ := pieces.finished finished
    exact ⟨piece, mem_cons_of_mem _ member, own⟩
  · intro failed
    obtain ⟨piece, member, own⟩ := pieces.failed failed
    exact ⟨piece, mem_cons_of_mem _ member, own⟩

theorem pieces_folds (pieces : Pieces hold) (known : (hold.ended future).isSome) :
    Pieces (hold.after (folds future)) := by
  rcases folds_cases hold future with ⟨_, same⟩ | ⟨entry, found, named, origin, running, finished, failed⟩
  · rw [same]
    exact pieces
  have own (other : Origin) := isOwn_congr other origin
  have entryAdded : entry ∈ hold.added := by
    refine pieces.listed entry ((Table.mem_entries_iff _ entry).mpr ?_)
    rwa [named]
  refine ⟨?_, ?_, ?_, ?_⟩
  · intro other member
    rw [running] at member
    exact pieces.listed other (List.mem_of_mem_filter member)
  · intro piece member
    rw [running, Table.find_erase]
    by_cases same : future = piece.1
    · exact .inr (same ▸ known)
    · rw [if_neg same]
      exact pieces.accounted piece member
  · rw [finished]
    simp only [own, Bool.or_eq_true]
    rintro (earlier | ownEntry)
    · exact pieces.finished earlier
    · exact ⟨entry, entryAdded, ownEntry⟩
  · rw [failed]
    simp only [own, Bool.or_eq_true, Bool.and_eq_true]
    rintro (earlier | ⟨ownEntry, failedNow⟩)
    · exact pieces.failed earlier
    · obtain ⟨outcome, ended⟩ := Option.isSome_iff_exists.mp known
      rw [ended, Option.getD_some] at failedNow
      refine ⟨entry, entryAdded, ownEntry, ?_⟩
      rw [named]
      exact ended.trans (congrArg some failedNow)

theorem Pieces.step (pieces : Pieces hold) (allowed : hold.Allowed move) : Pieces (hold.after move) := by
  cases move with
  | stays => exact pieces
  | opens =>
    have none : hold.added = [] := allowed.2
    refine ⟨?_, ?_, ?_, ?_⟩ <;> simp [none, empty]
  | ends future failed =>
    have runs : hold.ended future = none := allowed
    refine ⟨pieces.listed, ?_, pieces.finished, ?_⟩
    · intro piece member
      refine (pieces.accounted piece member).imp_right fun known => ?_
      obtain ⟨outcome, known⟩ := isSome_iff_exists.mp known
      exact isSome_iff_exists.mpr ⟨outcome, ended_update runs known⟩
    · intro marked
      obtain ⟨piece, member, own, known⟩ := pieces.failed marked
      exact ⟨piece, member, own, ended_update runs known⟩
  | adds future origin => exact pieces_adds pieces future origin
  | folds => exact pieces_folds pieces allowed
  | closes => exact pieces.of_same (close_keeps hold.scope false)
  | returns => exact pieces.of_same (close_keeps hold.scope true)

section

variable (noted : Noted hold)

include noted

theorem Noted.of_same (same : scope.origin = hold.scope.origin ∧ scope.running = hold.scope.running ∧
      scope.ownFinished = hold.scope.ownFinished ∧ scope.ownFailed = hold.scope.ownFailed) :
    Noted { hold with scope, returned } := by
  obtain ⟨origin, running, finished, failed⟩ := same
  have own (other : Origin) : scope.isOwn other = hold.scope.isOwn other := isOwn_congr other origin
  simpa only [Noted, own, running, finished, failed] using noted

theorem noted_adds {origin : Origin} (intact : hold.IntactMove (adds future origin)) :
    Noted (hold.after (adds future origin)) := by
  intro piece member own
  have owned (other : Origin) : (hold.after (adds future origin)).scope.isOwn other = hold.scope.isOwn other :=
    isOwn_congr other rfl
  simp only [owned] at own ⊢
  rcases mem_cons.mp member with rfl | earlier
  · exact .inl ⟨(future, origin), find_put_self _ _, own⟩
  · rcases noted piece earlier own with ⟨entry, found, ownEntry⟩ | done
    · by_cases same : future = piece.1
      · subst same
        exact .inl ⟨(piece.1, origin), find_put_self _ _, intact entry found ownEntry⟩
      · refine .inl ⟨entry, ?_, ownEntry⟩
        simpa [find_put, same] using found
    · exact .inr done

theorem noted_folds (known : (hold.ended future).isSome) : Noted (hold.after (folds future)) := by
  rcases folds_cases hold future with ⟨_, same⟩ | ⟨entry, found, named, origin, running, finished, failed⟩
  · rw [same]
    exact noted
  intro piece member own
  simp only [isOwn_congr _ origin, running, finished, failed] at own ⊢
  rcases noted piece member own with ⟨held, there, ownHeld⟩ | ⟨done, outcome, ended, noticed⟩
  · by_cases same : future = piece.1
    · -- The piece that ended: its outcome is noted with it.
      subst same
      obtain rfl : held = entry := Option.mem_unique there found
      obtain ⟨outcome, ended⟩ := Option.isSome_iff_exists.mp known
      have outcomeNoted : (hold.ended piece.1).getD false = outcome := by simp [ended]
      refine .inr ⟨by simp [ownHeld], outcome, ended, fun bad => ?_⟩
      simp [ownHeld, outcomeNoted, bad]
    · refine .inl ⟨held, ?_, ownHeld⟩
      rw [Table.find_erase, if_neg same, there]
  · refine .inr ⟨by simp [done], outcome, ended, fun bad => ?_⟩
    simp [noticed bad]

theorem Noted.step (allowed : hold.Allowed move) (intact : hold.IntactMove move) : Noted (hold.after move) := by
  cases move with
  | stays => exact noted
  | opens =>
    have none : hold.added = [] := allowed.2
    simp [Noted, none]
  | ends =>
    intro piece member own
    refine (noted piece member own).imp_right ?_
    rintro ⟨done, outcome, ended, noticed⟩
    exact ⟨done, outcome, ended_update allowed ended, noticed⟩
  | adds => exact noted_adds noted intact
  | folds => exact noted_folds noted allowed
  | closes => exact noted.of_same (close_keeps hold.scope false)
  | returns => exact noted.of_same (close_keeps hold.scope true)

end

def Tells (hold : Hold) (summary : WorkSummary) : Prop :=
  (summary.ownFinished = true ↔ ∃ piece ∈ hold.added, hold.scope.isOwn piece.2 = true) ∧
    (summary.ownFailed = true ↔ ∃ piece ∈ hold.added, hold.scope.isOwn piece.2 = true ∧ hold.ended piece.1 = some true)

theorem tells_of_idle (pieces : Pieces hold) (noted : Noted hold)
    (idle : hold.scope.running.entries = []) : hold.Tells hold.scope.summary := by
  have done (piece : Nat × Origin) (member : piece ∈ hold.added) (own : hold.scope.isOwn piece.2 = true) :
      hold.scope.ownFinished = true ∧
        ∃ failed, hold.ended piece.1 = some failed ∧ (failed = true → hold.scope.ownFailed = true) := by
    rcases noted piece member own with ⟨entry, found, _⟩ | done
    · simp [find, idle] at found
    · exact done
  constructor
  · constructor
    · exact pieces.finished
    · rintro ⟨piece, member, own⟩
      exact (done piece member own).1
  · constructor
    · exact pieces.failed
    · rintro ⟨piece, member, own, ended⟩
      obtain ⟨_, failed, known, noticed⟩ := done piece member own
      exact noticed (mem_unique known ended)

end Hold

end Baldur.Work
