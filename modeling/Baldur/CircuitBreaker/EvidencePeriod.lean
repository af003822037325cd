import Baldur.CircuitBreaker.SystemCore

/-!
The evidence of a CLOSED period. A ledger counts the re-entries into CLOSED and the clears of the ring, and
keeps the outcomes appended since. Between the closing write and the closer's report a clear is owed.
-/

namespace Baldur.CircuitBreaker

open CircuitBreakerStateData

open Prog World Pool Service List

variable {call : RepoCall} {name : String} {windowSize : Int}

namespace ServiceCall

def reenters (name : String) : (call : ServiceCall) → call.Answer → Bool
  | .repo (.recordSuccessWithCloseCheck other _), attempt => other = name && attempt.didClose
  | _, _ => false

def clearsRing (name : String) : (call : ServiceCall) → call.Answer → Bool
  | .window (.observeState other _ _), cleared => other = name && cleared
  | .window (.clear other), _ => other = name
  | _, _ => false

def appended (name : String) : (call : ServiceCall) → call.Answer → Option Outcome
  | .window (.recordSuccessIfEpoch other _ _ _), accepted =>
      if other = name ∧ accepted = true then some .success else none
  | .window (.recordFailure other _), _ => if other = name then some .failure else none
  | .window (.recordRejection other _), _ => if other = name then some .failure else none
  | _, _ => none

end ServiceCall

structure EvidenceLedger where
  reentries : Nat := 0
  clears : Nat := 0
  since : List Outcome := []

namespace EvidenceLedger

def record (name : String) (event : ServiceEvent) (ledger : EvidenceLedger) : EvidenceLedger where
  reentries := ledger.reentries + (event.call.reenters name event.answer).toNat
  clears := ledger.clears + (event.call.clearsRing name event.answer).toNat
  since :=
    if event.call.reenters name event.answer then []
    else ledger.since ++ (event.call.appended name event.answer).toList

def ofTrace (name : String) : List ServiceEvent → EvidenceLedger
  | [] => {}
  | event :: earlier => (ofTrace name earlier).record name event

end EvidenceLedger

def ClosedNow (name : String) (world : World) : Prop :=
  ∀ row ∈ world.storage.find name, row.state = .closed

instance (name : String) (world : World) : Decidable (ClosedNow name world) :=
  inferInstanceAs (Decidable (∀ row ∈ world.storage.find name, row.state = .closed))

def SeenOut (name : String) (world : World) : Prop :=
  world.window.lastSeen name ≠ none ∧ world.window.lastSeen name ≠ some .closed

instance (name : String) (world : World) : Decidable (SeenOut name world) :=
  inferInstanceAs (Decidable (_ ∧ _))

def ClearOwed (name : String) (world : World) : Prop :=
  ClosedNow name world ∧ SeenOut name world

instance (name : String) (world : World) : Decidable (ClearOwed name world) :=
  inferInstanceAs (Decidable (_ ∧ _))

namespace RepoCall

def isAutomatic : RepoCall → Bool
  | .getOrCreate _ => true
  | .getAllStates => true
  | .updateState _ update => update.state = .closed && update.keepOpen
  | .recordFailure _ => true
  | .recordSuccessWithCloseCheck _ _ => true
  | .recordFailureWithOpenCheck _ => true
  | .tripToOpen _ _ => true
  | .tryAcquireHalfOpenSlot _ _ _ => true
  | _ => false

end RepoCall

def evidencePermits (name : String) (windowSize : Int) : ServiceCall → Prop
  | .repo call => call.target = some name → call.isAutomatic = true
  | .window (.clear other) => other ≠ name
  | .window (.recordSuccessIfEpoch other size _ _) => other = name → size = windowSize
  | .window (.recordFailure other size) => other = name → size = windowSize
  | .window (.recordRejection other size) => other = name → size = windowSize
  | _ => True

def evidenceDiscipline (name : String) (windowSize : Int) : Discipline ServiceCall ServiceCall.Answer Bool where
  may owes call := (owes = true → call = .window (.observeState name .closed none)) ∧
    evidencePermits name windowSize call
  valid _
    | .repo (.tripToOpen other _), attempt => other = name → attempt.state ≠ .pinned
    | .repo (.recordSuccessWithCloseCheck other _), attempt =>
        other = name → attempt.didClose = true → attempt.state = .stored .closed
    | _, _ => True
  after owes
    | .repo (.recordSuccessWithCloseCheck other _), attempt =>
        if other = name ∧ attempt.didClose = true then true else owes
    | .window (.observeState other state asOf), _ =>
        if other = name ∧ state = .closed ∧ asOf = none then false else owes
    | _, _ => owes

abbrev Service.Sizes (service : Service) (other name : String) (windowSize : Int) : Prop :=
  other = name → (service.effectiveConfig other).slidingWindowSize = windowSize

section

variable {name : String} {windowSize : Int} (service : Service) (other : String)

abbrev ReportsAll (name : String) (windowSize : Int) {α : Type} (program : ServiceProg α) : Prop :=
  Prog.Keeps (evidenceDiscipline name windowSize) (fun owes => owes = false) program

theorem reports_call {call : ServiceCall} (permits : evidencePermits name windowSize call)
    (settled : ∀ answer, (evidenceDiscipline name windowSize).after false call answer = false) :
    ReportsAll name windowSize (perform call) := by
  refine keeps_perform ?_ ?_
  · rintro _ rfl
    exact ⟨by simp, permits⟩
  · rintro _ answer rfl _
    exact settled answer

theorem reports_now : ReportsAll name windowSize now := by
  exact reports_call trivial fun _ => rfl

variable (row : Row)

theorem reports_isManualPinActive : ReportsAll name windowSize (isManualPinActive row) := by
  exact reports_now.discard

theorem reports_autoTransitionAllowed (state : CircuitState) :
    ReportsAll name windowSize (autoTransitionAllowed other state) := by
  exact reports_call trivial fun _ => rfl

attribute [local simp] evidenceDiscipline

theorem reports_window {call : WindowCall} (permits : evidencePermits name windowSize (.window call)) :
    ReportsAll name windowSize (window call) := by
  refine reports_call permits fun answer => ?_
  cases call with
  | observeState => simp
  | _ => rfl

theorem reports_repo (automatic : call.isAutomatic = true)
    (unclosing : ∀ other threshold, call ≠ .recordSuccessWithCloseCheck other threshold) :
    ReportsAll name windowSize (repo call) := by
  refine reports_call (fun _ => automatic) fun answer => ?_
  cases call with
  | recordSuccessWithCloseCheck other threshold => exact absurd rfl (unclosing other threshold)
  | _ => rfl

theorem reports_readObserved : ReportsAll name windowSize (readObserved other) := by
  refine keeps_bind (reports_window trivial) fun epoch => ?_
  refine keeps_bind (reports_repo rfl (by simp)) fun row => ?_
  exact .discard (reports_window trivial)

variable (sized : service.Sizes other name windowSize)

include sized in
theorem reports_recordRejection : ReportsAll name windowSize (service.recordRejection other row) := by
  refine keeps_bind (reports_isManualPinActive row) fun pinned => ?_
  exact keeps_unless (reports_window sized)

theorem reports_openRowRefuses (recoveryTimeout : Int) :
    ReportsAll name windowSize (openRowRefuses row recoveryTimeout) := by
  refine keeps_when (keeps_bind reports_now fun _ => ?_)
  refine keeps_unless (keeps_bind reports_now fun _ => ?_)
  refine keeps_unless ?_
  cases row.openedAt with
  | none => exact keeps_ret _
  | some => exact reports_now.discard

theorem reports_admissionRefusalReason : ReportsAll name windowSize (service.admissionRefusalReason other row) := by
  refine keeps_bind (reports_openRowRefuses row _) fun refused => ?_
  refine keeps_unless ?_
  refine keeps_bind (reports_autoTransitionAllowed other _) fun allowed => ?_
  exact keeps_unless (keeps_ret _)

include sized in
theorem reports_acquireTrial : ReportsAll name windowSize (service.acquireTrial other row) := by
  refine keeps_bind (reports_repo rfl (by simp)) fun attempt => ?_
  refine keeps_bind (reports_window trivial) fun _ => keeps_when ?_
  exact (reports_recordRejection service other _ sized).discard

include sized in
theorem reports_shouldAllowWithState : ReportsAll name windowSize (service.shouldAllowWithState other) := by
  have plain : ∀ allowed, ReportsAll name windowSize (do
      let row ← repo (.getOrCreate other)
      return ({ allowed := allowed, state := row } : CircuitBreakerDecision)) := by
    intro allowed
    exact (reports_repo rfl (by simp)).discard
  refine keeps_ite _ (keeps_ite _ ?_ (plain false)) (plain true)
  refine keeps_bind (reports_readObserved other) fun found => ?_
  refine keeps_unless ?_
  refine keeps_bind (reports_admissionRefusalReason service other _) fun reason => ?_
  cases reason with
  | none => exact reports_acquireTrial service other _ sized
  | some =>
    refine keeps_bind (reports_recordRejection service other _ sized) fun _ => ?_
    exact keeps_ret _

theorem reports_tripCircuitOpen : ReportsAll name windowSize (tripCircuitOpen other row) := by
  rintro _ rfl
  simp only [tripCircuitOpen, repo, perform, obeys_bind, obeys_call, obeys_ret]
  refine ⟨⟨by simp, fun _ => rfl⟩, fun attempt valid => ?_⟩
  cases seen : attempt.state with
  | pinned =>
    have elsewhere : other ≠ name := fun same => valid same seen
    refine keeps_bind ?_ (fun _ => keeps_ret _) false rfl
    exact reports_window elsewhere
  | stored =>
    refine keeps_bind ?_ (fun _ => keeps_ret _) false rfl
    exact reports_window trivial
  | missing => rfl

theorem reports_failTrial : ReportsAll name windowSize (failTrial other) := by
  refine keeps_bind (reports_autoTransitionAllowed other _) fun allowed => ?_
  refine keeps_when ?_
  refine keeps_bind (reports_repo rfl (by simp)) fun attempt => ?_
  cases attempt.state with
  | stored => exact .discard (reports_window trivial)
  | missing | pinned => exact keeps_ret _

include sized in
theorem reports_countFailure : ReportsAll name windowSize (service.countFailure other) := by
  refine keeps_bind (reports_window trivial) fun _ => ?_
  refine keeps_bind (reports_repo rfl (by simp)) fun updated => ?_
  refine keeps_bind (reports_window trivial) fun _ => ?_
  refine keeps_bind (reports_window trivial) fun _ => keeps_ite _ ?_ ?_
  · refine keeps_bind (reports_window sized) fun _ => ?_
    refine keeps_bind (reports_window trivial) fun evidence => ?_
    refine keeps_when ?_
    refine keeps_bind (reports_autoTransitionAllowed other _) fun allowed => ?_
    refine keeps_when ?_
    exact (reports_tripCircuitOpen other updated).discard
  · exact .discard (reports_window trivial)

include sized in
theorem reports_recordFailure : ReportsAll name windowSize (service.recordFailure other) := by
  refine keeps_when ?_
  refine keeps_bind (reports_readObserved other) fun found => ?_
  refine keeps_bind (reports_isManualPinActive _) fun pinned => ?_
  refine keeps_unless ?_
  exact keeps_ite _ (reports_failTrial other) (reports_countFailure service other sized)

variable (hintState : Option Row)

include sized in
theorem reports_recordSuccessByHint (hintEpoch : Option Nat) :
    ReportsAll name windowSize (service.recordSuccessByHint other hintState hintEpoch) := by
  cases hintState with
  | none => exact keeps_ret _
  | some hint =>
    cases hintEpoch with
    | none => exact keeps_ret _
    | some =>
      refine keeps_when ?_
      refine keeps_bind (reports_isManualPinActive hint) fun pinned => ?_
      refine keeps_unless ?_
      exact keeps_when (reports_window sized)

theorem reports_succeedTrial : ReportsAll name windowSize (service.succeedTrial other) := by
  refine keeps_bind (reports_autoTransitionAllowed other _) fun allowed => ?_
  refine keeps_when ?_
  rintro _ rfl
  simp only [Service.repo, perform, obeys_bind, obeys_call, obeys_ret]
  refine ⟨⟨by simp, fun _ => rfl⟩, fun attempt valid => ?_⟩
  by_cases closes : other = name ∧ attempt.didClose = true
  · obtain ⟨rfl, closed⟩ := closes
    have stored := valid rfl closed
    simp [evidencePermits, closed, stored, Service.window, perform]
  · have quiet : (evidenceDiscipline name windowSize).after false
        (.repo (.recordSuccessWithCloseCheck other (service.effectiveConfig other).successThreshold))
        attempt = false := by
      exact if_neg closes
    rw [quiet]
    cases attempt.state with
    | stored =>
      refine keeps_bind ?_ (fun _ => keeps_ret _) false rfl
      exact reports_window trivial
    | missing => rfl
    | pinned => rfl

include sized in
theorem reports_recordSuccess (hintEpoch : Option Nat) :
    ReportsAll name windowSize (service.recordSuccess other hintState hintEpoch) := by
  refine keeps_when ?_
  refine keeps_bind (reports_recordSuccessByHint service other sized _ _) fun recorded => ?_
  refine keeps_unless ?_
  refine keeps_bind (reports_readObserved other) fun found => ?_
  refine keeps_bind (reports_isManualPinActive _) fun pinned => ?_
  refine keeps_unless ?_
  cases found.2.state with
  | halfOpen => exact reports_succeedTrial service other
  | opened => exact keeps_ret _
  | closed =>
    refine keeps_bind (reports_window sized) fun _ => keeps_when ?_
    exact (reports_repo rfl (by simp)).discard

theorem reports_getAggregateFailureEvidence (fleet : Bool) :
    ReportsAll name windowSize (service.getAggregateFailureEvidence fleet) := by
  refine keeps_bind (reports_window trivial) fun epochs => ?_
  refine keeps_bind (reports_repo rfl (by simp)) fun rows => ?_
  refine keeps_bind (keeps_foldlM (fun _ row _ => ?_) ()) fun _ => ?_
  · exact .discard (reports_window trivial)
  refine keeps_bind ?_ fun cluster => ?_
  · exact keeps_when (reports_repo rfl (by simp))
  refine keeps_bind (reports_window trivial) fun perName => ?_
  refine keeps_bind (keeps_foldlM (fun total name _ => ?_) _) fun _ => keeps_ret _
  exact reports_now.discard

end

namespace CircuitBreakerStateData

variable (row : Row) (now : Time) (threshold : Int)

theorem didClose_iff :
    (row.recordSuccessWithCloseCheck threshold now).2.didClose = true ↔
      row.state = .halfOpen ∧ threshold ≤ row.successCount + 1 := by
  unfold recordSuccessWithCloseCheck
  dsimp only
  split
  · simp_all
  · simp_all

theorem closed_closeCheck_iff :
    (row.recordSuccessWithCloseCheck threshold now).1.state = .closed ↔
      row.state = .closed ∨ (row.recordSuccessWithCloseCheck threshold now).2.didClose = true := by
  unfold recordSuccessWithCloseCheck
  dsimp only
  split <;> simp

theorem closeCheck_reports (closes : (row.recordSuccessWithCloseCheck threshold now).2.didClose = true) :
    (row.recordSuccessWithCloseCheck threshold now).2.state = .stored .closed := by
  unfold recordSuccessWithCloseCheck at closes ⊢
  dsimp only at closes ⊢
  split
  · rfl
  · rename_i stays
    simp [stays] at closes

theorem not_closed_tripToOpen (failureCount : Int) (unpinned : row.manuallyControlled = false) :
    (row.tripToOpen failureCount now).1.state ≠ .closed ∧ (row.tripToOpen failureCount now).2.state ≠ .pinned := by
  have free : row.isPinActive now = false := by
    simp [isPinActive, manualPinIsActive, unpinned]
  unfold tripToOpen
  simp only [free, Bool.false_eq_true, if_false]
  split
  · rename_i away
    exact ⟨away, by simp⟩
  · exact ⟨by simp, by simp⟩

end CircuitBreakerStateData

open EvidenceLedger (ofTrace record)
open InMemory (entry)
open OutcomeWindow
open RepoCall (onRow)
open ServiceCall

attribute [local simp] startHalfOpenWindow RepoCall.isAutomatic EvidenceLedger.ofTrace

theorem closed_onRow_iff (automatic : call.isAutomatic = true)
    (unclosing : ∀ other threshold, call ≠ .recordSuccessWithCloseCheck other threshold)
    (untripping : ∀ other failures, call ≠ .tripToOpen other failures)
    (now : Time) (row : Row) :
    (call.onRow now row).state = .closed ↔ row.state = .closed := by
  cases call with
  | recordSuccessWithCloseCheck other threshold => exact absurd rfl (unclosing other threshold)
  | tripToOpen other failures => exact absurd rfl (untripping other failures)
  | updateState =>
    simp only [RepoCall.isAutomatic, Bool.and_eq_true, decide_eq_true_eq] at automatic
    simp only [onRow, updateState, automatic.1, automatic.2, Bool.true_and]
    split
    · rfl
    · split
      · rfl
      · rename_i stays
        simpa using stays
  | recordFailureWithOpenCheck =>
    simp only [onRow, recordFailureWithOpenCheck]
    split <;> simp_all
  | tryAcquireHalfOpenSlot =>
    simp only [onRow, tryAcquireHalfOpenSlot]
    split
    · split
      · split <;> simp_all
      · simp_all
    · simp_all
    · rfl
  | getOrCreate other | getAllStates | recordFailure other => rfl
  | _ => simp at automatic

theorem unpinned_onRow (automatic : call.isAutomatic = true) (now : Time)
    (row : Row) (unpinned : row.manuallyControlled = false) :
    (call.onRow now row).manuallyControlled = false := by
  cases call with
  | updateState =>
    simp only [onRow, updateState]
    split
    · exact unpinned
    · split <;> exact unpinned
  | recordSuccessWithCloseCheck | recordFailureWithOpenCheck =>
    simp only [onRow, recordSuccessWithCloseCheck, recordFailureWithOpenCheck]
    split <;> exact unpinned
  | tripToOpen =>
    simp only [onRow, tripToOpen]
    split
    · exact unpinned
    · split
      · exact unpinned
      · rfl
  | tryAcquireHalfOpenSlot =>
    simp only [onRow, tryAcquireHalfOpenSlot]
    split
    · split
      · split <;> exact unpinned
      · exact unpinned
    · exact unpinned
    · exact unpinned
  | getOrCreate other | getAllStates | recordFailure other => exact unpinned
  | _ => simp at automatic

/-- What a call may do to the state it finds: reports tell the truth when they take effect, the
row moves between CLOSED and not CLOSED only while the last report agrees with it, and nothing is
appended while a clear is owed. -/
def EvidenceSafe (name : String) (world : World) : ServiceCall → Prop
  | .window (.observeState other state asOf) => other = name →
      world.window.takesEffect name state asOf → (state = .closed ↔ ClosedNow name world)
  | .window (.recordSuccessIfEpoch other size epoch required) => other = name →
      (world.window.recordSuccessIfEpoch name size epoch required).2 = true → ¬ClearOwed name world
  | .window (.recordFailure other _) => other = name → ¬ClearOwed name world
  | .window (.recordRejection other _) => other = name → ¬ClearOwed name world
  | .repo (.recordSuccessWithCloseCheck other threshold) => other = name →
      ∀ row ∈ world.storage.find name, row.state = .halfOpen → threshold ≤ row.successCount + 1 → SeenOut name world
  | .repo (.tripToOpen other _) => other = name → ¬ClearOwed name world
  | _ => True

structure EvidenceInvariant (name : String) (windowSize : Int) (world : World)
    (trace : List ServiceEvent) (locals : List Bool) : Prop where
  unpinned : ∀ row ∈ world.storage.find name, row.manuallyControlled = false
  counted : (EvidenceLedger.ofTrace name trace).reentries =
    (EvidenceLedger.ofTrace name trace).clears + (decide (ClearOwed name world)).toNat
  blank : ClearOwed name world → (EvidenceLedger.ofTrace name trace).since = []
  kept : (EvidenceLedger.ofTrace name trace).since.rtake windowSize.toNat <:+ world.window.outcomes name
  reporter : ClearOwed name world → ∃ thread : Nat, locals[thread]? = some true

abbrev RowUnpinned (name : String) (world : World) : Prop :=
  ∀ row ∈ world.storage.find name, row.manuallyControlled = false

abbrev RepoCall.recloses (call : RepoCall) (name : String) (world : World) : Bool :=
  ServiceCall.reenters name (.repo call) (World.exec (.repo call) world).2

abbrev EvidenceAfter (name : String) (windowSize : Int) (world : World) (trace : List ServiceEvent)
    (thread : Nat) (call : ServiceCall) (locals : List Bool) : Prop :=
  EvidenceInvariant name windowSize (World.exec call world).1
    (⟨thread, call, (World.exec call world).2⟩ :: trace) locals

section

variable {other : String} {name : String} {windowSize : Int} {world after : World} {trace : List ServiceEvent}
  {locals : List Bool} {event : ServiceEvent} (holds : EvidenceInvariant name windowSize world trace locals)

include holds in
theorem EvidenceInvariant.silent (unpinned : RowUnpinned name after)
    (closed : ClosedNow name after ↔ ClosedNow name world)
    (seen : after.window.lastSeen name = world.window.lastSeen name)
    (ring : after.window.outcomes name = world.window.outcomes name)
    (stays : event.call.reenters name event.answer = false)
    (keeps : event.call.clearsRing name event.answer = false)
    (adds : event.call.appended name event.answer = none) :
    EvidenceInvariant name windowSize after (event :: trace) locals := by
  have owed : ClearOwed name after ↔ ClearOwed name world := by
    simp only [ClearOwed, SeenOut, closed, seen]
  have same : ofTrace name (event :: trace) = ofTrace name trace := by
    simp [ofTrace, record, stays, keeps, adds]
  refine ⟨unpinned, ?_, ?_, ?_, ?_⟩
  · simp only [same, owed]
    exact holds.counted
  · rw [same, owed]
    exact holds.blank
  · rw [same, ring]
    exact holds.kept
  · rw [owed]
    exact holds.reporter

include holds in
theorem EvidenceInvariant.appending (outcome : Outcome) (settled : ¬ClearOwed name world)
    (storage : after.storage = world.storage)
    (seen : after.window.lastSeen name = world.window.lastSeen name)
    (ring : after.window.outcomes name = (world.window.outcomes name ++ [outcome]).rtake windowSize.toNat)
    (stays : event.call.reenters name event.answer = false)
    (keeps : event.call.clearsRing name event.answer = false)
    (adds : event.call.appended name event.answer = some outcome) :
    EvidenceInvariant name windowSize after (event :: trace) locals := by
  have owed : ClearOwed name after ↔ ClearOwed name world := by
    simp only [ClearOwed, ClosedNow, SeenOut, storage, seen]
  have unowed : ¬ClearOwed name after := fun isOwed => settled (owed.mp isOwed)
  refine ⟨?_, ?_, fun isOwed => absurd isOwed unowed, ?_, fun isOwed => absurd isOwed unowed⟩
  · rw [storage]
    exact holds.unpinned
  · have counted := holds.counted
    simp only [ofTrace, record, stays, keeps, owed, Bool.toNat_false]
    omega
  · rw [ring]
    simp only [ofTrace, record, stays, adds, Bool.false_eq_true, if_false, Option.toList_some]
    exact Deque.rtake_push _ outcome holds.kept

include holds in
theorem EvidenceInvariant.settling (unowed : ¬ClearOwed name after) (unpinned : RowUnpinned name after)
    (ring : ¬ClearOwed name world → after.window.outcomes name = world.window.outcomes name)
    (stays : event.call.reenters name event.answer = false)
    (settles : event.call.clearsRing name event.answer = decide (ClearOwed name world))
    (adds : event.call.appended name event.answer = none) (next : List Bool) :
    EvidenceInvariant name windowSize after (event :: trace) next := by
  have counted := holds.counted
  refine ⟨unpinned, ?_, fun isOwed => absurd isOwed unowed, ?_, fun isOwed => absurd isOwed unowed⟩
  · simp only [ofTrace, record, stays, settles, unowed, decide_false, Bool.toNat_false]
    omega
  · simp only [ofTrace, record, stays, adds, Bool.false_eq_true, if_false, Option.toList_none, append_nil]
    by_cases owed : ClearOwed name world
    · simp [holds.blank owed]
    · rw [ring owed]
      exact holds.kept

variable {thread : Nat} {owes : Bool}

theorem set_located (located : locals[thread]? = some owes) : locals.set thread owes = locals := by
  obtain ⟨within, rfl⟩ := List.getElem?_eq_some_iff.mp located
  exact List.set_getElem_self within

attribute [local simp] WindowCall.exec clearsRing OutcomeWindow.clear InMemory.freshRow InMemory.find_onRow

include holds in
theorem EvidenceInvariant.observing (located : locals[thread]? = some owes) (state : CircuitState) (asOf : Option Nat)
    (truthful : world.window.takesEffect name state asOf → (state = .closed ↔ ClosedNow name world)) :
    EvidenceAfter name windowSize world trace thread (.window (.observeState name state asOf))
      (locals.set thread (if state = .closed ∧ asOf = none then false else owes)) := by
  by_cases effect : world.window.takesEffect name state asOf
  · obtain ⟨seen, cleared, rings⟩ := world.window.observeState_effect name effect
    have fresh := effect.1
    have truth := truthful effect
    have closedNow : ClosedNow name
        (exec (.window (.observeState name state asOf)) world).1 ↔ ClosedNow name world := by
      rfl
    have seenNow : (exec (.window (.observeState name state asOf)) world).1.window.lastSeen name = some state := by
      simp [exec, seen]
    -- The report agrees with the row, so nothing is owed after it.
    have settled : ¬ClearOwed name (exec (.window (.observeState name state asOf)) world).1 := by
      rintro ⟨closed, _, away⟩
      rw [seenNow] at away
      exact away (congrArg some (truth.mpr (closedNow.mp closed)))
    have before : ClearOwed name world ↔ world.window.lastSeen name ≠ none ∧ state = .closed := by
      constructor
      · rintro ⟨closed, known, _⟩
        exact ⟨known, truth.mpr closed⟩
      · rintro ⟨known, closed⟩
        exact ⟨truth.mp closed, known, closed ▸ fresh⟩
    refine holds.settling settled holds.unpinned (fun unowed => ?_) rfl ?_ rfl _
    · simpa [exec, before.not.mp unowed] using rings name
    · simp [exec, cleared, before]
  · have idle := world.window.observeState_idle name effect
    have same : exec (.window (.observeState name state asOf)) world = (world, false) := by
      simp [exec, idle]
    rw [EvidenceAfter, same]
    have silent : EvidenceInvariant name windowSize world
        (⟨thread, .window (.observeState name state asOf), false⟩ :: trace) locals := by
      exact holds.silent holds.unpinned Iff.rfl rfl rfl rfl (by simp) rfl
    refine { silent with reporter := fun owed => ?_ }
    -- An unconditional report of CLOSED is idle only when CLOSED was seen last.
    have stays : ¬(state = .closed ∧ asOf = none) := by
      rintro ⟨rfl, rfl⟩
      exact effect ⟨owed.2.2, rfl⟩
    rw [if_neg stays, set_located located]
    exact silent.reporter owed

variable {call : RepoCall} (automatic : call.target = some name → call.isAutomatic = true)

include automatic in
theorem unpinned_repo (unpinned : RowUnpinned name world) : RowUnpinned name (exec (.repo call) world).1 := by
  simp only [RowUnpinned, exec, InMemory.find_exec]
  by_cases targets : call.target = some name
  · simp only [targets, if_true]
    exact RepoCall.rewrite_invariant (fun _ => rfl) (unpinned_onRow (automatic targets) world.clock) unpinned
  · simpa only [targets, if_false] using unpinned

theorem find_closeCheck (threshold : Int) :
    (exec (.repo (.recordSuccessWithCloseCheck name threshold)) world).1.storage.find name =
      some ((entry world.storage name world.clock).recordSuccessWithCloseCheck threshold world.clock).1 := by
  simp [exec, InMemory.exec]

theorem closedNow_iff_entry : ClosedNow name world ↔ (entry world.storage name world.clock).state = .closed := by
  unfold ClosedNow entry
  cases world.storage.find name with
  | none => simp
  | some => simp

theorem reenters_repo {answer : call.Answer} (enters : reenters name (.repo call) answer = true) :
    ∃ threshold, call = .recordSuccessWithCloseCheck name threshold := by
  cases call with
  | recordSuccessWithCloseCheck other threshold =>
    simp only [reenters, Bool.and_eq_true, decide_eq_true_eq] at enters
    exact ⟨threshold, by rw [enters.1]⟩
  | _ => simp [reenters] at enters

theorem reenters_closeCheck (threshold : Int) :
    reenters name (.repo (.recordSuccessWithCloseCheck name threshold))
        (exec (.repo (.recordSuccessWithCloseCheck name threshold)) world).2 =
      ((entry world.storage name world.clock).recordSuccessWithCloseCheck threshold world.clock).2.didClose := by
  simp only [reenters, decide_true, Bool.true_and]
  rfl

theorem closedNow_of_reenters (enters : call.recloses name world = true) :
    ¬ClosedNow name world ∧ ClosedNow name (exec (.repo call) world).1 := by
  obtain ⟨threshold, rfl⟩ := reenters_repo enters
  have closes := (reenters_closeCheck threshold).symm.trans enters
  have trial := (didClose_iff _ _ _).mp closes
  refine ⟨?_, ?_⟩
  · rw [closedNow_iff_entry, trial.1]
    simp
  · intro row found
    rw [find_closeCheck, Option.mem_some_iff] at found
    rw [← found, closed_closeCheck_iff]
    exact .inr closes

include holds in
theorem EvidenceInvariant.closing (located : locals[thread]? = some owes) (enters : call.recloses name world = true)
    (seen : SeenOut name world) :
    EvidenceAfter name windowSize world trace thread (.repo call) (locals.set thread true) := by
  obtain ⟨away, closed⟩ := closedNow_of_reenters enters
  have owed : ClearOwed name (exec (.repo call) world).1 := ⟨closed, seen⟩
  have unowed : ¬ClearOwed name world := fun isOwed => away isOwed.1
  have counted := holds.counted
  obtain ⟨threshold, rfl⟩ := reenters_repo enters
  refine ⟨unpinned_repo (fun _ => rfl) holds.unpinned, ?_, fun _ => ?_, ?_, fun _ => ⟨thread, ?_⟩⟩
  · simp only [unowed, decide_false, Bool.toNat_false] at counted
    simp only [ofTrace, record, enters, clearsRing, owed, decide_true, Bool.toNat_true, Bool.toNat_false]
    omega
  · simp [ofTrace, record, enters]
  · simp [ofTrace, record, enters]
  · exact List.getElem?_set_self (List.getElem?_eq_some_iff.mp located).1

theorem unpinned_entry (unpinned : RowUnpinned name world) :
    (entry world.storage name world.clock).manuallyControlled = false := by
  unfold entry
  cases found : world.storage.find name with
  | none => rfl
  | some row => exact unpinned row found

theorem not_closedNow_trip (failures : Int) (unpinned : RowUnpinned name world) :
    ¬ClosedNow name (exec (.repo (.tripToOpen name failures)) world).1 := by
  intro closed
  have free := unpinned_entry unpinned
  have opened := (not_closed_tripToOpen _ world.clock failures free).1
  refine opened (closed _ ?_)
  simp [exec, InMemory.exec]

theorem after_repo (call : RepoCall) (owes : Bool) :
    (evidenceDiscipline name windowSize).after owes (.repo call) (exec (.repo call) world).2 =
      if call.recloses name world then true
      else owes := by
  cases call with
  | recordSuccessWithCloseCheck =>
    simp [evidenceDiscipline, reenters]
  | _ => rfl

include automatic in
theorem closedNow_of_stays (stays : call.recloses name world = false)
    (untripping : ∀ failures, call ≠ .tripToOpen name failures) :
    ClosedNow name (exec (.repo call) world).1 ↔ ClosedNow name world := by
  by_cases checks : ∃ threshold, call = .recordSuccessWithCloseCheck name threshold
  · obtain ⟨threshold, rfl⟩ := checks
    have closed := closed_closeCheck_iff (entry world.storage name world.clock) world.clock threshold
    have entryClosed : ClosedNow name world ↔ _ := closedNow_iff_entry
    rw [(reenters_closeCheck threshold).symm.trans stays] at closed
    rw [entryClosed, ClosedNow, find_closeCheck]
    simpa using closed
  · simp only [ClosedNow, exec, InMemory.find_exec]
    by_cases targets : call.target = some name
    · simp only [targets, if_true]
      refine RepoCall.rewrite_forall_iff (fun _ => rfl) (closed_onRow_iff (automatic targets) ?_ ?_ _)
      · rintro other threshold rfl
        obtain rfl : other = name := by simpa [RepoCall.target] using targets
        exact checks ⟨threshold, rfl⟩
      · rintro other failures rfl
        obtain rfl : other = name := by simpa [RepoCall.target] using targets
        exact untripping failures rfl
    · simp only [targets, if_false]

theorem reenters_iff_closes (automatic : call.target = some name → call.isAutomatic = true)
    (unpinned : RowUnpinned name world) :
    call.recloses name world = true ↔ ¬ClosedNow name world ∧ ClosedNow name (exec (.repo call) world).1 := by
  refine ⟨closedNow_of_reenters, fun ⟨away, closed⟩ => ?_⟩
  by_contra unentered
  have stays : call.recloses name world = false := by
    simpa using unentered
  by_cases trips : ∃ failures, call = .tripToOpen name failures
  · obtain ⟨failures, rfl⟩ := trips
    exact not_closedNow_trip failures unpinned closed
  · have same := closedNow_of_stays automatic stays fun failures same => trips ⟨failures, same⟩
    exact away (same.mp closed)

theorem trial_success_recloses :
    let world := (exec (.repo (.tryAcquireHalfOpenSlot "api" 1 60)) (exec (.repo (.tripToOpen "api" 1)) (initial 0)).1).1
    ¬ClosedNow "api" world ∧ ClosedNow "api" (exec (.repo (.recordSuccessWithCloseCheck "api" 1)) world).1 :=
  (reenters_iff_closes (fun _ => rfl) (by decide)).mp (by decide)

include holds in
theorem evidence_repo (located : locals[thread]? = some owes) (call : RepoCall)
    (automatic : call.target = some name → call.isAutomatic = true)
    (safe : EvidenceSafe name world (.repo call)) :
    EvidenceAfter name windowSize world trace thread (.repo call)
      (locals.set thread ((evidenceDiscipline name windowSize).after owes (.repo call)
        (exec (.repo call) world).2)) := by
  rw [after_repo]
  by_cases enters : call.recloses name world = true
  · rw [if_pos enters]
    obtain ⟨threshold, rfl⟩ := reenters_repo enters
    obtain ⟨trial, reached⟩ :=
      (didClose_iff _ _ _).mp ((reenters_closeCheck threshold).symm.trans enters)
    have seen : SeenOut name world := by
      unfold entry at trial reached
      cases found : world.storage.find name with
      | none => simp [found] at trial
      | some row =>
        rw [found, Option.getD_some] at trial reached
        exact safe rfl row found trial reached
    exact holds.closing located enters seen
  · have stays : call.recloses name world = false := by
      simpa using enters
    rw [if_neg enters, set_located located]
    by_cases trips : ∃ failures, call = .tripToOpen name failures
    · obtain ⟨failures, rfl⟩ := trips
      have away := not_closedNow_trip failures holds.unpinned
      refine holds.settling (fun isOwed => away isOwed.1) (unpinned_repo (fun _ => rfl) holds.unpinned)
        (fun _ => rfl) rfl ?_ rfl locals
      simp [safe rfl]
    · refine holds.silent (unpinned_repo automatic holds.unpinned) ?_ rfl rfl stays rfl rfl
      exact closedNow_of_stays automatic stays fun failures same => trips ⟨failures, same⟩

variable (window : OutcomeWindow)

theorem observe_elsewhere (elsewhere : other ≠ name) (state : CircuitState) (asOf : Option Nat) :
    (window.observeState other state asOf).1.lastSeen name = window.lastSeen name ∧
      (window.observeState other state asOf).1.outcomes name = window.outcomes name := by
  by_cases effect : window.takesEffect other state asOf
  · obtain ⟨seen, _, rings⟩ := window.observeState_effect other effect
    refine ⟨?_, ?_⟩
    · rw [seen, Function.update_of_ne (Ne.symm elsewhere)]
    · simp [rings name, elsewhere]
  · rw [window.observeState_idle other effect]
    exact ⟨rfl, rfl⟩

theorem success_elsewhere {size : Int} {epoch : Nat} {required : Bool}
    (elsewhere : ¬(other = name ∧ (window.recordSuccessIfEpoch other size epoch required).2 = true)) :
    (window.recordSuccessIfEpoch other size epoch required).1.lastSeen = window.lastSeen ∧
      (window.recordSuccessIfEpoch other size epoch required).1.outcomes name = window.outcomes name := by
  cases accepted : (window.recordSuccessIfEpoch other size epoch required).2 with
  | false =>
    rw [recordSuccessIfEpoch_fst, if_neg (by simp [accepted])]
    exact ⟨rfl, rfl⟩
  | true =>
    have different : other ≠ name := fun same => elsewhere ⟨same, accepted⟩
    rw [window.recordSuccessIfEpoch_accepts other accepted]
    exact ⟨rfl, by simp [outcomes_append, different]⟩

include holds in
theorem evidence_window (located : locals[thread]? = some owes) (call : WindowCall)
    (permits : evidencePermits name windowSize (.window call)) (safe : EvidenceSafe name world (.window call)) :
    EvidenceAfter name windowSize world trace thread (.window call)
      (locals.set thread ((evidenceDiscipline name windowSize).after owes (.window call)
        (exec (.window call) world).2)) := by
  have still := set_located located
  cases call with
  | observeState other state asOf =>
    by_cases same : other = name
    · subst same
      have step := holds.observing located state asOf (safe rfl)
      simpa [evidenceDiscipline] using step
    · obtain ⟨seen, ring⟩ := observe_elsewhere world.window same state asOf
      simp only [evidenceDiscipline, same, false_and, if_false, still]
      exact holds.silent holds.unpinned Iff.rfl seen ring rfl (by simp [same]) rfl
  | recordSuccessIfEpoch other size epoch required =>
    simp only [evidenceDiscipline, still]
    by_cases appends : other = name ∧ (world.window.recordSuccessIfEpoch other size epoch required).2 = true
    · obtain ⟨rfl, accepted⟩ := appends
      obtain rfl : size = windowSize := permits rfl
      have window : (world.window.recordSuccessIfEpoch other size epoch required).1 =
          world.window.append other size .success :=
        world.window.recordSuccessIfEpoch_accepts other accepted
      refine holds.appending .success (safe rfl accepted) rfl ?_ ?_ rfl rfl ?_
      · simp [exec, window]
      · simp [exec, window, outcomes_append]
      · exact if_pos ⟨rfl, accepted⟩
    · obtain ⟨seen, ring⟩ := success_elsewhere world.window appends
      exact holds.silent holds.unpinned Iff.rfl (congrFun seen name) ring rfl rfl (if_neg appends)
  | recordFailure other size | recordRejection other size =>
    simp only [evidenceDiscipline, still]
    by_cases same : other = name
    · subst same
      obtain rfl : size = windowSize := permits rfl
      refine holds.appending .failure (safe rfl) rfl rfl ?_ rfl rfl (by simp [appended])
      exact (outcomes_append ..).trans (if_pos rfl)
    · refine holds.silent holds.unpinned Iff.rfl rfl ?_ rfl rfl (by simp [appended, same])
      exact (outcomes_append ..).trans (if_neg same)
  | clear other =>
    have elsewhere : other ≠ name := permits
    simp only [evidenceDiscipline, still]
    refine holds.silent holds.unpinned Iff.rfl ?_ ?_ rfl (by simp [elsewhere]) rfl
    · simp [exec]
    · simp [exec, OutcomeWindow.outcomes_dropOutcomes, elsewhere]
  | _ =>
    simp only [evidenceDiscipline, still]
    exact holds.silent holds.unpinned Iff.rfl rfl rfl rfl rfl rfl

end

def evidenceOperation (name : String) (windowSize : Int) : Operation → Prop
  | .shouldAllowWithState service other =>
      other = name → (service.effectiveConfig other).slidingWindowSize = windowSize
  | .recordSuccess service other _ _ =>
      other = name → (service.effectiveConfig other).slidingWindowSize = windowSize
  | .recordFailure service other =>
      other = name → (service.effectiveConfig other).slidingWindowSize = windowSize
  | .admittedCall service other _ =>
      other = name → (service.effectiveConfig other).slidingWindowSize = windowSize
  | .getAggregateFailureEvidence _ _ => True
  | _ => False

theorem reports_program (operation : Operation) (permitted : evidenceOperation name windowSize operation) :
    ReportsAll name windowSize operation.program := by
  cases operation with
  | shouldAllowWithState service other =>
    exact (reports_shouldAllowWithState service other permitted).discard
  | recordSuccess service other =>
    exact (reports_recordSuccess service other permitted _ _).discard
  | recordFailure service other =>
    exact (reports_recordFailure service other permitted).discard
  | admittedCall service other =>
    refine keeps_bind (reports_shouldAllowWithState service other permitted) fun decision => ?_
    refine keeps_bind (keeps_foldlM (fun _ outcome _ => ?_) ()) fun _ => keeps_ret _
    cases outcome with
    | success => exact reports_recordSuccess service other permitted _ _
    | failure => exact reports_recordFailure service other permitted
  | getAggregateFailureEvidence service fleet =>
    exact (reports_getAggregateFailureEvidence service fleet).discard
  | _ => exact permitted.elim

def SafeStep (name : String) (config : ServiceConfig) : ServiceAction → Prop
  | .step thread => ∀ call ∈ config.pending thread, EvidenceSafe name config.state call
  | _ => True

theorem evidence_valid {world : World} {owes : Bool} (unpinned : RowUnpinned name world) (call : ServiceCall) :
    (evidenceDiscipline name windowSize).valid owes call (exec call world).2 := by
  cases call with
  | repo call =>
    cases call with
    | tripToOpen =>
      rintro rfl
      exact (not_closed_tripToOpen _ _ _ (unpinned_entry unpinned)).2
    | recordSuccessWithCloseCheck =>
      rintro rfl closes
      exact closeCheck_reports _ _ _ closes
    | _ => trivial
  | _ => trivial

theorem evidence_sound (name : String) (windowSize : Int) :
    Sound memoryMachine (evidenceDiscipline name windowSize) (fun owes _ => owes = false)
      (EvidenceInvariant name windowSize)
      (fun config action => spawnsOnly (evidenceOperation name windowSize) config action ∧
        SafeStep name config action) where
  step := by
    rintro config locals thread owes call ⟨_, safe⟩ pending holds located ⟨_, permits⟩
    refine ⟨evidence_valid holds.unpinned call, [], .nil, ?_⟩
    rw [append_nil]
    have stepSafe := safe call pending
    cases call with
    | repo call => exact evidence_repo holds located call permits stepSafe
    | window call => exact evidence_window holds located call permits stepSafe
    | _ =>
      simp only [evidenceDiscipline, set_located located]
      exact holds.silent holds.unpinned Iff.rfl rfl rfl rfl rfl rfl
  disturb := by
    rintro config locals change _ ⟨unpinned, counted, blank, kept, reporter⟩
    cases change <;> exact ⟨unpinned, counted, blank, kept, reporter⟩
  spawn := by
    rintro config locals program ⟨⟨operation, permitted, rfl⟩, _⟩ holds
    refine ⟨false, reports_program operation permitted false rfl, { holds with reporter := fun owed => ?_ }⟩
    obtain ⟨thread, located⟩ := holds.reporter owed
    refine ⟨thread, ?_⟩
    rw [List.getElem?_append_left (List.getElem?_eq_some_iff.mp located).1]
    exact located

/-- In every run of safe steps the ring is cleared once for each re-entry into CLOSED (once less while
the closer is about to report) and holds the last outcomes appended since. -/
theorem closed_period_evidence_kept (name : String) (windowSize : Int) (world : World) (settled : ¬ClearOwed name world)
    (unpinned : ∀ row ∈ world.storage.find name, row.manuallyControlled = false)
    (schedule : List ServiceAction)
    (spawned : memoryMachine.Always (spawnsOnly (evidenceOperation name windowSize)) (start world) schedule)
    (safe : memoryMachine.Always (SafeStep name) (start world) schedule) :
    ((ofTrace name (memoryMachine.run (start world) schedule).trace).reentries =
        (ofTrace name (memoryMachine.run (start world) schedule).trace).clears ∨
      (ofTrace name (memoryMachine.run (start world) schedule).trace).reentries =
        (ofTrace name (memoryMachine.run (start world) schedule).trace).clears + 1 ∧
      ∃ thread, (memoryMachine.run (start world) schedule).pending thread =
        some (.window (.observeState name .closed none))) ∧
      (ofTrace name (memoryMachine.run (start world) schedule).trace).since.rtake windowSize.toNat <:+
        (memoryMachine.run (start world) schedule).state.window.outcomes name := by
  have started : Coherent (evidenceDiscipline name windowSize) (fun owes _ => owes = false)
      (EvidenceInvariant name windowSize) (start world : ServiceConfig) := by
    refine ⟨[], .nil, unpinned, ?_, fun owed => absurd owed settled, ?_, fun owed => absurd owed settled⟩
    · simp [start, settled]
    · simp [start]
  obtain ⟨locals, obeys, holds⟩ :=
    (evidence_sound name windowSize).run (memoryMachine.always_and spawned safe) started
  refine ⟨?_, holds.kept⟩
  have counted := holds.counted
  by_cases owed : ClearOwed name (memoryMachine.run (start world) schedule).state
  · obtain ⟨thread, located⟩ := holds.reporter owed
    simp only [owed, decide_true, Bool.toNat_true] at counted
    refine .inr ⟨counted, thread, ?_⟩
    -- A thread that owes a report has not finished, and the report is its next call.
    obtain ⟨program, found, follows⟩ : ∃ program,
        (memoryMachine.run (start world) schedule).threads[thread]? = some program ∧
          Obeys (evidenceDiscipline name windowSize) (fun owes _ => owes = false) true program :=
      forall₂_getElem? (Forall₂.flip obeys) located
    cases program with
    | ret => simp at follows
    | call c next =>
      obtain rfl := follows.1.1 rfl
      exact Config.pending_eq_some.mpr ⟨next, found⟩
  · simp only [owed, decide_false, Bool.toNat_false] at counted
    exact .inl counted

def trialService : Service :=
  ⟨{ failureThreshold := 1, failureRateThreshold := 0, successThreshold := 1 },
    fun _ => { failureThreshold := 1, failureRateThreshold := 0, successThreshold := 1 }, []⟩

def calmRun : List ServiceAction :=
  .spawn (Operation.recordFailure trialService "api").program :: List.replicate 13 (.step 0) ++
    .disturb (.advance 60000000) ::
    .spawn (Operation.admittedCall trialService "api" [.success]).program ::
    List.replicate 16 (.step 1)

theorem calmRun_safe : memoryMachine.Always (SafeStep "api") (start (initial 0)) calmRun := by
  refine ⟨trivial, ?_⟩
  iterate 13
    refine ⟨fun call found => ?_, ?_⟩
    · cases found
      first | exact trivial | (intro _; decide +kernel)
  refine ⟨trivial, trivial, ?_⟩
  iterate 16
    refine ⟨fun call found => ?_, ?_⟩
    · cases found
      first | exact trivial | (intro _; decide +kernel)
  trivial

theorem calm_run_clears_once :
    (ofTrace "api" (memoryMachine.run (start (initial 0)) calmRun).trace).reentries = 1 ∧
      ((ofTrace "api" (memoryMachine.run (start (initial 0)) calmRun).trace).reentries =
        (ofTrace "api" (memoryMachine.run (start (initial 0)) calmRun).trace).clears ∨
      (ofTrace "api" (memoryMachine.run (start (initial 0)) calmRun).trace).reentries =
        (ofTrace "api" (memoryMachine.run (start (initial 0)) calmRun).trace).clears + 1 ∧
      ∃ thread, (memoryMachine.run (start (initial 0)) calmRun).pending thread =
        some (.window (.observeState "api" .closed none))) ∧
      (ofTrace "api" (memoryMachine.run (start (initial 0)) calmRun).trace).since.rtake 100 <:+
        (memoryMachine.run (start (initial 0)) calmRun).state.window.outcomes "api" := by
  refine ⟨by decide +kernel, closed_period_evidence_kept "api" 100 (initial 0) (by decide)
    (by decide) calmRun (always_spawnsOnly (fun program member => ?_) _) calmRun_safe⟩
  simp only [calmRun, cons_append, mem_cons, mem_append, mem_replicate,
    Action.spawn.injEq, reduceCtorEq, and_false, false_or, or_false] at member
  rcases member with rfl | rfl
  · exact ⟨.recordFailure trialService "api", fun _ => rfl, rfl⟩
  · exact ⟨.admittedCall trialService "api" [.success], fun _ => rfl, rfl⟩

def lateReport : List ServiceAction :=
  .spawn (Operation.recordFailure trialService "api").program :: List.replicate 13 (.step 0) ++
    .disturb (.advance 60000000) ::
    .spawn (Operation.shouldAllowWithState trialService "api").program ::
    List.replicate 8 (.step 1) ++
    .spawn (Operation.admittedCall trialService "api" [.success]).program ::
    List.replicate 13 (.step 2) ++
    .spawn (Operation.admittedCall trialService "api" [.success]).program ::
    List.replicate 5 (.step 3) ++
    .step 1 :: .spawn (Operation.shouldAllowWithState trialService "api").program ::
    List.replicate 3 (.step 4)

theorem late_report_clears_twice :
    memoryMachine.Always (spawnsOnly (evidenceOperation "api" 100)) (start (initial 0)) lateReport ∧
      (ofTrace "api" (memoryMachine.run (start (initial 0)) lateReport).trace).reentries = 1 ∧
      (ofTrace "api" (memoryMachine.run (start (initial 0)) lateReport).trace).clears = 2 ∧
      (ofTrace "api" (memoryMachine.run (start (initial 0)) lateReport).trace).since = [.success] ∧
      (memoryMachine.run (start (initial 0)) lateReport).state.window.outcomes "api" = [] ∧
      ClosedNow "api" (memoryMachine.run (start (initial 0)) lateReport).state := by
  refine ⟨always_spawnsOnly (fun program member => ?_) _, by decide +kernel⟩
  simp only [lateReport, cons_append, mem_cons, mem_append, mem_replicate,
    Action.spawn.injEq, reduceCtorEq, and_false, false_or, or_false] at member
  rcases member with rfl | ((rfl | rfl) | rfl) | rfl
  · exact ⟨.recordFailure trialService "api", fun _ => rfl, rfl⟩
  · exact ⟨.shouldAllowWithState trialService "api", fun _ => rfl, rfl⟩
  · exact ⟨.admittedCall trialService "api" [.success], fun _ => rfl, rfl⟩
  · exact ⟨.admittedCall trialService "api" [.success], fun _ => rfl, rfl⟩
  · exact ⟨.shouldAllowWithState trialService "api", fun _ => rfl, rfl⟩

end Baldur.CircuitBreaker
