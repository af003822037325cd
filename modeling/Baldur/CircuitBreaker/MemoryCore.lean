import Baldur.CircuitBreaker.RowCore

/-!
The in-memory adapter (`adapters/memory/circuit_breaker.py`). Every operation runs under one lock hold.
-/

namespace Baldur.CircuitBreaker

namespace CircuitBreakerStateData

variable (row : Row)

def clearHalfOpenWindow : Row :=
  { row with halfOpenRequestCount := 0, halfOpenWindowStartedAt := none }

def updateState (update : StateUpdate) (now : Time) : Row × Bool :=
  if update.skipIfPinned && row.isPinActive now then
    (row, true)
  else if update.keepOpen && row.state ≠ .closed then
    (row, true)
  else
    ({ row with
        state := update.state
        failureCount := update.failureCount.getD row.failureCount
        successCount := update.successCount.getD row.successCount
        lastFailureAt := update.lastFailureAt.or row.lastFailureAt
        openedAt := if update.clearOpenedAt then none else update.openedAt.or row.openedAt
        halfOpenRequestCount :=
          if update.resetHalfOpenCount then 0
          else update.halfOpenRequestCount.getD row.halfOpenRequestCount
        halfOpenWindowStartedAt :=
          if update.resetHalfOpenCount then none else row.halfOpenWindowStartedAt
        updatedAt := some now }, true)

def resetCounts (now : Time) : Row × Bool :=
  ({ row.clearHalfOpenWindow with
      failureCount := 0
      successCount := 0
      openedAt := none
      updatedAt := some now }, true)

def convergeToClosedUnlessPinned (now : Time) : Row × Bool :=
  if row.isPinActive now then
    (row, false)
  else
    ({ row.clearHalfOpenWindow with
        state := .closed
        failureCount := 0
        successCount := 0
        openedAt := none
        updatedAt := some now }, true)

def setManualControl (state : CircuitState) (controlledById : Option Int) (reason : String)
    (expiresAt : Option Time) (now : Time) : Row × Bool :=
  ({ row with
      state := state
      openedAt := if state = .opened then some now else row.openedAt
      manuallyControlled := true
      controlledById := controlledById
      controlReason := reason
      manualOverrideExpiresAt := expiresAt
      updatedAt := some now }, true)

def clearManualControl (preserveReason : Bool) (now : Time) : Row × Bool :=
  ({ row with
      manuallyControlled := false
      controlledById := none
      controlReason := if preserveReason then row.controlReason else ""
      manualOverrideExpiresAt := none
      updatedAt := some now }, true)

def recordFailure (now : Time) : Row × Row :=
  let updated := { row with
    failureCount := row.failureCount + 1
    lastFailureAt := some now
    updatedAt := some now }
  (updated, updated)

def recordSuccess (now : Time) : Row × Row :=
  let updated := { row with successCount := row.successCount + 1, updatedAt := some now }
  (updated, updated)

def recordSuccessWithCloseCheck (successThreshold : Int) (now : Time) :
    Row × CircuitBreakerCloseAttempt :=
  let successCount := row.successCount + 1
  if row.state = .halfOpen ∧ successThreshold ≤ successCount then
    ({ row.clearHalfOpenWindow with
        state := .closed
        failureCount := 0
        successCount := 0
        openedAt := none
        updatedAt := some now }, ⟨.stored .closed, 0, true⟩)
  else
    ({ row with successCount := successCount, updatedAt := some now }, ⟨.stored row.state, successCount, false⟩)

def recordFailureWithOpenCheck (now : Time) : Row × CircuitBreakerOpenAttempt :=
  if row.state = .halfOpen then
    ({ row.clearHalfOpenWindow with
        state := .opened
        failureCount := 0
        successCount := 0
        openedAt := some now
        updatedAt := some now }, ⟨.stored .opened, some now, none, true⟩)
  else
    (row, ⟨.stored row.state, row.openedAt, none, false⟩)

def tripToOpen (failureCount : Int) (now : Time) : Row × CircuitBreakerOpenAttempt :=
  if row.isPinActive now then
    (row, pinnedTripAttempt row.manualOverrideExpiresAt)
  else if row.state ≠ .closed then
    (row, ⟨.stored row.state, row.openedAt, none, false⟩)
  else
    ({ row.clearHalfOpenWindow with
        state := .opened
        failureCount := failureCount
        successCount := 0
        openedAt := some now
        manuallyControlled := false
        controlledById := none
        manualOverrideExpiresAt := none
        updatedAt := some now }, ⟨.stored .opened, some now, none, true⟩)

def initialClosed (reason : String) (now : Time) : Row :=
  { serviceName := row.serviceName, controlReason := reason, updatedAt := some now }

def reset (now : Time) : Row × Bool :=
  (row.initialClosed "" now, true)

def atomicForceOpen (reason : String) (controlledById ttlMinutes : Option Int) (now : Time) :
    Row × ForceResult :=
  ({ row.clearHalfOpenWindow with
      state := .opened
      openedAt := some now
      manuallyControlled := true
      controlledById := controlledById
      controlReason := reason
      manualOverrideExpiresAt := resolveManualOverrideExpiry ttlMinutes now
      updatedAt := some now }, ⟨true, some row.state, some .opened⟩)

def atomicForceClose (reason : String) (controlledById ttlMinutes : Option Int) (now : Time) :
    Row × ForceResult :=
  ({ row.clearHalfOpenWindow with
      state := .closed
      failureCount := 0
      successCount := 0
      openedAt := none
      manuallyControlled := true
      controlledById := controlledById
      controlReason := reason
      manualOverrideExpiresAt := resolveManualOverrideExpiry ttlMinutes now
      updatedAt := some now }, ⟨true, some row.state, some .closed⟩)

def atomicReset (reason : String) (now : Time) : Row × ForceResult :=
  (row.initialClosed reason now, ⟨true, some row.state, some .closed⟩)

def windowIsStuck (stuckTimeoutSeconds : Int) (now : Time) : Bool :=
  match row.halfOpenWindowStartedAt with
  | none => true
  | some startedAt => decide (seconds stuckTimeoutSeconds < now - startedAt)

def startHalfOpenWindow (now : Time) : Row :=
  { row with
    state := .halfOpen
    successCount := 0
    halfOpenRequestCount := 1
    halfOpenWindowStartedAt := some now
    updatedAt := some now }

def tryAcquireHalfOpenSlot (limit stuckTimeoutSeconds : Int) (now : Time) : Row × SlotAttempt :=
  match row.state with
  | .halfOpen =>
      if limit ≤ row.halfOpenRequestCount then
        if row.windowIsStuck stuckTimeoutSeconds now then
          (row.startHalfOpenWindow now, ⟨true, .halfOpen, .halfOpen⟩)
        else
          (row, ⟨false, .halfOpen, .halfOpen⟩)
      else
        ({ row with
            halfOpenRequestCount := row.halfOpenRequestCount + 1
            halfOpenWindowStartedAt := row.halfOpenWindowStartedAt.or (some now)
            updatedAt := some now }, ⟨true, .halfOpen, .halfOpen⟩)
  | .opened => (row.startHalfOpenWindow now, ⟨true, .opened, .halfOpen⟩)
  | .closed => (row, ⟨false, .closed, .closed⟩)

def resetHalfOpenCount (now : Time) : Row × Unit :=
  ({ row.clearHalfOpenWindow with updatedAt := some now }, ())

/-- `hydrate_snapshot` over an existing row: the half-open window stays layer-local. -/
def hydratedBy (snapshot : Row) (now : Time) : Row :=
  { snapshot with
    halfOpenRequestCount := row.halfOpenRequestCount
    halfOpenWindowStartedAt := row.halfOpenWindowStartedAt
    updatedAt := some now }

end CircuitBreakerStateData

abbrev Storage := Table String Row CircuitBreakerStateData.serviceName

namespace InMemory

def freshRow (serviceName : String) (now : Time) : Row :=
  { serviceName := serviceName, updatedAt := some now }

def entry (storage : Storage) (serviceName : String) (now : Time) : Row :=
  (storage.find serviceName).getD (freshRow serviceName now)

def onRow {α : Type} (storage : Storage) (serviceName : String) (now : Time)
    (operation : Row → Row × α) : Storage × α :=
  let out := operation (entry storage serviceName now)
  (storage.put out.1, out.2)

def onStored {α : Type} (storage : Storage) (serviceName : String) (absent : α)
    (operation : Row → Row × α) : Storage × α :=
  match storage.find serviceName with
  | none => (storage, absent)
  | some row =>
      let out := operation row
      (storage.put out.1, out.2)

def hydrateSnapshot (storage : Storage) (snapshot : Row)
    (skipIfLocalPinActive : Bool) (now : Time) : Storage × Bool :=
  match storage.find snapshot.serviceName with
  | none => (storage.put ((freshRow snapshot.serviceName now).hydratedBy snapshot now), true)
  | some row =>
      if skipIfLocalPinActive && row.isPinActive now then
        (storage, false)
      else
        (storage.put (row.hydratedBy snapshot now), true)

def exec (now : Time) (storage : Storage) : (call : RepoCall) → Storage × call.Answer
  | .getOrCreate name =>
      match storage.find name with
      | some row => (storage, row)
      | none => (storage.put (freshRow name now), freshRow name now)
  | .getByServiceName name => (storage, storage.find name)
  | .getAllStates => (storage, storage.entries)
  | .updateState name update => onStored storage name false (·.updateState update now)
  | .recordFailure name => onRow storage name now (·.recordFailure now)
  | .recordSuccess name => onRow storage name now (·.recordSuccess now)
  | .recordSuccessWithCloseCheck name threshold =>
      onRow storage name now (·.recordSuccessWithCloseCheck threshold now)
  | .recordFailureWithOpenCheck name =>
      onRow storage name now (·.recordFailureWithOpenCheck now)
  | .tripToOpen name failureCount => onRow storage name now (·.tripToOpen failureCount now)
  | .setManualControl name state controlledById reason expiresAt =>
      onRow storage name now (·.setManualControl state controlledById reason expiresAt now)
  | .clearManualControl name preserveReason =>
      onStored storage name false (·.clearManualControl preserveReason now)
  | .reset name => onStored storage name false (·.reset now)
  | .atomicForceOpen name reason controlledById ttlMinutes =>
      onRow storage name now (·.atomicForceOpen reason controlledById ttlMinutes now)
  | .atomicForceClose name reason controlledById ttlMinutes =>
      onRow storage name now (·.atomicForceClose reason controlledById ttlMinutes now)
  | .atomicReset name reason =>
      onStored storage name ⟨false, none, none⟩ (·.atomicReset reason now)
  | .tryAcquireHalfOpenSlot name limit stuckTimeoutSeconds =>
      onRow storage name now (·.tryAcquireHalfOpenSlot limit stuckTimeoutSeconds now)
  | .resetHalfOpenCount name => onStored storage name () (·.resetHalfOpenCount now)

end InMemory

section

open Table

variable {call : RepoCall}

namespace CircuitBreakerStateData

variable (row : Row) (now : Time)

@[simp] theorem serviceName_updateState (update : StateUpdate) :
    (row.updateState update now).1.serviceName = row.serviceName := by
  unfold updateState
  split
  · rfl
  · split <;> rfl

@[simp] theorem serviceName_closeCheck (threshold : Int) :
    (row.recordSuccessWithCloseCheck threshold now).1.serviceName = row.serviceName := by
  unfold recordSuccessWithCloseCheck
  dsimp only
  split <;> rfl

@[simp] theorem serviceName_openCheck : (row.recordFailureWithOpenCheck now).1.serviceName = row.serviceName := by
  unfold recordFailureWithOpenCheck
  split <;> rfl

@[simp] theorem serviceName_tripToOpen (failureCount : Int) :
    (row.tripToOpen failureCount now).1.serviceName = row.serviceName := by
  unfold tripToOpen
  split
  · rfl
  · split <;> rfl

@[simp] theorem serviceName_tryAcquire (limit stuck : Int) :
    (row.tryAcquireHalfOpenSlot limit stuck now).1.serviceName = row.serviceName := by
  unfold tryAcquireHalfOpenSlot
  split
  · split
    · split <;> rfl
    · rfl
  · rfl
  · rfl

end CircuitBreakerStateData

namespace RepoCall

variable {P : Row → Prop} {now : Time} {stored : Option Row}

def target : RepoCall → Option String
  | .getOrCreate name => some name
  | .getByServiceName name => some name
  | .getAllStates => none
  | .updateState name _ => some name
  | .recordFailure name => some name
  | .recordSuccess name => some name
  | .recordSuccessWithCloseCheck name _ => some name
  | .recordFailureWithOpenCheck name => some name
  | .tripToOpen name _ => some name
  | .setManualControl name _ _ _ _ => some name
  | .clearManualControl name _ => some name
  | .reset name => some name
  | .atomicForceOpen name _ _ _ => some name
  | .atomicForceClose name _ _ _ => some name
  | .atomicReset name _ => some name
  | .tryAcquireHalfOpenSlot name _ _ => some name
  | .resetHalfOpenCount name => some name

def creates : RepoCall → Option String
  | .getOrCreate name => some name
  | .recordFailure name => some name
  | .recordSuccess name => some name
  | .recordSuccessWithCloseCheck name _ => some name
  | .recordFailureWithOpenCheck name => some name
  | .tripToOpen name _ => some name
  | .setManualControl name _ _ _ _ => some name
  | .atomicForceOpen name _ _ _ => some name
  | .atomicForceClose name _ _ _ => some name
  | .tryAcquireHalfOpenSlot name _ _ => some name
  | _ => none

def onRow (now : Time) (row : Row) : RepoCall → Row
  | .getOrCreate _ => row
  | .getByServiceName _ => row
  | .getAllStates => row
  | .updateState _ update => (row.updateState update now).1
  | .recordFailure _ => (row.recordFailure now).1
  | .recordSuccess _ => (row.recordSuccess now).1
  | .recordSuccessWithCloseCheck _ threshold => (row.recordSuccessWithCloseCheck threshold now).1
  | .recordFailureWithOpenCheck _ => (row.recordFailureWithOpenCheck now).1
  | .tripToOpen _ failureCount => (row.tripToOpen failureCount now).1
  | .setManualControl _ state controlledById reason expiresAt =>
      (row.setManualControl state controlledById reason expiresAt now).1
  | .clearManualControl _ preserveReason => (row.clearManualControl preserveReason now).1
  | .reset _ => (row.reset now).1
  | .atomicForceOpen _ reason controlledById ttlMinutes =>
      (row.atomicForceOpen reason controlledById ttlMinutes now).1
  | .atomicForceClose _ reason controlledById ttlMinutes =>
      (row.atomicForceClose reason controlledById ttlMinutes now).1
  | .atomicReset _ reason => (row.atomicReset reason now).1
  | .tryAcquireHalfOpenSlot _ limit stuck => (row.tryAcquireHalfOpenSlot limit stuck now).1
  | .resetHalfOpenCount _ => (row.resetHalfOpenCount now).1

def rewrite (now : Time) (stored : Option Row) (call : RepoCall) : Option Row :=
  match call.creates with
  | some name => some (call.onRow now (stored.getD (InMemory.freshRow name now)))
  | none => stored.map (call.onRow now)

variable (fresh : ∀ name, P (InMemory.freshRow name now))

include fresh

theorem rewrite_invariant (kept : ∀ row, P row → P (call.onRow now row)) (holds : ∀ row, stored = some row → P row) :
    ∀ row, call.rewrite now stored = some row → P row := by
  intro row found
  unfold rewrite at found
  cases creates : call.creates with
  | none =>
    simp only [creates, Option.map_eq_some_iff] at found
    obtain ⟨before, present, rfl⟩ := found
    exact kept before (holds before present)
  | some name =>
    simp only [creates, Option.some.injEq] at found
    subst found
    cases stored with
    | none => exact kept _ (fresh name)
    | some before => exact kept before (holds before rfl)

theorem rewrite_forall_iff (kept : ∀ row, P (call.onRow now row) ↔ P row) :
    (∀ row ∈ call.rewrite now stored, P row) ↔ ∀ row ∈ stored, P row := by
  unfold rewrite
  cases call.creates with
  | none => cases stored <;> simp [kept]
  | some => cases stored <;> simp [kept, fresh]

end RepoCall

namespace InMemory

variable {α : Type} (storage : Storage) (name other : String) (now : Time)

@[simp] theorem entry_serviceName : (entry storage name now).serviceName = name := by
  unfold entry
  cases found : storage.find name with
  | none => rfl
  | some => exact key_of_find found

theorem find_onRow (operation : Row → Row × α)
    (keeps : ∀ row, (operation row).1.serviceName = row.serviceName) :
    (onRow storage name now operation).1.find other =
      if name = other then some (operation (entry storage name now)).1 else storage.find other := by
  simp only [onRow, find_put, keeps, entry_serviceName]

theorem find_onStored (absent : α) (operation : Row → Row × α)
    (keeps : ∀ row, (operation row).1.serviceName = row.serviceName) :
    (onStored storage name absent operation).1.find other =
      if name = other then (storage.find name).map fun row => (operation row).1
      else storage.find other := by
  unfold onStored
  cases found : storage.find name with
  | none =>
    by_cases same : name = other
    · simp [← same, found]
    · simp [same]
  | some row =>
    have named : row.serviceName = name := key_of_find found
    simp [find_put, keeps, named]

variable {storage name other now}

theorem find_of_target (targets : call.target = some name) (found : (exec now storage call).1.find other =
      if name = other then call.rewrite now (storage.find name) else storage.find other) :
    (exec now storage call).1.find other =
      if call.target = some other then call.rewrite now (storage.find other) else storage.find other := by
  rw [found, targets]
  by_cases same : name = other <;> simp [same]

variable (storage other now)

attribute [local simp] RepoCall.creates RepoCall.onRow RepoCall.rewrite RepoCall.target exec

theorem find_exec (call : RepoCall) :
    (exec now storage call).1.find other =
      if call.target = some other then call.rewrite now (storage.find other)
      else storage.find other := by
  cases call with
  | getOrCreate name =>
    by_cases same : name = other
    · subst same
      cases found : storage.find name with
      | none => simp [found, freshRow]
      | some => simp [found]
    · cases found : storage.find name with
      | none => simp [found, same, find_put, freshRow]
      | some => simp [found, same]
  | getByServiceName =>
    cases found : storage.find other <;> simp [found]
  | getAllStates => simp
  | updateState => exact find_of_target rfl (find_onStored _ _ _ _ _ (by simp))
  | recordSuccessWithCloseCheck
  | recordFailureWithOpenCheck
  | tripToOpen
  | tryAcquireHalfOpenSlot =>
    exact find_of_target rfl (find_onRow _ _ _ _ _ (by simp))
  | clearManualControl
  | reset
  | atomicReset
  | resetHalfOpenCount =>
    exact find_of_target rfl (find_onStored _ _ _ _ _ (fun _ => rfl))
  | _ => exact find_of_target rfl (find_onRow _ _ _ _ _ (fun _ => rfl))

end InMemory

end

end Baldur.CircuitBreaker
