import Baldur.CircuitBreaker.RedisCore
import Baldur.CircuitBreaker.ServiceCore

/-!
The layered repository (`adapters/memory/layered_repository`): slot acquires, close checks, open checks and
trips are decided by the store and written back to L1; all else is an L1 write and then a mirror of the row.
-/

namespace Baldur.CircuitBreaker

inductive Lane
  | read
  | acquire
  | closeCheck
  | openCheck
  | trip
  | counter
  | mirror
  | repair
  | closeThrough
  | manual
  deriving DecidableEq

inductive Reply (α : Type)
  | answered (value : α)
  | timedOut
  | raised

inductive L1Call
  | repo (call : RepoCall)
  | hydrateSnapshot (snapshot : Row) (skipIfLocalPinActive : Bool)
  | convergeToClosedUnlessPinned (serviceName : String)
  | resetCounts (serviceName : String)

@[reducible] def L1Call.Answer : L1Call → Type
  | .repo call => call.Answer
  | .hydrateSnapshot _ _ => Bool
  | .convergeToClosedUnlessPinned _ => Bool
  | .resetCounts _ => Bool

inductive LocalCall
  | window (call : WindowCall)
  | l1 (call : L1Call)
  | repairRead (lane : Lane) (serviceName : String)
  | clusterStatePropagationEnabled
  | l2Healthy
  | l2BackendIsDegraded
  /-- Answers whether the link had been quarantined, which schedules a drift pass. -/
  | handleL2Success
  | handleL2Failure
  /-- The lock hold of `_sync_to_l2_async`; answers whether the caller has to submit a task. -/
  | mirrorEnqueue (serviceName : String)
  /-- Answers whether the executor took the task. -/
  | submitMirrorTask (serviceName : String)
  | mirrorWithdraw (serviceName : String)
  | mirrorClearDirty (serviceName : String)
  /-- The final check of `_run_mirror_task`; answers whether the service was released. -/
  | mirrorRelease (serviceName : String)
  | convergenceSuppressed (serviceName : String)
  | acquireConvergenceSlot
  | releaseConvergenceSlot
  | reserveConvergence (serviceName : String)
  | submitConvergence (serviceName : String)

@[reducible] def LocalCall.Answer : LocalCall → Type
  | .window call => call.Answer
  | .l1 call => call.Answer
  | .repairRead _ _ => Option Row
  | .clusterStatePropagationEnabled => Bool
  | .l2Healthy => Bool
  | .l2BackendIsDegraded => Bool
  | .handleL2Success => Bool
  | .handleL2Failure => Unit
  | .mirrorEnqueue _ => Bool
  | .submitMirrorTask _ => Bool
  | .mirrorWithdraw _ => Unit
  | .mirrorClearDirty _ => Unit
  | .mirrorRelease _ => Bool
  | .convergenceSuppressed _ => Bool
  | .acquireConvergenceSlot => Bool
  | .releaseConvergenceSlot => Unit
  | .reserveConvergence _ => Bool
  | .submitConvergence _ => Bool

inductive LayeredCall
  | now
  | systemEnabled
  | autoTransitionAllowed (serviceName : String) (newState : CircuitState)
  | inside (call : LocalCall)
  | l2 (lane : Lane) (command : RedisCommand)

@[reducible] def LayeredCall.Answer : LayeredCall → Type
  | .now => Time
  | .systemEnabled => Bool
  | .autoTransitionAllowed _ _ => Bool
  | .inside call => call.Answer
  | .l2 _ command => Reply command.Answer

abbrev LayeredProg := Prog LayeredCall LayeredCall.Answer

namespace Layered

def now : LayeredProg Time :=
  Prog.perform LayeredCall.now

def inside (call : LocalCall) : LayeredProg call.Answer :=
  Prog.perform (LayeredCall.inside call)

def l1 (call : RepoCall) : LayeredProg call.Answer :=
  Prog.perform (LayeredCall.inside (.l1 (.repo call)))

def l2 (lane : Lane) (command : RedisCommand) : LayeredProg (Reply command.Answer) :=
  Prog.perform (LayeredCall.l2 lane command)

def onAnswer {α β : Type} (reply : Reply α) (rest : α → LayeredProg (Reply β)) : LayeredProg (Reply β) :=
  match reply with
  | .answered value => rest value
  | .timedOut => return .timedOut
  | .raised => return .raised

end Layered

def StateUpdate.fields (update : StateUpdate) (now : Time) : HashUpdate where
  state := some update.state
  failureCount := update.failureCount
  successCount := update.successCount
  openedAt := if update.clearOpenedAt then some .empty else update.openedAt.map .value
  lastFailureAt := update.lastFailureAt.map .value
  halfOpenRequestCount :=
    if update.resetHalfOpenCount then some 0 else update.halfOpenRequestCount
  halfOpenWindowStartedAt := if update.resetHalfOpenCount then some .empty else none
  updatedAt := some (.value now)

def StateUpdate.declinedBy (update : StateUpdate) (existing : Option Row) (now : Time) : Bool :=
  match existing with
  | none => false
  | some row => update.skipIfPinned && row.isPinActive now || update.keepOpen && row.state ≠ .closed

namespace Redis

open Layered

variable (lane : Lane) (name : String)

def getState : LayeredProg (Reply (Option Row)) := do
  onAnswer (← l2 lane (.hgetall name)) fun (hash : Hash) =>
    return .answered (if hash = {} then none else some (hash.toData name))

def defaultFields (now : Time) : HashUpdate where
  state := some .closed
  failureCount := some 0
  successCount := some 0
  halfOpenRequestCount := some 0
  manuallyControlled := some false
  controlReason := some ""
  updatedAt := some (.value now)

def getOrCreate : LayeredProg (Reply Row) := do
  onAnswer (← getState lane name) fun existing => do
    match existing with
    | some row => return .answered row
    | none =>
        let instant ← now
        onAnswer (← l2 lane (.hset name (defaultFields instant))) fun _ =>
          return .answered ((({} : Hash).hset (defaultFields instant)).toData name)

/-- A keep-open CLOSED write is declined while the backend answers from its local fallback. -/
def declinesClosedWriteOnDegradedBackend (update : StateUpdate) : LayeredProg Bool := do
  if update.keepOpen && update.state = .closed then
    inside .l2BackendIsDegraded
  else
    return false

def guardedReadCheckWrite (update : StateUpdate) (stamp : Time) : LayeredProg (Reply Bool) := do
  if ← declinesClosedWriteOnDegradedBackend update then
    return .answered true
  else
    onAnswer (← getState lane name) fun existing => do
      let instant ← now
      if update.declinedBy existing instant then
        return .answered true
      else if ← declinesClosedWriteOnDegradedBackend update then
        return .answered true
      else
        onAnswer (← l2 lane (.hset name (update.fields stamp))) fun _ => return .answered true

/-- A script that raises falls back to the read-check-write. -/
def writeUnlessPinned (update : StateUpdate) (stamp : Time) : LayeredProg (Reply Bool) := do
  if ← declinesClosedWriteOnDegradedBackend update then
    return .answered true
  else
    match ← l2 lane (.evalUpdateState name update.skipIfPinned update.keepOpen (update.fields stamp) stamp) with
    | .answered _ => return .answered true
    | .timedOut => return .timedOut
    | .raised => guardedReadCheckWrite lane name update stamp

def updateState (update : StateUpdate) : LayeredProg (Reply Bool) := do
  let instant ← now
  if update.skipIfPinned || update.keepOpen then
    writeUnlessPinned lane name update instant
  else
    onAnswer (← l2 lane (.hset name (update.fields instant))) fun _ => return .answered true

def tryAcquireHalfOpenSlot (limit stuckTimeoutSeconds : Int) : LayeredProg (Reply SlotAttempt) := do
  let instant ← now
  l2 lane (.evalTryAcquireHalfOpenSlot name limit stuckTimeoutSeconds instant)

def recordSuccessWithCloseCheck (successThreshold : Int) : LayeredProg (Reply CircuitBreakerCloseAttempt) := do
  let instant ← now
  l2 lane (.evalRecordSuccessWithCloseCheck name successThreshold instant)

def recordFailureWithOpenCheck : LayeredProg (Reply CircuitBreakerOpenAttempt) := do
  let instant ← now
  l2 lane (.evalRecordFailureWithOpenCheck name instant)

def tripToOpen (failureCount : Int) : LayeredProg (Reply CircuitBreakerOpenAttempt) := do
  let instant ← now
  l2 lane (.evalTripToOpen name failureCount instant)

def resetHalfOpenCount : LayeredProg (Reply Unit) := do
  let instant ← now
  l2 lane (.hset name { halfOpenRequestCount := some 0, halfOpenWindowStartedAt := some .empty
                        updatedAt := some (.value instant) })

def setManualControl (state : CircuitState) (controlledById : Option Int) (reason : String)
    (expiresAt : Option Time) : LayeredProg (Reply Unit) := do
  let instant ← now
  l2 lane (.hset name { state := some state, manuallyControlled := some true
                        controlReason := some reason
                        controlledById := controlledById.map .value
                        manualOverrideExpiresAt := expiresAt.map .value
                        updatedAt := some (.value instant) })

def clearManualControl (preserveReason : Bool) : LayeredProg (Reply Unit) := do
  let instant ← now
  l2 lane (.hset name { manuallyControlled := some false, controlledById := some .empty
                        manualOverrideExpiresAt := some .empty
                        controlReason := if preserveReason then none else some ""
                        updatedAt := some (.value instant) })

def atomicReset : LayeredProg (Reply Unit) := do
  onAnswer (← getOrCreate lane name) fun _ => do
    let instant ← now
    l2 lane (.hset name { state := some .closed, failureCount := some 0, successCount := some 0
                          halfOpenRequestCount := some 0, halfOpenWindowStartedAt := some .empty
                          manuallyControlled := some false, controlReason := some ""
                          controlledById := some .empty, openedAt := some .empty
                          manualOverrideExpiresAt := some .empty
                          updatedAt := some (.value instant) })

end Redis

namespace Layered

section

variable (lane : Lane) (name : String)

def mirrorSkippedOnDegradedBackend (row : Row) (keepOpen : Bool) : LayeredProg Bool := do
  if !keepOpen || row.state ≠ .closed then
    return false
  else
    inside .l2BackendIsDegraded

def ensureL2RowForMirror (row : Row) (keepOpen : Bool) : LayeredProg (Reply Bool) := do
  if !keepOpen || row.state ≠ .closed then
    onAnswer (← Redis.getOrCreate lane name) fun _ => return .answered true
  else
    onAnswer (← Redis.getState lane name) fun existing => do
      match existing with
      | some _ => return .answered true
      | none =>
          if ← mirrorSkippedOnDegradedBackend row keepOpen then
            return .answered false
          else
            onAnswer (← Redis.getOrCreate lane name) fun _ => return .answered true

def snapshotUpdate (row : Row) (skipIfPinned keepOpen : Bool) : StateUpdate where
  state := row.state
  failureCount := some row.failureCount
  successCount := some row.successCount
  openedAt := row.openedAt
  clearOpenedAt := row.openedAt.isNone
  skipIfPinned := skipIfPinned
  keepOpen := keepOpen

/-- `_sync_to_l2_inline`; `_sync_to_l2_with_timeout` sends the same commands from an executor
thread. `none` is a mirror that stood down. -/
def syncToL2 (row : Row) (skipIfPinned keepOpen : Bool) : LayeredProg (Option Bool) := do
  if ← mirrorSkippedOnDegradedBackend row keepOpen then
    return none
  else
    match ← ensureL2RowForMirror lane name row keepOpen with
    | .answered false => return none
    | .answered true =>
        match ← Redis.updateState lane name (snapshotUpdate row skipIfPinned keepOpen) with
        | .answered _ =>
            let _ ← inside .handleL2Success
            return some true
        | _ =>
            inside .handleL2Failure
            return some false
    | _ =>
        inside .handleL2Failure
        return some false

def resolveRepairRow : LayeredProg (Option Row) := do
  let row : Option Row ← inside (.repairRead lane name)
  match row with
  | none => return none
  | some row =>
      let instant ← now
      return if row.isPinActive instant then none else some row

def repairRowToL2 : LayeredProg (Option Bool) := do
  match ← resolveRepairRow lane name with
  | none => return none
  | some row => syncToL2 lane name row true true

/-- One turn of `_run_mirror_task`; the release starts the next one when the service is dirty. -/
def mirrorPass : LayeredProg Unit := do
  inside (.mirrorClearDirty name)
  let _ ← repairRowToL2 .mirror name
  let _ ← inside (.mirrorRelease name)
  return ()

def syncToL2Async : LayeredProg Unit := do
  if ← inside .l2Healthy then
    if ← inside (.mirrorEnqueue name) then
      if ← inside (.submitMirrorTask name) then
        return ()
      else
        inside (.mirrorWithdraw name)
    else
      return ()
  else
    return ()

/-- `_sync_close_to_l2`: the close of an L1-only process, written without the keep-open guard. -/
def syncCloseToL2 : LayeredProg (Option Bool) := do
  match ← resolveRepairRow .closeThrough name with
  | none => return none
  | some row =>
      if row.state = .closed then
        syncToL2 .closeThrough name row true false
      else
        return none

end

section

variable (name : String)

inductive ConvergenceOutcome
  | converged
  | repaired
  | repairFailed
  | skippedPinned
  | skipped
  | noop
  deriving DecidableEq

/-- A lost row is mirrored back, a stored CLOSED one is taken over. -/
def resolveRejectPathConvergence : LayeredProg ConvergenceOutcome := do
  if !(← inside .l2Healthy) then
    return .skipped
  else if ← inside .l2BackendIsDegraded then
    return .skipped
  else
    match ← Redis.getState .read name with
    | .answered remote =>
        if ← inside .l2BackendIsDegraded then
          return .skipped
        else
          let _ ← inside .handleL2Success
          match remote with
          | none =>
              match ← repairRowToL2 .repair name with
              | none => return .skippedPinned
              | some repaired => return if repaired then .repaired else .repairFailed
          | some row =>
              if row.state ≠ .closed then
                return .noop
              else if row.manuallyControlled then
                let applied ← inside (.l1 (.hydrateSnapshot row true))
                return if applied then .converged else .skippedPinned
              else
                let applied ← inside (.l1 (.convergeToClosedUnlessPinned name))
                return if applied then .converged else .skippedPinned
    | _ =>
        inside .handleL2Failure
        return .skipped

def runRejectPathConvergence : LayeredProg Unit := do
  let _ ← resolveRejectPathConvergence name
  inside .releaseConvergenceSlot

/-- A permit, the contradiction confirmed on L1, a reservation, and only then the task. -/
def submitRejectConvergence : LayeredProg Unit := do
  if ← inside .acquireConvergenceSlot then
    let row : Option Row ← l1 (.getByServiceName name)
    let contradicts := match row with
      | none => false
      | some row => row.state ≠ .closed
    if !contradicts then
      inside .releaseConvergenceSlot
    else if ← inside (.reserveConvergence name) then
      if ← inside (.submitConvergence name) then
        return ()
      else
        inside .releaseConvergenceSlot
    else
      inside .releaseConvergenceSlot
  else
    return ()

def maybeScheduleRejectConvergence (allowed : Bool) (newState : CircuitState) : LayeredProg Unit := do
  if allowed || newState ≠ .closed then
    return ()
  else if ← inside (.convergenceSuppressed name) then
    return ()
  else
    submitRejectConvergence name

end

section

variable (name : String)

def getByServiceName : LayeredProg (Option Row) := do
  let result : Option Row ← l1 (.getByServiceName name)
  match result with
  | some row => return some row
  | none =>
      if ← inside .l2Healthy then
        match ← Redis.getState .read name with
        | .answered none => return none
        | .answered (some remote) =>
            let _ ← inside (.l1 (.hydrateSnapshot remote false))
            let _ ← inside .handleL2Success
            l1 (.getByServiceName name)
        | _ =>
            inside .handleL2Failure
            return none
      else
        return none

def getOrCreate : LayeredProg Row := do
  if ← inside .clusterStatePropagationEnabled then
    match ← getByServiceName name with
    | some row => return row
    | none => l1 (.getOrCreate name)
  else
    l1 (.getOrCreate name)

def updateState (update : StateUpdate) : LayeredProg Bool := do
  let result : Bool ← l1 (.updateState name update)
  if result then
    syncToL2Async name
    if update.resetHalfOpenCount then
      let _ ← Redis.resetHalfOpenCount .counter name
      return result
    else
      return result
  else
    return result

def writebackL2StateToL1 (attempt : SlotAttempt) : LayeredProg Unit := do
  let _ ← l1 (.getOrCreate name)
  let restarts := attempt.previous = .opened ∧ attempt.new = .halfOpen
  let _ ← l1 (.updateState name { state := attempt.new
                                  successCount := if restarts then some 0 else none })
  return ()

def tryAcquireHalfOpenSlot (limit stuckTimeoutSeconds : Int) : LayeredProg SlotAttempt := do
  if ← inside .l2Healthy then
    match ← Redis.tryAcquireHalfOpenSlot .acquire name limit stuckTimeoutSeconds with
    | .answered attempt =>
        let _ ← inside .handleL2Success
        if attempt.allowed then
          writebackL2StateToL1 name attempt
          return attempt
        else
          maybeScheduleRejectConvergence name attempt.allowed attempt.new
          return attempt
    | _ =>
        inside .handleL2Failure
        l1 (.tryAcquireHalfOpenSlot name limit stuckTimeoutSeconds)
  else
    l1 (.tryAcquireHalfOpenSlot name limit stuckTimeoutSeconds)

def resetHalfOpenCount : LayeredProg Unit := do
  let _ ← Redis.resetHalfOpenCount .counter name
  l1 (.resetHalfOpenCount name)

def recordFailure : LayeredProg Row := do
  let result : Row ← l1 (.recordFailure name)
  syncToL2Async name
  return result

def recordSuccess : LayeredProg Row := do
  let result : Row ← l1 (.recordSuccess name)
  syncToL2Async name
  return result

def writebackClosed : LayeredProg Unit := do
  let _ ← inside (.l1 (.resetCounts name))
  let _ ← l1 (.updateState name { state := .closed, resetHalfOpenCount := true })
  return ()

def writebackCloseCheckToL1 (attempt : CircuitBreakerCloseAttempt) : LayeredProg Unit := do
  let _ ← l1 (.getOrCreate name)
  if attempt.state = .stored .closed then
    writebackClosed name
  else
    let _ ← l1 (.updateState name { state := .halfOpen, successCount := some attempt.successCount })
    return ()

def uncreditedCloseAttempt : LayeredProg CircuitBreakerCloseAttempt := do
  let row : Row ← l1 (.getOrCreate name)
  return ⟨.stored row.state, row.successCount, false⟩

def l1FallbackCloseCheck (successThreshold : Int) : LayeredProg CircuitBreakerCloseAttempt := do
  let attempt : CircuitBreakerCloseAttempt ← l1 (.recordSuccessWithCloseCheck name successThreshold)
  if attempt.didClose then
    let _ ← syncCloseToL2 name
    return attempt
  else
    syncToL2Async name
    return attempt

def recordSuccessWithCloseCheck (successThreshold : Int) : LayeredProg CircuitBreakerCloseAttempt := do
  if ← inside .l2Healthy then
    match ← Redis.recordSuccessWithCloseCheck .closeCheck name successThreshold with
    | .answered attempt =>
        let _ ← inside .handleL2Success
        if attempt.state = .stored .halfOpen ∨ attempt.state = .stored .closed then
          writebackCloseCheckToL1 name attempt
          return attempt
        else
          uncreditedCloseAttempt name
    | _ =>
        inside .handleL2Failure
        -- Only a quarantine makes L1 the authority; a blip credits nothing.
        if ← inside .l2Healthy then
          uncreditedCloseAttempt name
        else
          l1FallbackCloseCheck name successThreshold
  else
    l1FallbackCloseCheck name successThreshold

def l1FallbackOpenCheck : LayeredProg CircuitBreakerOpenAttempt := do
  let attempt : CircuitBreakerOpenAttempt ← l1 (.recordFailureWithOpenCheck name)
  syncToL2Async name
  return attempt

def writebackOpenCheckToL1 (attempt : CircuitBreakerOpenAttempt) : LayeredProg Unit := do
  let _ ← l1 (.getOrCreate name)
  if attempt.state = .stored .opened then
    let _ ← l1 (.updateState name { state := .opened, failureCount := some 0, successCount := some 0
                                    openedAt := attempt.openedAt, resetHalfOpenCount := true })
    return ()
  else
    writebackClosed name

def recordFailureWithOpenCheck : LayeredProg CircuitBreakerOpenAttempt := do
  if ← inside .l2Healthy then
    match ← Redis.recordFailureWithOpenCheck .openCheck name with
    | .answered attempt =>
        let _ ← inside .handleL2Success
        if attempt.state = .stored .opened ∨ attempt.state = .stored .closed then
          writebackOpenCheckToL1 name attempt
          return attempt
        else
          l1FallbackOpenCheck name
    | _ =>
        inside .handleL2Failure
        l1FallbackOpenCheck name
  else
    l1FallbackOpenCheck name

def l1FallbackTrip (failureCount : Int) : LayeredProg CircuitBreakerOpenAttempt := do
  let attempt : CircuitBreakerOpenAttempt ← l1 (.tripToOpen name failureCount)
  syncToL2Async name
  return attempt

def writebackTripToL1 (attempt : CircuitBreakerOpenAttempt) : LayeredProg Unit := do
  let _ ← l1 (.getOrCreate name)
  if attempt.state = .stored .opened then
    let _ ← l1 (.updateState name { state := .opened, openedAt := attempt.openedAt
                                    resetHalfOpenCount := true })
    return ()
  else
    let _ ← l1 (.updateState name { state := .halfOpen, successCount := some 0 })
    return ()

/-- A declined trip delivers the pinned row whole; the verdict stays declined either way. -/
def hydratePinnedTrip (attempt : CircuitBreakerOpenAttempt) : LayeredProg CircuitBreakerOpenAttempt := do
  match ← Redis.getState .read name with
  | .answered (some remote) =>
      let _ ← inside (.l1 (.hydrateSnapshot remote true))
      return pinnedTripAttempt remote.manualOverrideExpiresAt
  | _ => return pinnedTripAttempt attempt.expiresAt

def tripToOpen (failureCount : Int) : LayeredProg CircuitBreakerOpenAttempt := do
  if ← inside .l2Healthy then
    match ← Redis.tripToOpen .trip name failureCount with
    | .answered attempt =>
        let _ ← inside .handleL2Success
        if attempt.state = .pinned then
          hydratePinnedTrip name attempt
        else if attempt.state = .stored .opened ∨ attempt.state = .stored .halfOpen then
          writebackTripToL1 name attempt
          syncToL2Async name
          return attempt
        else
          l1FallbackTrip name failureCount
    | _ =>
        inside .handleL2Failure
        l1FallbackTrip name failureCount
  else
    l1FallbackTrip name failureCount

def reset : LayeredProg Bool := do
  let result : Bool ← l1 (.reset name)
  if result then
    syncToL2Async name
    return result
  else
    return result

/-- `_sync_pin_to_l2`: bounded, and a failure only counts toward the quarantine. -/
def syncPinToL2 (write : LayeredProg (Reply Unit)) : LayeredProg Bool := do
  match ← write with
  | .answered _ =>
      let _ ← inside .handleL2Success
      return true
  | _ =>
      inside .handleL2Failure
      return false

/-- The state mirror, unguarded, and then the pin fields, after an L1 write that succeeded. -/
def writeManualControlThrough (pinWrite : Row → LayeredProg (Reply Unit)) : LayeredProg Unit := do
  let updated : Option Row ← l1 (.getByServiceName name)
  match updated with
  | none => return ()
  | some row =>
      let _ ← syncToL2 .manual name row false false
      let _ ← syncPinToL2 (pinWrite row)
      return ()

def pinFieldsWrite (row : Row) : LayeredProg (Reply Unit) :=
  Redis.setManualControl .manual row.serviceName row.state row.controlledById row.controlReason
    row.manualOverrideExpiresAt

def manualControl (call : RepoCall) (succeeded : call.Answer → Bool)
    (pinWrite : Row → LayeredProg (Reply Unit)) :
    LayeredProg call.Answer := do
  let result : call.Answer ← l1 call
  if succeeded result then
    writeManualControlThrough name pinWrite
    return result
  else
    return result

def atomicForceOpen (reason : String) (controlledById ttlMinutes : Option Int) : LayeredProg ForceResult :=
  manualControl name (.atomicForceOpen name reason controlledById ttlMinutes)
    (fun result : ForceResult => result.success) pinFieldsWrite

def atomicForceClose (reason : String) (controlledById ttlMinutes : Option Int) : LayeredProg ForceResult :=
  manualControl name (.atomicForceClose name reason controlledById ttlMinutes)
    (fun result : ForceResult => result.success) pinFieldsWrite

def atomicReset (reason : String) : LayeredProg ForceResult :=
  manualControl name (.atomicReset name reason) (fun result : ForceResult => result.success)
    fun _ => Redis.atomicReset .manual name

def setManualControl (state : CircuitState) (controlledById : Option Int) (reason : String)
    (expiresAt : Option Time) : LayeredProg Bool :=
  manualControl name (.setManualControl name state controlledById reason expiresAt)
    (fun result : Bool => result) pinFieldsWrite

def clearManualControl (preserveReason : Bool) : LayeredProg Bool :=
  manualControl name (.clearManualControl name preserveReason) (fun result : Bool => result)
    fun _ => Redis.clearManualControl .manual name preserveReason

def applyPeerCbState (newState : CircuitState) (openedAt : Option Time) : LayeredProg Bool := do
  let current : Option Row ← l1 (.getByServiceName name)
  if (current.map (·.state)).getD .closed = newState then
    return false
  else
    let _ ← l1 (.getOrCreate name)
    if newState = .opened then
      let _ ← l1 (.updateState name { state := .opened, failureCount := some 0
                                      successCount := some 0, openedAt := openedAt
                                      resetHalfOpenCount := true })
      return true
    else
      writebackClosed name
      return true

end

structure SyncReport where
  synced : Nat := 0
  failed : Nat := 0
  skipped : Nat := 0
  deriving DecidableEq

def SyncReport.count (report : SyncReport) : Option Bool → SyncReport
  | none => { report with skipped := report.skipped + 1 }
  | some true => { report with synced := report.synced + 1 }
  | some false => { report with failed := report.failed + 1 }

def forceSyncToL2 : LayeredProg SyncReport := do
  let rows : List Row ← l1 .getAllStates
  rows.foldlM (fun report row => do
    return report.count (← repairRowToL2 .repair row.serviceName)) {}

def repository : (call : RepoCall) → LayeredProg call.Answer
  | .getOrCreate name => getOrCreate name
  | .getByServiceName name => getByServiceName name
  | .getAllStates => l1 .getAllStates
  | .updateState name update => updateState name update
  | .recordFailure name => recordFailure name
  | .recordSuccess name => recordSuccess name
  | .recordSuccessWithCloseCheck name threshold => recordSuccessWithCloseCheck name threshold
  | .recordFailureWithOpenCheck name => recordFailureWithOpenCheck name
  | .tripToOpen name failureCount => tripToOpen name failureCount
  | .setManualControl name state controlledById reason expiresAt =>
      setManualControl name state controlledById reason expiresAt
  | .clearManualControl name preserveReason => clearManualControl name preserveReason
  | .reset name => reset name
  | .atomicForceOpen name reason controlledById ttlMinutes =>
      atomicForceOpen name reason controlledById ttlMinutes
  | .atomicForceClose name reason controlledById ttlMinutes =>
      atomicForceClose name reason controlledById ttlMinutes
  | .atomicReset name reason => atomicReset name reason
  | .tryAcquireHalfOpenSlot name limit stuckTimeoutSeconds =>
      tryAcquireHalfOpenSlot name limit stuckTimeoutSeconds
  | .resetHalfOpenCount name => resetHalfOpenCount name

def serve : (call : ServiceCall) → LayeredProg call.Answer
  | .now => now
  | .systemEnabled => Prog.perform LayeredCall.systemEnabled
  | .autoTransitionAllowed name state => Prog.perform (LayeredCall.autoTransitionAllowed name state)
  | .repo call => repository call
  | .window call => inside (.window call)

end Layered

inductive DriftReconciliationResult
  | l1Wins
  | l2Wins
  | timestampL1
  | timestampL2
  | timestampHalfOpenL1
  | timestampHalfOpenL2
  | noDrift
  | skipped
  deriving DecidableEq

namespace DriftReconciler

def statePriority : CircuitState → Nat
  | .opened => 3
  | .halfOpen => 2
  | .closed => 1

variable (l1State l2State : CircuitState) (l1UpdatedAt l2UpdatedAt : Option Time)

def resolveByTimestamp : CircuitState × DriftReconciliationResult :=
  match l1UpdatedAt, l2UpdatedAt with
  | some l1At, some l2At =>
      if l2At < l1At then (l1State, .timestampL1) else (l2State, .timestampL2)
  | some _, none => (l1State, .timestampL1)
  | none, some _ => (l2State, .timestampL2)
  | none, none => (l1State, .timestampL1)

/-- Exactly one side is HALF_OPEN: the newer one wins, and without timestamps HALF_OPEN does. -/
def resolveHalfOpenXor : CircuitState × DriftReconciliationResult :=
  match l1UpdatedAt, l2UpdatedAt with
  | some l1At, some l2At =>
      if l2At < l1At then (l1State, .timestampHalfOpenL1) else (l2State, .timestampHalfOpenL2)
  | some _, none => (l1State, .timestampHalfOpenL1)
  | none, some _ => (l2State, .timestampHalfOpenL2)
  | none, none =>
      if l2State = .halfOpen then (l2State, .timestampHalfOpenL2)
      else (l1State, .timestampHalfOpenL1)

def reconcile : CircuitState × DriftReconciliationResult :=
  if l1State = l2State then
    (l1State, .noDrift)
  else if xor (l1State = .halfOpen) (l2State = .halfOpen) then
    resolveHalfOpenXor l1State l2State l1UpdatedAt l2UpdatedAt
  else if statePriority l2State < statePriority l1State then
    (l1State, .l1Wins)
  else if statePriority l1State < statePriority l2State then
    (l2State, .l2Wins)
  else
    resolveByTimestamp l1State l2State l1UpdatedAt l2UpdatedAt

end DriftReconciler

def DriftReconciliationResult.routesToL1Repair (result : DriftReconciliationResult)
    (remote : Row) : Bool :=
  result = .l1Wins || result = .timestampL1 || result = .timestampHalfOpenL1 && !remote.manuallyControlled

namespace Layered

structure DriftReport where
  totalChecked : Nat := 0
  reconciled : Nat := 0
  l1Wins : Nat := 0
  l2Wins : Nat := 0
  errors : List String := []
  deriving DecidableEq

def resolveDrift (row remote : Row) : CircuitState × DriftReconciliationResult :=
  DriftReconciler.reconcile row.state remote.state row.updatedAt remote.updatedAt

def copyToL1 (remote : Row) : LayeredProg Bool :=
  l1 (.updateState remote.serviceName
    { state := remote.state, failureCount := some remote.failureCount
      successCount := some remote.successCount, openedAt := remote.openedAt })

def reconcileRow (report : DriftReport) (row : Row) : LayeredProg DriftReport := do
  match ← Redis.getState .read row.serviceName with
  | .timedOut => return report
  | .raised => return { report with errors := report.errors ++ [row.serviceName] }
  | .answered none =>
      let _ ← repairRowToL2 .repair row.serviceName
      return { report with reconciled := report.reconciled + 1, l1Wins := report.l1Wins + 1 }
  | .answered (some remote) =>
      if (resolveDrift row remote).2 = .noDrift then
        return report
      else if (resolveDrift row remote).2.routesToL1Repair remote then
        let _ ← repairRowToL2 .repair row.serviceName
        return { report with reconciled := report.reconciled + 1, l1Wins := report.l1Wins + 1 }
      else
        let _ ← copyToL1 remote
        return { report with reconciled := report.reconciled + 1, l2Wins := report.l2Wins + 1 }

def reconcileAllDrift : LayeredProg DriftReport := do
  let rows : List Row ← l1 .getAllStates
  rows.foldlM reconcileRow { totalChecked := rows.length }

inductive ReconcileAction
  | l1ToL2
  | l2ToL1
  | none
  deriving DecidableEq

/-- The answer of `reconcile_single_service`; the text of an L2 exception is left out. -/
structure SingleReconciliation where
  success : Bool
  action : Option ReconcileAction := none
  reason : String := ""
  result : Option DriftReconciliationResult := none
  winnerState : Option CircuitState := none
  deriving DecidableEq

def reconcileSingleService (name : String) : LayeredProg SingleReconciliation := do
  let stored : Option Row ← l1 (.getByServiceName name)
  match stored with
  | none => return { success := false, reason := "Service not found in L1" }
  | some row =>
      match ← Redis.getState .read name with
      | .timedOut => return { success := false, reason := "L2 timeout" }
      | .raised => return { success := false }
      | .answered none =>
          let _ ← repairRowToL2 .repair name
          return { success := true, action := some .l1ToL2
                   reason := "L2 had no state, synced from L1" }
      | .answered (some remote) =>
          let (winner, result) := resolveDrift row remote
          if result = .noDrift then
            return { success := true, action := some .none, reason := "No drift detected" }
          else if result.routesToL1Repair remote then
            let _ ← repairRowToL2 .repair name
            return { success := true, action := some .l1ToL2, result := some result
                     winnerState := some winner }
          else
            let _ ← copyToL1 remote
            return { success := true, action := some .l2ToL1, result := some result
                     winnerState := some winner }

end Layered

end Baldur.CircuitBreaker
