import Baldur.CircuitBreaker.MemoryCore
import Baldur.CircuitBreaker.WindowCore
import Baldur.Lib.Prog

/-!
The circuit breaker service (`services/circuit_breaker/service.py`, `manual_control.py`) as programs over
single calls to repository, outcome window, clock and freeze gate.
-/

namespace Baldur.CircuitBreaker

inductive ServiceCall
  | now
  | systemEnabled
  | autoTransitionAllowed (serviceName : String) (newState : CircuitState)
  | repo (call : RepoCall)
  | window (call : WindowCall)

@[reducible] def ServiceCall.Answer : ServiceCall → Type
  | .now => Time
  | .systemEnabled => Bool
  | .autoTransitionAllowed _ _ => Bool
  | .repo call => call.Answer
  | .window call => call.Answer

abbrev ServiceProg := Prog ServiceCall ServiceCall.Answer

structure Service where
  config : CircuitBreakerConfig
  effectiveConfig : String → CircuitBreakerConfig
  /-- A checker that raises answers `none` and is passed over. -/
  downstreamCheckers : List (String → Option Bool) := []

structure CircuitBreakerDecision where
  allowed : Bool
  state : Row
  windowEpoch : Nat := 0

structure CircuitBreakerResult where
  success : Bool
  serviceName : String
  previousState : Option CircuitState := none
  newState : Option CircuitState := none
  message : String := ""
  error : Option String := none
  expiresAt : Option Time := none
  deriving DecidableEq

structure SweepResult where
  success : Bool
  message : String := ""
  transitioned : List String := []
  deriving DecidableEq

structure AggregateFailureEvidence where
  failures : Int
  totalCalls : Int
  openCircuits : Nat
  fleetRead : Bool
  trippedFailures : Int
  trippedCalls : Int
  trippedNames : List String
  deriving DecidableEq

inductive RefusalReason
  | opened
  | frozen
  deriving DecidableEq

def isOperatorBlockInForce (row : Row) (now : Time) : Bool :=
  row.state = .opened && row.manuallyControlled && row.isPinActive now

/-- The operator's own pinned OPEN whose lifetime has passed, lift not yet taken. -/
def isPinLiftDue (row : Row) (now : Time) : Bool :=
  row.manuallyControlled && row.state = .opened &&
    match row.manualOverrideExpiresAt with
    | none => false
    | some expiry => decide (expiry ≤ now) &&
        match row.openedAt with
        | none => true
        | some openedAt => decide (openedAt ≤ expiry)

def maxManualOverrideTtlMinutes : Int := 1440

def rejectOutOfRangeTtl (serviceName : String) (ttlMinutes : Option Int) : Option CircuitBreakerResult :=
  match ttlMinutes with
  | none => none
  | some ttl =>
      if ttl < 1 ∨ ttl > maxManualOverrideTtlMinutes then
        some { success := false, serviceName := serviceName
               error := some ("ttl_minutes must be between 1 and 1440 (got: " ++ toString ttl ++ ")") }
      else
        none

namespace Service

def now : ServiceProg Time :=
  Prog.perform ServiceCall.now

def repo (call : RepoCall) : ServiceProg call.Answer :=
  Prog.perform (ServiceCall.repo call)

def window (call : WindowCall) : ServiceProg call.Answer :=
  Prog.perform (ServiceCall.window call)

def autoTransitionAllowed (serviceName : String) (newState : CircuitState) : ServiceProg Bool :=
  Prog.perform (ServiceCall.autoTransitionAllowed serviceName newState)

def isManualPinActive (row : Row) : ServiceProg Bool := do
  let instant ← now
  return row.isPinActive instant

variable (service : Service)

/-- The row a writer decides on, reported to the window as of the epoch read before it. -/
def readObserved (name : String) : ServiceProg (Nat × Row) := do
  let epoch : Nat ← window (.epochOf name)
  let row : Row ← repo (.getOrCreate name)
  let _ ← window (.observeState name row.state (some epoch))
  return (epoch, row)

def recordRejection (name : String) (row : Row) : ServiceProg Unit := do
  if ← isManualPinActive row then
    return ()
  else
    window (.recordRejection name (service.effectiveConfig name).slidingWindowSize)

def openRowRefuses (row : Row) (recoveryTimeout : Int) : ServiceProg Bool := do
  if row.state = .opened then
    if isOperatorBlockInForce row (← now) then
      return true
    else if isPinLiftDue row (← now) then
      return false
    else
      match row.openedAt with
      | none => return true
      | some openedAt => return decide ((← now) - openedAt < seconds recoveryTimeout)
  else
    return false

def admissionRefusalReason (name : String) (row : Row) : ServiceProg (Option RefusalReason) := do
  if ← openRowRefuses row (service.effectiveConfig name).recoveryTimeout then
    return some .opened
  else if ← autoTransitionAllowed name .halfOpen then
    return none
  else
    return some .frozen

def downstreamAllows (name : String) : Bool :=
  service.downstreamCheckers.all fun checker => checker name ≠ some false

def acquireTrial (name : String) (row : Row) : ServiceProg CircuitBreakerDecision := do
  let config := service.effectiveConfig name
  let attempt : SlotAttempt ← repo (.tryAcquireHalfOpenSlot name config.halfOpenMaxCalls
    config.halfOpenStuckTimeoutSeconds)
  let updated := { row with state := attempt.new }
  let _ ← window (.observeState name updated.state none)
  if attempt.allowed = false ∧ updated.state ≠ .closed then
    service.recordRejection name updated
    return { allowed := attempt.allowed, state := updated }
  else
    return { allowed := attempt.allowed, state := updated }

def evaluateAdmission (name : String) : ServiceProg CircuitBreakerDecision := do
  if service.downstreamAllows name then
    let (windowEpoch, row) ← readObserved name
    if row.state = .closed then
      return { allowed := true, state := row, windowEpoch := windowEpoch }
    else
      match ← service.admissionRefusalReason name row with
      | some _ =>
          service.recordRejection name row
          return { allowed := false, state := row }
      | none => service.acquireTrial name row
  else
    let row ← repo (.getOrCreate name)
    return { allowed := false, state := row }

def shouldAllowWithState (name : String) : ServiceProg CircuitBreakerDecision := do
  if service.config.enabled then
    service.evaluateAdmission name
  else
    let row ← repo (.getOrCreate name)
    return { allowed := true, state := row }

def tripCircuitOpen (name : String) (updated : Row) : ServiceProg CircuitBreakerOpenAttempt := do
  let attempt : CircuitBreakerOpenAttempt ← repo (.tripToOpen name updated.failureCount)
  match attempt.state with
  | .pinned =>
      window (.clear name)
      return attempt
  | .stored state =>
      let _ ← window (.observeState name state none)
      return attempt
  | .missing => return attempt

def failTrial (name : String) : ServiceProg Unit := do
  if ← autoTransitionAllowed name .opened then
    let attempt : CircuitBreakerOpenAttempt ← repo (.recordFailureWithOpenCheck name)
    match attempt.state with
    | .stored state =>
        let _ ← window (.observeState name state none)
        return ()
    | _ => return ()
  else
    return ()

def countFailure (name : String) : ServiceProg Unit := do
  let config := service.effectiveConfig name
  window (.beginWrite name)
  let updated : Row ← repo (.recordFailure name)
  window (.endWrite name)
  let _ ← window (.observeState name updated.state none)
  if updated.state = .closed then
    window (.recordFailure name config.slidingWindowSize)
    let evidence : Nat × Nat ← window (.read name)
    if (evaluateTrip updated.failureCount evidence.1 evidence.2 config).isSome then
      if ← autoTransitionAllowed name .opened then
        let _ ← tripCircuitOpen name updated
        return ()
      else
        return ()
    else
      return ()
  else
    let _ ← window (.read name)
    return ()

def recordFailure (name : String) : ServiceProg Unit := do
  if service.config.enabled then
    let (_, row) ← readObserved name
    if ← isManualPinActive row then
      return ()
    else if row.state = .halfOpen then
      failTrial name
    else
      service.countFailure name
  else
    return ()

/-- The read-free append, taken on a steady-state hint whose epoch still holds. -/
def recordSuccessByHint (name : String) (hintState : Option Row)
    (hintEpoch : Option Nat) : ServiceProg Bool := do
  match hintState, hintEpoch with
  | some hint, some epoch =>
      if hint.serviceName = name ∧ hint.state = .closed then
        if ← isManualPinActive hint then
          return false
        else if hint.failureCount = 0 then
          window (.recordSuccessIfEpoch name (service.effectiveConfig name).slidingWindowSize epoch true)
        else
          return false
      else
        return false
  | _, _ => return false

def succeedTrial (name : String) : ServiceProg Unit := do
  if ← autoTransitionAllowed name .closed then
    let attempt : CircuitBreakerCloseAttempt ←
      repo (.recordSuccessWithCloseCheck name (service.effectiveConfig name).successThreshold)
    match attempt.state with
    | .stored state =>
        let _ ← window (.observeState name state none)
        return ()
    | _ => return ()
  else
    return ()

def recordSuccessOnRow (name : String) : ServiceProg Unit := do
  let (readEpoch, row) ← readObserved name
  if ← isManualPinActive row then
    return ()
  else
    match row.state with
    | .halfOpen => service.succeedTrial name
    | .closed =>
        let _ ← window (.recordSuccessIfEpoch name (service.effectiveConfig name).slidingWindowSize readEpoch false)
        if row.failureCount ≠ 0 then
          let _ ← repo (.updateState name { state := .closed, failureCount := some 0, keepOpen := true })
          return ()
        else
          return ()
    | .opened => return ()

def recordSuccess (name : String) (hintState : Option Row)
    (hintEpoch : Option Nat) : ServiceProg Unit := do
  if service.config.enabled then
    if ← service.recordSuccessByHint name hintState hintEpoch then
      return ()
    else
      service.recordSuccessOnRow name
  else
    return ()

def dueForRecovery (rows : List Row) : ServiceProg (List Row) :=
  rows.foldlM (fun due row => do
    match row.openedAt with
    | none => return due
    | some openedAt =>
        let instant ← now
        if seconds (service.effectiveConfig row.serviceName).recoveryTimeout ≤ instant - openedAt then
          return due ++ [row]
        else
          return due) []

def checkRecoveryTransitions : ServiceProg SweepResult := do
  if service.config.enabled then
    let allStates : List Row ← repo .getAllStates
    let openStates := allStates.filter fun row => row.state = .opened && !row.manuallyControlled
    let due ← service.dueForRecovery openStates
    if ← autoTransitionAllowed "*" .halfOpen then
      let transitioned ← due.foldlM (fun done row => do
        let _ ← repo (.updateState row.serviceName { state := .halfOpen, successCount := some 0 })
        return done ++ [row.serviceName]) ([] : List String)
      return { success := true, transitioned := transitioned }
    else
      return { success := true, message := "frozen" }
  else
    return { success := true, message := "Circuit breaker disabled" }

def checkKillSwitch (name : String) (overrideKillSwitch : Bool) : ServiceProg (Option CircuitBreakerResult) := do
  let enabled : Bool ← Prog.perform ServiceCall.systemEnabled
  if enabled || overrideKillSwitch then
    return none
  else
    return some
      { success := false, serviceName := name
        error := some "Kill Switch is active: use override_kill_switch=True for manual control" }

def readBackOverrideExpiry (name : String) : ServiceProg (Option Time) := do
  let row : Option Row ← repo (.getByServiceName name)
  return row.bind fun row => row.manualOverrideExpiresAt

def finishForce (name : String) (result : ForceResult) (already changed : String) :
    ServiceProg CircuitBreakerResult := do
  let expiresAt ← readBackOverrideExpiry name
  window (.clear name)
  repo (.resetHalfOpenCount name)
  return { success := true, serviceName := name
           previousState := result.previous, newState := result.new
           message := if result.previous = result.new then already else changed ++ name
           expiresAt := expiresAt }

def forceBy (write : Option Int → ServiceProg ForceResult) (already changed failed : String)
    (name : String) (overrideKillSwitch : Bool) (ttlMinutes : Option Int) :
    ServiceProg CircuitBreakerResult := do
  match rejectOutOfRangeTtl name ttlMinutes with
  | some rejected => return rejected
  | none =>
      match ← checkKillSwitch name overrideKillSwitch with
      | some blocked => return blocked
      | none =>
          let result ← write (some (ttlMinutes.getD service.config.manualOverrideTtlMinutes))
          if result.success then
            finishForce name result already changed
          else
            return { success := false, serviceName := name, error := some failed }

def forceOpen (name reason : String) (overrideKillSwitch : Bool) (ttlMinutes : Option Int) :
    ServiceProg CircuitBreakerResult :=
  service.forceBy (fun ttl => repo (.atomicForceOpen name reason none ttl))
    "Circuit breaker already open" "Circuit breaker opened for "
    "Failed to force open circuit breaker" name overrideKillSwitch ttlMinutes

def forceClose (name reason : String) (overrideKillSwitch : Bool) (ttlMinutes : Option Int) :
    ServiceProg CircuitBreakerResult :=
  service.forceBy (fun ttl => repo (.atomicForceClose name reason none ttl))
    "Circuit breaker already closed" "Circuit breaker closed for "
    "Failed to force close circuit breaker" name overrideKillSwitch ttlMinutes

def reset (name reason : String) : ServiceProg CircuitBreakerResult := do
  let result : ForceResult ← repo (.atomicReset name reason)
  if result.success then
    window (.clear name)
    return { success := true, serviceName := name
             previousState := result.previous, newState := result.new
             message := "Circuit breaker reset for " ++ name }
  else
    return { success := false, serviceName := name
             error := some ("Circuit breaker for '" ++ name ++ "' does not exist") }

def overrideHasLapsed (row : Row) (now : Time) : Bool :=
  row.manuallyControlled && match row.manualOverrideExpiresAt with
    | none => false
    | some expiry => decide (expiry ≤ now)

def expireOverride (name : String) : ServiceProg Bool := do
  let stored : Option Row ← repo (.getByServiceName name)
  match stored with
  | none => return false
  | some fresh =>
      if fresh.manuallyControlled then
        if ← isManualPinActive fresh then
          return false
        else if isPinLiftDue fresh (← now) then
          return false
        else
          let _ ← repo (.clearManualControl fresh.serviceName true)
          return true
      else
        return false

def checkAndExpireManualOverrides : ServiceProg (List String) := do
  let allStates : List Row ← repo .getAllStates
  let currentTime ← now
  allStates.foldlM (fun expired row => do
    if overrideHasLapsed row currentTime then
      if ← expireOverride row.serviceName then
        return expired ++ [row.serviceName]
      else
        return expired
    else
      return expired) []

def extendManualOverride (name : String) (additionalMinutes : Int) (controlledById : Option Int)
    (reason : String) : ServiceProg CircuitBreakerResult := do
  match rejectOutOfRangeTtl name (some additionalMinutes) with
  | some rejected => return rejected
  | none =>
      let stored : Option Row ← repo (.getByServiceName name)
      match stored with
      | none =>
          return { success := false, serviceName := name
                   error := some ("Circuit breaker for '" ++ name ++ "' does not exist") }
      | some row =>
          if row.manuallyControlled then
            let currentTime ← now
            let base := row.manualOverrideExpiresAt.getD currentTime
            let expiresAt := max base currentTime + minutes additionalMinutes
            let newReason :=
              if reason = "" then row.controlReason
              else row.controlReason ++ " | Extended: " ++ reason
            let _ ← repo (.setManualControl name row.state controlledById newReason (some expiresAt))
            window (.bump name)
            return { success := true, serviceName := name
                     previousState := some row.state, newState := some row.state
                     message := "Manual override extended by " ++ toString additionalMinutes ++ " minutes" }
          else
            return { success := false, serviceName := name
                     error := some "Circuit is not under manual control" }

def trippedRow (now : Time) (localRow clusterRow : Option Row) : Option Row :=
  let rows := localRow.toList ++ clusterRow.toList
  if rows.any fun row => row.isPinActive now then
    none
  else
    rows.find? fun row => row.state ≠ .closed

def heldOnOwnRow (now : Time) (localRow : Option Row) : Bool :=
  match localRow with
  | none => false
  | some row => row.state ≠ .closed && !row.isPinActive now

def addNameEvidence (perName : List (String × Nat × Nat))
    (localRows clusterRows : List Row) (total : AggregateFailureEvidence)
    (name : String) : ServiceProg AggregateFailureEvidence := do
  let instant ← now
  let observed := (perName.lookup name).getD (0, 0)
  let localRow := localRows.find? fun row => row.serviceName = name
  let clusterRow := clusterRows.find? fun row => row.serviceName = name
  let tripped := trippedRow instant localRow clusterRow
  let failures : Int := match tripped with
    | none => observed.1
    | some row => max observed.1 (max row.failureCount (service.effectiveConfig name).failureThreshold)
  let calls : Int := observed.2 + (failures - observed.1)
  let held := tripped.isSome || heldOnOwnRow instant localRow
  return { failures := total.failures + failures
           totalCalls := total.totalCalls + calls
           openCircuits := total.openCircuits + if tripped.isSome then 1 else 0
           fleetRead := total.fleetRead
           trippedFailures := total.trippedFailures + if held then failures else 0
           trippedCalls := total.trippedCalls + if held then calls else 0
           trippedNames := if held then total.trippedNames ++ [name] else total.trippedNames }

def observeRows (epochsBefore : String → Nat) (rows : List Row) : ServiceProg Unit :=
  rows.foldlM (fun _ row => do
    let _ ← window (.observeState row.serviceName row.state (some (epochsBefore row.serviceName)))
    return ()) ()

/-- The in-memory adapter's cluster view is its own (`get_cluster_states`). -/
def clusterStates (fleet : Bool) : ServiceProg (List Row) :=
  if fleet then repo .getAllStates else pure []

def getAggregateFailureEvidence (fleet : Bool) : ServiceProg AggregateFailureEvidence := do
  let epochsBefore : String → Nat ← window .epochsSnapshot
  let localRows : List Row ← repo .getAllStates
  observeRows epochsBefore localRows
  let clusterRows ← clusterStates fleet
  let perName : List (String × Nat × Nat) ← window .readEach
  let names := (perName.map (·.1) ++ localRows.map (·.serviceName) ++ clusterRows.map (·.serviceName)).eraseDups
  let total ← names.foldlM (service.addNameEvidence perName localRows clusterRows)
    { failures := 0, totalCalls := 0, openCircuits := 0, fleetRead := fleet
      trippedFailures := 0, trippedCalls := 0, trippedNames := [] }
  return { total with trippedNames := total.trippedNames.mergeSort fun a b => decide (a ≤ b) }

end Service

end Baldur.CircuitBreaker
