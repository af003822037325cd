import Baldur.Lib.Table

/-!
The circuit breaker row: the states, the stored fields and the rules every adapter shares
(`interfaces/repositories.py`). Instants are microseconds.
-/

namespace Baldur.CircuitBreaker

inductive CircuitState
  | closed
  | opened
  | halfOpen
  deriving DecidableEq

abbrev Time := Int

def seconds (amount : Int) : Time :=
  amount * 1000000

def minutes (amount : Int) : Time :=
  seconds (amount * 60)

def manualPinIsActive (manuallyControlled : Bool) (expiresAt : Option Time) (now : Time) : Bool :=
  manuallyControlled && match expiresAt with
    | none => true
    | some expiry => decide (now < expiry)

/-- No lifetime is stored for an absent or non-positive TTL. -/
def resolveManualOverrideExpiry (ttlMinutes : Option Int) (now : Time) : Option Time :=
  match ttlMinutes with
  | none => none
  | some ttl => if ttl ≤ 0 then none else some (now + minutes ttl)

structure CircuitBreakerStateData where
  serviceName : String
  state : CircuitState := .closed
  failureCount : Int := 0
  successCount : Int := 0
  lastFailureAt : Option Time := none
  openedAt : Option Time := none
  manuallyControlled : Bool := false
  controlledById : Option Int := none
  controlReason : String := ""
  manualOverrideExpiresAt : Option Time := none
  halfOpenRequestCount : Int := 0
  halfOpenWindowStartedAt : Option Time := none
  updatedAt : Option Time := none
  deriving DecidableEq

abbrev Row := CircuitBreakerStateData

namespace CircuitBreakerStateData

def isPinActive (row : CircuitBreakerStateData) (now : Time) : Bool :=
  manualPinIsActive row.manuallyControlled row.manualOverrideExpiresAt now

end CircuitBreakerStateData

inductive AttemptState
  | stored (state : CircuitState)
  | missing
  | pinned
  deriving DecidableEq

structure CircuitBreakerCloseAttempt where
  state : AttemptState
  successCount : Int
  didClose : Bool
  deriving DecidableEq

structure CircuitBreakerOpenAttempt where
  state : AttemptState
  openedAt : Option Time
  expiresAt : Option Time
  didOpen : Bool
  deriving DecidableEq

def pinnedTripAttempt (expiresAt : Option Time) : CircuitBreakerOpenAttempt :=
  ⟨.pinned, none, expiresAt, false⟩

structure SlotAttempt where
  allowed : Bool
  previous : CircuitState
  new : CircuitState
  deriving DecidableEq

/-- `(success, previous_state, new_state)`; the empty state texts are `none`. -/
structure ForceResult where
  success : Bool
  previous : Option CircuitState
  new : Option CircuitState
  deriving DecidableEq

structure StateUpdate where
  state : CircuitState
  failureCount : Option Int := none
  successCount : Option Int := none
  openedAt : Option Time := none
  lastFailureAt : Option Time := none
  halfOpenRequestCount : Option Int := none
  resetHalfOpenCount : Bool := false
  clearOpenedAt : Bool := false
  skipIfPinned : Bool := false
  keepOpen : Bool := false
  deriving DecidableEq

/-!
The operations of the state repository, with the answer each of them returns.
-/

inductive RepoCall
  | getOrCreate (serviceName : String)
  | getByServiceName (serviceName : String)
  | getAllStates
  | updateState (serviceName : String) (update : StateUpdate)
  | recordFailure (serviceName : String)
  | recordSuccess (serviceName : String)
  | recordSuccessWithCloseCheck (serviceName : String) (successThreshold : Int)
  | recordFailureWithOpenCheck (serviceName : String)
  | tripToOpen (serviceName : String) (failureCount : Int)
  | setManualControl (serviceName : String) (state : CircuitState) (controlledById : Option Int)
      (reason : String) (expiresAt : Option Time)
  | clearManualControl (serviceName : String) (preserveReason : Bool)
  | reset (serviceName : String)
  | atomicForceOpen (serviceName reason : String) (controlledById ttlMinutes : Option Int)
  | atomicForceClose (serviceName reason : String) (controlledById ttlMinutes : Option Int)
  | atomicReset (serviceName reason : String)
  | tryAcquireHalfOpenSlot (serviceName : String) (limit stuckTimeoutSeconds : Int)
  | resetHalfOpenCount (serviceName : String)
  deriving DecidableEq

@[reducible] def RepoCall.Answer : RepoCall → Type
  | .getOrCreate _ => CircuitBreakerStateData
  | .getByServiceName _ => Option CircuitBreakerStateData
  | .getAllStates => List CircuitBreakerStateData
  | .updateState _ _ => Bool
  | .recordFailure _ => CircuitBreakerStateData
  | .recordSuccess _ => CircuitBreakerStateData
  | .recordSuccessWithCloseCheck _ _ => CircuitBreakerCloseAttempt
  | .recordFailureWithOpenCheck _ => CircuitBreakerOpenAttempt
  | .tripToOpen _ _ => CircuitBreakerOpenAttempt
  | .setManualControl .. => Bool
  | .clearManualControl _ _ => Bool
  | .reset _ => Bool
  | .atomicForceOpen .. => ForceResult
  | .atomicForceClose .. => ForceResult
  | .atomicReset _ _ => ForceResult
  | .tryAcquireHalfOpenSlot _ _ _ => SlotAttempt
  | .resetHalfOpenCount _ => Unit

end Baldur.CircuitBreaker
