import Baldur.CircuitBreaker.RowCore

/-!
The Redis adapter (`adapters/redis/circuit_breaker.py`) on a live connection. A breaker is one hash; an
unwritten field is absent, a cleared one the empty text. A Lua script or an `HSET` is one command.
-/

namespace Baldur.CircuitBreaker

/-- A text field of a hash: never written, written as the empty text, or holding a value. -/
inductive Cell (α : Type)
  | absent
  | empty
  | value (content : α)
  deriving DecidableEq

def Cell.get {α : Type} : Cell α → Option α
  | .absent => none
  | .empty => none
  | .value content => some content

@[simp] theorem Cell.get_empty {α : Type} : (Cell.empty : Cell α).get = none := by
  rfl

@[simp] theorem Cell.get_value {α : Type} (content : α) : (Cell.value content).get = some content := by
  rfl

structure Hash where
  state : Option CircuitState := none
  failureCount : Option Int := none
  successCount : Option Int := none
  lastFailureAt : Cell Time := .absent
  openedAt : Cell Time := .absent
  manuallyControlled : Option Bool := none
  controlledById : Cell Int := .absent
  controlReason : Option String := none
  manualOverrideExpiresAt : Cell Time := .absent
  halfOpenRequestCount : Option Int := none
  halfOpenWindowStartedAt : Cell Time := .absent
  updatedAt : Cell Time := .absent
  deriving DecidableEq

/-- The field/value pairs of one `HSET`; a field that is `none` is not written. -/
structure HashUpdate where
  state : Option CircuitState := none
  failureCount : Option Int := none
  successCount : Option Int := none
  lastFailureAt : Option (Cell Time) := none
  openedAt : Option (Cell Time) := none
  manuallyControlled : Option Bool := none
  controlledById : Option (Cell Int) := none
  controlReason : Option String := none
  manualOverrideExpiresAt : Option (Cell Time) := none
  halfOpenRequestCount : Option Int := none
  halfOpenWindowStartedAt : Option (Cell Time) := none
  updatedAt : Option (Cell Time) := none
  deriving DecidableEq

namespace Hash

def hset (hash : Hash) (update : HashUpdate) : Hash where
  state := update.state.or hash.state
  failureCount := update.failureCount.or hash.failureCount
  successCount := update.successCount.or hash.successCount
  lastFailureAt := update.lastFailureAt.getD hash.lastFailureAt
  openedAt := update.openedAt.getD hash.openedAt
  manuallyControlled := update.manuallyControlled.or hash.manuallyControlled
  controlledById := update.controlledById.getD hash.controlledById
  controlReason := update.controlReason.or hash.controlReason
  manualOverrideExpiresAt := update.manualOverrideExpiresAt.getD hash.manualOverrideExpiresAt
  halfOpenRequestCount := update.halfOpenRequestCount.or hash.halfOpenRequestCount
  halfOpenWindowStartedAt := update.halfOpenWindowStartedAt.getD hash.halfOpenWindowStartedAt
  updatedAt := update.updatedAt.getD hash.updatedAt

def pinActive (manuallyControlled : Option Bool) (expiresAt : Cell Time) (now : Time) : Bool :=
  if manuallyControlled ≠ some true then
    false
  else
    match expiresAt.get with
    | none => true
    | some expiry => decide (now < expiry)

variable (hash : Hash)

def isPinActive (now : Time) : Bool :=
  pinActive hash.manuallyControlled hash.manualOverrideExpiresAt now

def windowIsStuck (stuckTimeoutSeconds : Int) (now : Time) : Bool :=
  match hash.halfOpenWindowStartedAt.get with
  | none => true
  | some watermark => decide (seconds stuckTimeoutSeconds < now - watermark)

def luaTryAcquireHalfOpenSlot (limit stuckTimeoutSeconds : Int) (now : Time) : Hash × SlotAttempt :=
  let state := hash.state.getD .closed
  let count := hash.halfOpenRequestCount.getD 0
  let restarted := hash.hset
    { state := some .halfOpen
      successCount := some 0
      halfOpenRequestCount := some 1
      halfOpenWindowStartedAt := some (.value now)
      updatedAt := some (.value now) }
  if state = .halfOpen ∧ limit ≤ count then
    if hash.windowIsStuck stuckTimeoutSeconds now then
      (restarted, ⟨true, .halfOpen, .halfOpen⟩)
    else
      (hash, ⟨false, .halfOpen, .halfOpen⟩)
  else if state = .opened then
    (restarted, ⟨true, .opened, .halfOpen⟩)
  else if state = .halfOpen ∧ count < limit then
    let incremented := hash.hset { halfOpenRequestCount := some (count + 1), updatedAt := some (.value now) }
    let adopted :=
      if hash.halfOpenWindowStartedAt.get = none then
        incremented.hset { halfOpenWindowStartedAt := some (.value now) }
      else
        incremented
    (adopted, ⟨true, .halfOpen, .halfOpen⟩)
  else
    (hash, ⟨false, state, state⟩)

def attemptState : AttemptState :=
  match hash.state with
  | none => .missing
  | some state => .stored state

def luaRecordSuccessWithCloseCheck (threshold : Int) (now : Time) : Hash × CircuitBreakerCloseAttempt :=
  if hash.state = some .halfOpen then
    let newCount := hash.successCount.getD 0 + 1
    if threshold ≤ newCount then
      (hash.hset
        { state := some .closed
          failureCount := some 0
          successCount := some 0
          openedAt := some .empty
          halfOpenRequestCount := some 0
          halfOpenWindowStartedAt := some .empty
          updatedAt := some (.value now) }, ⟨.stored .closed, 0, true⟩)
    else
      (hash.hset { successCount := some newCount, updatedAt := some (.value now) },
        ⟨.stored .halfOpen, newCount, false⟩)
  else
    (hash, ⟨hash.attemptState, 0, false⟩)

def luaRecordFailureWithOpenCheck (now : Time) : Hash × CircuitBreakerOpenAttempt :=
  if hash.state = some .halfOpen then
    (hash.hset
      { state := some .opened
        failureCount := some 0
        successCount := some 0
        openedAt := some (.value now)
        halfOpenRequestCount := some 0
        halfOpenWindowStartedAt := some .empty
        updatedAt := some (.value now) }, ⟨.stored .opened, some now, none, true⟩)
  else if hash.state = some .opened then
    (hash, ⟨.stored .opened, hash.openedAt.get, none, false⟩)
  else
    (hash, ⟨hash.attemptState, none, none, false⟩)

def luaTripToOpen (failureCount : Int) (now : Time) : Hash × CircuitBreakerOpenAttempt :=
  if hash.isPinActive now then
    (hash, pinnedTripAttempt hash.manualOverrideExpiresAt.get)
  else if hash.state = some .closed ∨ hash.state = none then
    (hash.hset
      { state := some .opened
        failureCount := some failureCount
        successCount := some 0
        openedAt := some (.value now)
        halfOpenRequestCount := some 0
        halfOpenWindowStartedAt := some .empty
        manuallyControlled := some false
        controlledById := some .empty
        manualOverrideExpiresAt := some .empty
        updatedAt := some (.value now) }, ⟨.stored .opened, some now, none, true⟩)
  else if hash.state = some .opened then
    (hash, ⟨.stored .opened, hash.openedAt.get, none, false⟩)
  else
    (hash, ⟨hash.attemptState, none, none, false⟩)

/-- `_LUA_UPDATE_STATE_SKIP_IF_PINNED`; the answer says whether the row was written. -/
def luaUpdateState (guardPin guardKeepOpen : Bool) (update : HashUpdate) (now : Time) : Hash × Bool :=
  if guardPin && hash.isPinActive now then
    (hash, false)
  else if guardKeepOpen && (hash.state = some .opened || hash.state = some .halfOpen) then
    (hash, false)
  else
    (hash.hset update, true)

/-- An absent or empty number reads as zero, also for `controlled_by_id`. -/
def toData (serviceName : String) : Row where
  serviceName := serviceName
  state := hash.state.getD .closed
  failureCount := hash.failureCount.getD 0
  successCount := hash.successCount.getD 0
  lastFailureAt := hash.lastFailureAt.get
  openedAt := hash.openedAt.get
  manuallyControlled := hash.manuallyControlled.getD false
  controlledById := some (hash.controlledById.get.getD 0)
  controlReason := hash.controlReason.getD ""
  manualOverrideExpiresAt := hash.manualOverrideExpiresAt.get
  halfOpenRequestCount := hash.halfOpenRequestCount.getD 0
  halfOpenWindowStartedAt := hash.halfOpenWindowStartedAt.get
  updatedAt := hash.updatedAt.get

end Hash

inductive RedisCommand
  | hgetall (serviceName : String)
  | hset (serviceName : String) (update : HashUpdate)
  | evalUpdateState (serviceName : String) (guardPin guardKeepOpen : Bool)
      (update : HashUpdate) (now : Time)
  | evalTryAcquireHalfOpenSlot (serviceName : String) (limit stuckTimeoutSeconds : Int)
      (now : Time)
  | evalRecordSuccessWithCloseCheck (serviceName : String) (threshold : Int) (now : Time)
  | evalRecordFailureWithOpenCheck (serviceName : String) (now : Time)
  | evalTripToOpen (serviceName : String) (failureCount : Int) (now : Time)
  deriving DecidableEq

@[reducible] def RedisCommand.Answer : RedisCommand → Type
  | .hgetall _ => Hash
  | .hset _ _ => Unit
  | .evalUpdateState .. => Bool
  | .evalTryAcquireHalfOpenSlot .. => SlotAttempt
  | .evalRecordSuccessWithCloseCheck .. => CircuitBreakerCloseAttempt
  | .evalRecordFailureWithOpenCheck .. => CircuitBreakerOpenAttempt
  | .evalTripToOpen .. => CircuitBreakerOpenAttempt

def RedisCommand.serviceName : RedisCommand → String
  | .hgetall name => name
  | .hset name _ => name
  | .evalUpdateState name _ _ _ _ => name
  | .evalTryAcquireHalfOpenSlot name _ _ _ => name
  | .evalRecordSuccessWithCloseCheck name _ _ => name
  | .evalRecordFailureWithOpenCheck name _ => name
  | .evalTripToOpen name _ _ => name

def RedisCommand.onHash (hash : Hash) : (command : RedisCommand) → Hash × command.Answer
  | .hgetall _ => (hash, hash)
  | .hset _ update => (hash.hset update, ())
  | .evalUpdateState _ guardPin guardKeepOpen update now =>
      hash.luaUpdateState guardPin guardKeepOpen update now
  | .evalTryAcquireHalfOpenSlot _ limit stuck now => hash.luaTryAcquireHalfOpenSlot limit stuck now
  | .evalRecordSuccessWithCloseCheck _ threshold now =>
      hash.luaRecordSuccessWithCloseCheck threshold now
  | .evalRecordFailureWithOpenCheck _ now => hash.luaRecordFailureWithOpenCheck now
  | .evalTripToOpen _ failureCount now => hash.luaTripToOpen failureCount now

abbrev Keyspace := String → Hash

def RedisCommand.exec (command : RedisCommand) (keys : Keyspace) : Keyspace × command.Answer :=
  let out := command.onHash (keys command.serviceName)
  (Function.update keys command.serviceName out.1, out.2)

end Baldur.CircuitBreaker
