import Baldur.Lib.Binary64
import Baldur.Lib.Pool

/-!
The idempotency gate (`core/idempotency_gate.py`) over the single operations of a cache, for one
key. Times and windows are in microseconds, the resolution of `timedelta`.
-/

namespace Baldur.Idempotency

/-- The value under the key; `foreign` is anything that is no record of the gate. -/
inductive Stored
  | executing (startedAt : Int) (retryCount claimId : Nat)
  | completed (completedAt : Int) (result : String) (retryCount : Nat)
  | failed (failedAt : Int) (error : String) (retryCount : Nat)
  | foreign
  deriving DecidableEq

structure CacheEntry where
  value : Stored
  expiresAt : Option Int
  deriving DecidableEq

def CacheEntry.isExpired (entry : CacheEntry) (now : Int) : Bool :=
  match entry.expiresAt with
  | none => false
  | some expiresAt => expiresAt < now

inductive CacheKind
  | memory
  | redis
  deriving DecidableEq

namespace CacheKind

/-- `timedelta.total_seconds`, a float. -/
def totalSeconds (ttl : Int) : ℚ :=
  Binary64.round (ttl / 1000000)

/-- How long `setnx` keeps a value. Redis takes whole seconds and refuses an expiry of none. -/
def setnxLifetime : CacheKind → Int → Option Int
  | memory, ttl => some ttl
  | redis, ttl =>
      let seconds := ⌊totalSeconds ttl⌋
      if 0 < seconds then some (seconds * 1000000) else none

/-- How long a compare-and-set keeps a value. Redis takes whole milliseconds, of a product of floats. -/
def casLifetime : CacheKind → Int → Option Int
  | memory, ttl => some ttl
  | redis, ttl =>
      let millis := ⌊Binary64.round (totalSeconds ttl * 1000)⌋
      if 0 < millis then some (millis * 1000) else none

end CacheKind

structure GateWorld where
  clock : Int
  entry : Option CacheEntry := none
  nextClaim : Nat := 0
  deriving DecidableEq

inductive MarkGuard
  | claimId (claim : Nat)
  | statusExecuting
  deriving DecidableEq

def MarkGuard.admits : MarkGuard → Stored → Bool
  | claimId claim, .executing _ _ own => own = claim
  | statusExecuting, .executing _ _ _ => true
  | _, _ => false

inductive GateCall
  | newClaimId
  | time
  | setnx (value : Stored) (ttl : Int)
  | get
  | casTakeover (value : Stored) (staleBefore ttl : Int)
  | casDictField (guard : MarkGuard) (value : Stored) (ttl : Int)
  deriving DecidableEq

/-- `setnx` answers nothing when it raises. -/
@[reducible] def GateCall.Answer : GateCall → Type
  | .newClaimId => Nat
  | .time => Int
  | .setnx .. => Option Bool
  | .get => Option Stored
  | .casTakeover .. => Bool
  | .casDictField .. => Bool

namespace GateWorld

variable (world : GateWorld)

def current : Option Stored :=
  match world.entry with
  | none => none
  | some entry => if entry.isExpired world.clock then none else some entry.value

def write (value : Stored) (lifetime : Option Int) : GateWorld :=
  { world with entry := some ⟨value, lifetime.map fun lifetime => world.clock + lifetime⟩ }

def takeable (staleBefore : Int) : Stored → Bool
  | .failed _ _ _ => true
  | .executing startedAt _ _ => startedAt < staleBefore
  | _ => false

def setnx (kind : CacheKind) (value : Stored) (ttl : Int) : GateWorld × Option Bool :=
  match kind.setnxLifetime ttl with
  | none => (world, none)
  | some lifetime =>
      match world.current with
      | some _ => (world, some false)
      | none => (world.write value (some lifetime), some true)

def casTakeover (kind : CacheKind) (value : Stored) (staleBefore ttl : Int) : GateWorld × Bool :=
  match world.current with
  | none => (world, false)
  | some existing =>
      if takeable staleBefore existing then (world.write value (kind.casLifetime ttl), true)
      else (world, false)

def casDictField (kind : CacheKind) (guard : MarkGuard) (value : Stored) (ttl : Int) : GateWorld × Bool :=
  match world.current with
  | none => (world, false)
  | some existing =>
      if guard.admits existing then (world.write value (kind.casLifetime ttl), true) else (world, false)

end GateWorld

def GateWorld.exec (kind : CacheKind) : (call : GateCall) → GateWorld → GateWorld × call.Answer
  | .newClaimId, world => ({ world with nextClaim := world.nextClaim + 1 }, world.nextClaim)
  | .time, world => (world, world.clock)
  | .setnx value ttl, world => world.setnx kind value ttl
  | .get, world => (world, world.current)
  | .casTakeover value staleBefore ttl, world => world.casTakeover kind value staleBefore ttl
  | .casDictField guard value ttl, world => world.casDictField kind guard value ttl

inductive IdempotencyDecision
  | continue
  | skip
  | abort
  deriving DecidableEq

structure IdempotencyCheckResult where
  decision : IdempotencyDecision
  cachedResult : Option String := none
  retryCount : Nat := 0
  claimId : Option Nat := none
  deriving DecidableEq

inductive GateAnswer
  | checked (result : IdempotencyCheckResult)
  | raised
  | marked
  deriving DecidableEq

def GateAnswer.abort : GateAnswer :=
  .checked { decision := .abort }

def GateAnswer.continue (retryCount claimId : Nat) : GateAnswer :=
  .checked { decision := .continue, retryCount, claimId := some claimId }

def GateAnswer.skip (result : String) (retryCount : Nat) : GateAnswer :=
  .checked { decision := .skip, cachedResult := some result, retryCount }

abbrev GateProg := Prog GateCall GateCall.Answer

def gateCommand (call : GateCall) : GateProg call.Answer :=
  Prog.perform call

def staleBefore (ttl tolerance now : Int) : Int :=
  now - ttl - tolerance

def takeOver (ttl staleBefore startedAt : Int) (retryCount claimId : Nat) : GateProg GateAnswer := do
  let taken : Bool ← gateCommand (.casTakeover (.executing startedAt retryCount claimId) staleBefore ttl)
  return if taken then .continue retryCount claimId else .abort

/-- `_check_and_acquire` with the effective execution window and the configured clock tolerance. -/
def checkAndAcquire (ttl tolerance : Int) : GateProg GateAnswer := do
  let claimId : Nat ← gateCommand .newClaimId
  let startedAt : Int ← gateCommand .time
  let acquired : Option Bool ← gateCommand (.setnx (.executing startedAt 0 claimId) ttl)
  match acquired with
  | none => return .raised
  | some true => return .continue 0 claimId
  | some false =>
      let existing : Option Stored ← gateCommand .get
      match existing with
      | none =>
          -- The key expired between the two operations.
          let again : Option Bool ← gateCommand (.setnx (.executing startedAt 0 claimId) ttl)
          match again with
          | none => return .raised
          | some true => return .continue 0 claimId
          | some false => return .abort
      | some .foreign => return .abort
      | some (.completed _ result retryCount) => return .skip result retryCount
      | some (.failed _ _ retryCount) =>
          let now : Int ← gateCommand .time
          takeOver ttl (staleBefore ttl tolerance now) startedAt (retryCount + 1) claimId
      | some (.executing started retryCount _) =>
          let now : Int ← gateCommand .time
          if started < staleBefore ttl tolerance now then
            takeOver ttl (staleBefore ttl tolerance now) startedAt (retryCount + 1) claimId
          else
            return .abort

def markGuard : Option Nat → MarkGuard
  | some claimId => .claimId claimId
  | none => .statusExecuting

def markCompleted (result : String) (retryCount : Nat) (ttl : Int) (claimId : Option Nat) : GateProg GateAnswer := do
  let now : Int ← gateCommand .time
  let _ : Bool ← gateCommand (.casDictField (markGuard claimId) (.completed now result retryCount) ttl)
  return .marked

def markFailed (error : String) (retryCount : Nat) (ttl : Int) (claimId : Option Nat) : GateProg GateAnswer := do
  let now : Int ← gateCommand .time
  let _ : Bool ← gateCommand (.casDictField (markGuard claimId) (.failed now error retryCount) ttl)
  return .marked

/-- The calls on one key: every check uses the window `ttl`, every mark passes a claim's id. -/
inductive GateProgram (ttl : Int) : GateProg GateAnswer → Prop
  | checks (tolerance : Int) (allowed : 0 ≤ tolerance) : GateProgram ttl (checkAndAcquire ttl tolerance)
  | completes (result : String) (retryCount : Nat) (memory : Int) (claimId : Nat) :
      GateProgram ttl (markCompleted result retryCount memory (some claimId))
  | fails (error : String) (retryCount : Nat) (memory : Int) (claimId : Nat) :
      GateProgram ttl (markFailed error retryCount memory (some claimId))

abbrev GateConfig := Pool.Config GateCall GateCall.Answer GateWorld GateAnswer

abbrev GateAction := Pool.Action GateCall GateCall.Answer Nat GateAnswer

abbrev GateEvent := Pool.Event GateCall GateCall.Answer

def gateMachine (kind : CacheKind) : Pool.Machine GateCall GateCall.Answer GateWorld Nat GateAnswer where
  exec := GateWorld.exec kind
  disturb passed world := { world with clock := world.clock + passed }
  fork _ _ := []

end Baldur.Idempotency
