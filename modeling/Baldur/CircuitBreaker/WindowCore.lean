import Baldur.CircuitBreaker.RowCore
import Baldur.Lib.Deque
import Mathlib.Data.Rat.Defs

/-!
The outcome window (`services/circuit_breaker/outcome_window.py`): per service a ring of outcomes, an epoch,
the failure writes in flight and the last state seen. Every method is one lock hold.
-/

namespace Baldur.CircuitBreaker

inductive Outcome
  | success
  | failure
  deriving DecidableEq

structure ServiceRing where
  serviceName : String
  ring : Deque Outcome

structure OutcomeWindow where
  windows : Table String ServiceRing ServiceRing.serviceName
  epochs : String → Nat
  writesInFlight : String → Nat
  lastSeen : String → Option CircuitState

namespace OutcomeWindow

def initial : OutcomeWindow :=
  ⟨Table.empty, fun _ => 0, fun _ => 0, fun _ => none⟩

def outcomes (window : OutcomeWindow) (name : String) : List Outcome :=
  match window.windows.find name with
  | none => []
  | some entry => entry.ring.items

def resolve (window : OutcomeWindow) (name : String) (windowSize : Int) : Deque Outcome :=
  let maxlen := windowSize.toNat
  match window.windows.find name with
  | none => Deque.empty maxlen
  | some entry => if entry.ring.capacity = maxlen then entry.ring else entry.ring.resize maxlen

def append (window : OutcomeWindow) (name : String) (windowSize : Int) (outcome : Outcome) : OutcomeWindow :=
  { window with
    windows := window.windows.put ⟨name, (window.resolve name windowSize).push outcome⟩ }

def moveEpoch (window : OutcomeWindow) (name : String) : OutcomeWindow :=
  { window with epochs := Function.update window.epochs name (window.epochs name + 1) }

def dropOutcomes (window : OutcomeWindow) (name : String) : OutcomeWindow :=
  match window.windows.find name with
  | none => window
  | some entry => { window with windows := window.windows.put ⟨name, entry.ring.clear⟩ }

def recordSuccessIfEpoch (window : OutcomeWindow) (name : String) (windowSize : Int)
    (hintEpoch : Nat) (requireNoWriteInFlight : Bool) : OutcomeWindow × Bool :=
  if requireNoWriteInFlight && window.writesInFlight name ≠ 0 then
    (window, false)
  else if window.epochs name ≠ hintEpoch then
    (window, false)
  else
    (window.append name windowSize .success, true)

def recordFailure (window : OutcomeWindow) (name : String) (windowSize : Int) : OutcomeWindow :=
  (window.append name windowSize .failure).moveEpoch name

def recordRejection (window : OutcomeWindow) (name : String) (windowSize : Int) : OutcomeWindow :=
  window.append name windowSize .failure

def beginWrite (window : OutcomeWindow) (name : String) : OutcomeWindow :=
  { window with
    writesInFlight := Function.update window.writesInFlight name (window.writesInFlight name + 1) }

def endWrite (window : OutcomeWindow) (name : String) : OutcomeWindow :=
  { window with
    writesInFlight := Function.update window.writesInFlight name (window.writesInFlight name - 1) }
    |>.moveEpoch name

def outran (window : OutcomeWindow) (name : String) : Option Nat → Bool
  | none => false
  | some epoch => window.epochs name ≠ epoch

def observeState (window : OutcomeWindow) (name : String) (state : CircuitState)
    (asOf : Option Nat) : OutcomeWindow × Bool :=
  if window.lastSeen name = some state then
    (window, false)
  else if window.outran name asOf then
    (window, false)
  else
    let seen := { window with lastSeen := Function.update window.lastSeen name (some state) }
    if window.lastSeen name = none then
      (seen, false)
    else if state ≠ .closed then
      (seen.moveEpoch name, false)
    else
      ((seen.moveEpoch name).dropOutcomes name, true)

def clear (window : OutcomeWindow) (name : String) : OutcomeWindow :=
  (window.dropOutcomes name).moveEpoch name

def evidence (outcomes : List Outcome) : Nat × Nat :=
  (outcomes.count .failure, outcomes.length)

def readEach (window : OutcomeWindow) : List (String × Nat × Nat) :=
  window.windows.entries.map fun entry => (entry.serviceName, evidence entry.ring.items)

end OutcomeWindow

inductive WindowCall
  | recordSuccessIfEpoch (serviceName : String) (windowSize : Int) (hintEpoch : Nat)
      (requireNoWriteInFlight : Bool)
  | recordFailure (serviceName : String) (windowSize : Int)
  | recordRejection (serviceName : String) (windowSize : Int)
  | beginWrite (serviceName : String)
  | endWrite (serviceName : String)
  | bump (serviceName : String)
  | observeState (serviceName : String) (state : CircuitState) (asOf : Option Nat)
  | clear (serviceName : String)
  | epochOf (serviceName : String)
  | epochsSnapshot
  | read (serviceName : String)
  | readEach
  deriving DecidableEq

@[reducible] def WindowCall.Answer : WindowCall → Type
  | .recordSuccessIfEpoch .. => Bool
  | .recordFailure _ _ => Unit
  | .recordRejection _ _ => Unit
  | .beginWrite _ => Unit
  | .endWrite _ => Unit
  | .bump _ => Unit
  | .observeState _ _ _ => Bool
  | .clear _ => Unit
  | .epochOf _ => Nat
  | .epochsSnapshot => String → Nat
  | .read _ => Nat × Nat
  | .readEach => List (String × Nat × Nat)

def WindowCall.exec (window : OutcomeWindow) : (call : WindowCall) → OutcomeWindow × call.Answer
  | .recordSuccessIfEpoch name size epoch required =>
      window.recordSuccessIfEpoch name size epoch required
  | .recordFailure name size => (window.recordFailure name size, ())
  | .recordRejection name size => (window.recordRejection name size, ())
  | .beginWrite name => (window.beginWrite name, ())
  | .endWrite name => (window.endWrite name, ())
  | .bump name => (window.moveEpoch name, ())
  | .observeState name state asOf => window.observeState name state asOf
  | .clear name => (window.clear name, ())
  | .epochOf name => (window, window.epochs name)
  | .epochsSnapshot => (window, window.epochs)
  | .read name => (window, OutcomeWindow.evidence (window.outcomes name))
  | .readEach => (window, window.readEach)

/-- The settings a breaker's decisions read; times in seconds, the TTL in minutes. -/
structure CircuitBreakerConfig where
  enabled : Bool := true
  failureThreshold : Int := 5
  recoveryTimeout : Int := 60
  successThreshold : Int := 2
  minimumCalls : Int := 10
  slidingWindowSize : Int := 100
  failureRateThreshold : Rat := 50
  manualOverrideTtlMinutes : Int := 90
  halfOpenMaxCalls : Int := 3
  halfOpenStuckTimeoutSeconds : Int := 60

inductive TripReason
  | rate
  | count
  deriving DecidableEq

def evaluateTrip (consecutiveFailures : Int) (windowFailures windowTotal : Nat)
    (config : CircuitBreakerConfig) : Option TripReason :=
  if config.failureRateThreshold > 0 ∧ windowTotal > 0 ∧ config.minimumCalls ≤ windowTotal ∧
      config.failureRateThreshold ≤ (windowFailures : Rat) / windowTotal * 100 then
    some .rate
  else if config.failureThreshold ≤ consecutiveFailures then
    some .count
  else
    none

section

open Function

namespace OutcomeWindow

variable {epoch : Nat} {required : Bool} {state : CircuitState} {asOf : Option Nat}
  (window : OutcomeWindow) (name other : String) (size : Int) (outcome : Outcome)

@[simp] theorem epochs_append : (window.append name size outcome).epochs = window.epochs := by
  rfl

@[simp] theorem writesInFlight_append : (window.append name size outcome).writesInFlight = window.writesInFlight := by
  rfl

@[simp] theorem lastSeen_append : (window.append name size outcome).lastSeen = window.lastSeen := by
  rfl

@[simp] theorem epochs_moveEpoch :
    (window.moveEpoch name).epochs other =
      if other = name then window.epochs other + 1 else window.epochs other := by
  simp only [moveEpoch, update_apply]
  split
  · rename_i same
    rw [same]
  · rfl

@[simp] theorem writesInFlight_moveEpoch : (window.moveEpoch name).writesInFlight = window.writesInFlight := by
  rfl

@[simp] theorem lastSeen_moveEpoch : (window.moveEpoch name).lastSeen = window.lastSeen := by
  rfl

@[simp] theorem epochs_dropOutcomes : (window.dropOutcomes name).epochs = window.epochs := by
  unfold dropOutcomes
  split <;> rfl

@[simp] theorem writesInFlight_dropOutcomes : (window.dropOutcomes name).writesInFlight = window.writesInFlight := by
  unfold dropOutcomes
  split <;> rfl

@[simp] theorem lastSeen_dropOutcomes : (window.dropOutcomes name).lastSeen = window.lastSeen := by
  unfold dropOutcomes
  split <;> rfl

theorem outcomes_append :
    (window.append name size outcome).outcomes other =
      if name = other then (window.outcomes other ++ [outcome]).rtake size.toNat
      else window.outcomes other := by
  by_cases same : name = other
  · subst same
    simp only [outcomes, append, Table.find_put_self, resolve, if_true]
    cases found : window.windows.find name with
    | none => rfl
    | some entry =>
      by_cases sized : entry.ring.capacity = size.toNat
      · simp [sized, Deque.push]
      · simp [sized, Deque.push, Deque.resize, Deque.rtake_append]
  · simp [outcomes, append, Table.find_put, same]

@[simp] theorem outcomes_moveEpoch : (window.moveEpoch name).outcomes other = window.outcomes other := by
  rfl

theorem outcomes_dropOutcomes :
    (window.dropOutcomes name).outcomes other = if name = other then [] else window.outcomes other := by
  cases found : window.windows.find name with
  | none =>
    by_cases same : name = other
    · subst same
      simp [dropOutcomes, outcomes, found]
    · simp [dropOutcomes, found, same]
  | some =>
    by_cases same : name = other
    · subst same
      simp [dropOutcomes, outcomes, found, Deque.clear]
    · simp [dropOutcomes, outcomes, found, same, Table.find_put]

theorem recordSuccessIfEpoch_fst {size : Int} : (window.recordSuccessIfEpoch name size epoch required).1 =
    if (window.recordSuccessIfEpoch name size epoch required).2 then window.append name size .success else window := by
  unfold recordSuccessIfEpoch
  split
  · rfl
  · split <;> rfl

theorem recordSuccessIfEpoch_accepts {size : Int}
    (accepted : (window.recordSuccessIfEpoch name size epoch required).2 = true) :
    (window.recordSuccessIfEpoch name size epoch required).1 = window.append name size .success := by
  rw [recordSuccessIfEpoch_fst, if_pos accepted]

def takesEffect (state : CircuitState) (asOf : Option Nat) : Prop :=
  window.lastSeen name ≠ some state ∧ window.outran name asOf = false

instance (state : CircuitState) (asOf : Option Nat) : Decidable (window.takesEffect name state asOf) :=
  inferInstanceAs (Decidable (_ ∧ _))

theorem observeState_idle (idle : ¬window.takesEffect name state asOf) :
    window.observeState name state asOf = (window, false) := by
  unfold observeState
  by_cases seen : window.lastSeen name = some state
  · simp [seen]
  · have outrun : window.outran name asOf = true := by
      by_contra current
      exact idle ⟨seen, by simpa using current⟩
    simp [seen, outrun]

theorem observeState_effect (effect : window.takesEffect name state asOf) :
    (window.observeState name state asOf).1.lastSeen = update window.lastSeen name (some state) ∧
      (window.observeState name state asOf).2 = decide (window.lastSeen name ≠ none ∧ state = .closed) ∧
      ∀ other, (window.observeState name state asOf).1.outcomes other =
        if name = other ∧ window.lastSeen name ≠ none ∧ state = .closed then []
        else window.outcomes other := by
  obtain ⟨fresh, current⟩ := effect
  unfold observeState
  simp only [fresh, current, if_false, Bool.false_eq_true]
  by_cases first : window.lastSeen name = none
  · simp [first, outcomes]
  · by_cases closed : state = .closed
    · simp [first, closed, outcomes_dropOutcomes]
      simp [outcomes]
    · simp [first, closed]
      simp [outcomes]

end OutcomeWindow

namespace WindowCall

theorem epochs_le_exec (call : WindowCall) (window : OutcomeWindow) (name : String) :
    window.epochs name ≤ (call.exec window).1.epochs name := by
  cases call with
  | recordSuccessIfEpoch =>
    simp only [exec, OutcomeWindow.recordSuccessIfEpoch]
    split
    · exact Nat.le_refl _
    · split <;> simp
  | observeState =>
    simp only [exec, OutcomeWindow.observeState]
    split_ifs <;> simp <;> split <;> simp
  | recordFailure | endWrite | bump | clear =>
    simp only [exec, OutcomeWindow.recordFailure, OutcomeWindow.endWrite, OutcomeWindow.clear,
      OutcomeWindow.epochs_moveEpoch]
    split <;> simp
  | _ => exact Nat.le_refl _

attribute [local simp] OutcomeWindow.beginWrite OutcomeWindow.endWrite exec

theorem writesInFlight_exec (call : WindowCall) (window : OutcomeWindow) (name : String) :
    (call.exec window).1.writesInFlight name =
      if call = .beginWrite name then window.writesInFlight name + 1
      else if call = .endWrite name then window.writesInFlight name - 1
      else window.writesInFlight name := by
  cases call with
  | recordSuccessIfEpoch =>
    simp only [exec, OutcomeWindow.recordSuccessIfEpoch]
    split
    · simp
    · split <;> simp
  | observeState =>
    simp only [exec, OutcomeWindow.observeState, reduceCtorEq, if_false]
    split_ifs <;> simp
  | beginWrite other | endWrite other =>
    by_cases same : other = name
    · simp [same]
    · simp [same, Function.update_of_ne (Ne.symm same)]
  | recordFailure => simp [OutcomeWindow.recordFailure]
  | recordRejection => simp [OutcomeWindow.recordRejection]
  | clear => simp [OutcomeWindow.clear]
  | bump => simp
  | _ => simp

theorem epochs_endWrite (window : OutcomeWindow) (name : String) :
    (exec window (.endWrite name)).1.epochs name = window.epochs name + 1 := by
  simp

theorem recordSuccessIfEpoch_accepted (window : OutcomeWindow) (name : String) (size : Int)
    (epoch : Nat) (accepted : (exec window (.recordSuccessIfEpoch name size epoch true)).2 = true) :
    window.writesInFlight name = 0 ∧ window.epochs name = epoch := by
  simp only [exec, OutcomeWindow.recordSuccessIfEpoch] at accepted
  by_cases idle : window.writesInFlight name = 0
  · by_cases current : window.epochs name = epoch
    · exact ⟨idle, current⟩
    · simp [idle, current] at accepted
  · simp [idle] at accepted

end WindowCall

end

end Baldur.CircuitBreaker
