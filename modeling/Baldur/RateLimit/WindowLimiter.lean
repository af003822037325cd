import Baldur.Lib.Stepwise
import Mathlib.Data.Rat.Floor

/-!
The `rate_limit` decorator (`decorators/rate_limit.py`) over the limiters that all functions of one
window share (`services/rate_limit/sliding_window.py`, `core/rate_limiting.py`).
-/

namespace Baldur.RateLimit

structure SlidingWindowCounter where
  cleanupInterval : Option ℚ
  lastCleanup : ℚ
  events : String → List ℚ := fun _ => []

namespace SlidingWindowCounter

def pruned (window now : ℚ) (events : List ℚ) : List ℚ :=
  events.filter fun ts => ts > now - window

variable (counter : SlidingWindowCounter) (key : String) (maxEvents : Int) (window now : ℚ)

def maybeCleanup : SlidingWindowCounter :=
  match counter.cleanupInterval with
  | none => counter
  | some interval =>
      if now - counter.lastCleanup ≤ interval then counter
      else { counter with lastCleanup := now, events := fun key => pruned window now (counter.events key) }

def tryAcquire : SlidingWindowCounter × Bool × Int :=
  let counter := counter.maybeCleanup window now
  let kept := pruned window now (counter.events key)
  if kept.length ≥ maxEvents then
    ({ counter with events := Function.update counter.events key kept }, false, kept.length)
  else ({ counter with events := Function.update counter.events key (kept ++ [now]) }, true, kept.length + 1)

variable {window now : ℚ}

theorem pruned_pruned {later : ℚ} (ordered : now ≤ later) (events : List ℚ) :
    pruned window later (pruned window now events) = pruned window later events := by
  simp only [pruned, List.filter_filter]
  refine List.filter_congr fun ts _ => ?_
  by_cases kept : ts > later - window
  · have inside : ts > now - window := by linarith
    simp [kept, inside]
  · simp [kept]

theorem pruned_maybeCleanup {later : ℚ} (ordered : now ≤ later) :
    pruned window later ((counter.maybeCleanup window now).events key) = pruned window later (counter.events key) := by
  unfold maybeCleanup
  split
  · rfl
  · split
    · rfl
    · exact pruned_pruned ordered _

theorem tryAcquire_allowed :
    (counter.tryAcquire key maxEvents window now).2.1 = true ↔
      (pruned window now (counter.events key)).length < maxEvents := by
  simp only [tryAcquire, pruned_maybeCleanup counter key le_rfl]
  split <;> simp_all

theorem pruned_tryAcquire {later : ℚ} (ordered : now ≤ later) (other : String) :
    pruned window later ((counter.tryAcquire key maxEvents window now).1.events other) =
      pruned window later (counter.events other ++
        if (counter.tryAcquire key maxEvents window now).2.1 = true ∧ other = key then [now] else []) := by
  have kept : pruned window later (pruned window now ((counter.maybeCleanup window now).events key)) =
      pruned window later (counter.events key) := by
    rw [pruned_pruned ordered, pruned_maybeCleanup counter key ordered]
  by_cases same : other = key
  · subst same
    simp only [tryAcquire]
    split <;> simp_all [pruned]
  · have others : pruned window later ((counter.maybeCleanup window now).events other) = _ :=
      pruned_maybeCleanup counter other ordered
    simp only [tryAcquire]
    split <;> simp_all

end SlidingWindowCounter

structure SlidingWindowLimiter.RateLimitState where
  limit : Int
  remaining : Int
  resetAt : Int
  allowed : Bool

/-- It reads the clock before the counter does. -/
def SlidingWindowLimiter.check (counter : SlidingWindowCounter) (key : String)
    (maxRequests windowSeconds : Int) (entered now : ℚ) :
    SlidingWindowCounter × RateLimitState :=
  let (counter, allowed, count) := counter.tryAcquire key maxRequests windowSeconds now
  (counter,
    { limit := maxRequests
      remaining := if allowed then maxRequests - count else 0
      resetAt := ⌊entered + windowSeconds⌋
      allowed })

structure RateLimited where
  maxRequests : Int
  windowSeconds : Int
  raiseOnLimit : Bool
  someRequests : 0 < maxRequests
  someWindow : 0 < windowSeconds

inductive Decision
  | call
  | rateLimitExceeded (key : String) (limit windowSeconds resetAt : Int)
  | returnNone
  deriving DecidableEq

abbrev Limiters := Int → Option SlidingWindowCounter

def getLimiter (limiters : Limiters) (windowSeconds : Int) (now : ℚ) : SlidingWindowCounter :=
  (limiters windowSeconds).getD { cleanupInterval := some 60, lastCleanup := now }

def checkOrSkip (limiters : Limiters) (limited : RateLimited) (key : String) (entered now : ℚ) : Limiters × Decision :=
  let limiter := getLimiter limiters limited.windowSeconds entered
  let (limiter, state) := SlidingWindowLimiter.check limiter key limited.maxRequests limited.windowSeconds entered now
  (Function.update limiters limited.windowSeconds (some limiter),
    if state.allowed then .call
    else if limited.raiseOnLimit then
      .rateLimitExceeded key limited.maxRequests limited.windowSeconds state.resetAt
    else .returnNone)

structure LimitedCall where
  limited : RateLimited
  key : String
  pause : ℚ≥0
  delay : ℚ≥0

/-- `admitted`, every admitted call with its window, key and time, is a record of the model. -/
structure LimitedRun where
  now : ℚ
  limiters : Limiters := fun _ => none
  admitted : List (Int × String × ℚ) := []

namespace LimitedRun

open SlidingWindowCounter

variable (run : LimitedRun) (call : LimitedCall)

def decision : Limiters × Decision :=
  checkOrSkip run.limiters call.limited call.key (run.now + call.pause) (run.now + call.pause + call.delay)

def step : LimitedRun :=
  let now := run.now + call.pause + call.delay
  let (limiters, decision) := run.decision call
  { now, limiters
    admitted := if decision = .call then run.admitted ++ [(call.limited.windowSeconds, call.key, now)] else run.admitted }

def history (window : Int) (key : String) : List ℚ :=
  run.admitted.filterMap fun (other, name, time) => if other = window ∧ name = key then some time else none

def Answers : Prop :=
  let now := run.now + call.pause + call.delay
  (run.decision call).2 = .call ↔ ((run.history call.limited.windowSeconds call.key).countP fun time =>
      now - time < call.limited.windowSeconds) < call.limited.maxRequests

def series (window : Int) (key : String) : List ℚ :=
  (run.limiters window).elim [] (·.events key)

/-- At every later instant the kept series and the full history have the same times in the window. -/
def Sound : Prop :=
  ∀ (window : Int) key later, run.now ≤ later →
    pruned window later (run.series window key) = pruned window later (run.history window key)

variable {run : LimitedRun}

theorem events_getLimiter (window : Int) (key : String) (now : ℚ) :
    (getLimiter run.limiters window now).events key = run.series window key := by
  unfold getLimiter series
  cases run.limiters window <;> rfl

def acquired : SlidingWindowCounter × Bool × Int :=
  (getLimiter run.limiters call.limited.windowSeconds (run.now + call.pause)).tryAcquire call.key
    call.limited.maxRequests call.limited.windowSeconds (run.now + call.pause + call.delay)

theorem decision_call : (run.decision call).2 = .call ↔ (run.acquired call).2.1 = true := by
  change (if (run.acquired call).2.1 then _ else _) = _ ↔ _
  grind

theorem forward : run.now ≤ run.now + call.pause + call.delay := by
  have first : (0 : ℚ) ≤ call.pause := call.pause.2
  have second : (0 : ℚ) ≤ call.delay := call.delay.2
  linarith

theorem Sound.answers (sound : run.Sound) (call : LimitedCall) : run.Answers call := by
  rw [Answers, decision_call, acquired, tryAcquire_allowed, events_getLimiter,
    sound _ _ _ (forward call), pruned, List.countP_eq_length_filter]
  simp only [gt_iff_lt, sub_lt_comm]

theorem history_step (window : Int) (key : String) :
    (run.step call).history window key = run.history window key ++
      if (run.acquired call).2.1 = true ∧ window = call.limited.windowSeconds ∧ key = call.key then
        [run.now + call.pause + call.delay] else [] := by
  simp only [history, step, decision_call]
  grind

theorem Sound.step (sound : run.Sound) (call : LimitedCall) : (run.step call).Sound := by
  intro window key later (ordered : run.now + call.pause + call.delay ≤ later)
  have before : run.now ≤ later := (forward call).trans ordered
  rw [history_step]
  by_cases same : window = call.limited.windowSeconds
  · subst same
    have kept : (run.step call).series call.limited.windowSeconds key = (run.acquired call).1.events key := by
      simp only [series, LimitedRun.step, decision, checkOrSkip, SlidingWindowLimiter.check, Function.update_self]
      rfl
    rw [kept, acquired, pruned_tryAcquire _ _ _ ordered, events_getLimiter]
    have known := sound call.limited.windowSeconds key later before
    simp_all [pruned]
  · have kept : (run.step call).series window key = run.series window key := by
      simp [series, LimitedRun.step, decision, checkOrSkip, same]
    rw [kept, sound window key later before]
    simp [same]

theorem decorator_forgets_nothing (now : ℚ) (calls : List LimitedCall) :
    Stepwise.Always step Answers { now } calls := by
  refine Stepwise.always_of Sound (fun run call sound => sound.step call) (fun run call sound => sound.answers call) ?_
  intro window key later _
  rfl

end LimitedRun

end Baldur.RateLimit
