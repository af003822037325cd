import Baldur.Lib.Stepwise
import Mathlib.Tactic.Linarith
import Mathlib.Tactic.Ring

/-!
The token bucket of `core/rate_limiting.py`. The stretch since the last refill is paid at the rate in
force at the next `consume`, also where `set_rate` came in between.
-/

namespace Baldur.RateLimit

structure TokenBucket where
  rate : ℚ
  capacity : ℚ
  tokens : ℚ
  lastUpdate : ℚ

namespace TokenBucket

variable (bucket : TokenBucket)

def create (rate : ℚ) (capacity : Option ℚ) (now : ℚ) : TokenBucket :=
  -- `capacity or rate`
  let capacity := if capacity.getD 0 = 0 then rate else capacity.getD 0
  { rate, capacity, tokens := capacity, lastUpdate := now }

def setRate (rate : ℚ) : TokenBucket :=
  { bucket with rate }

def refilled (now : ℚ) : ℚ :=
  min bucket.capacity (bucket.tokens + (now - bucket.lastUpdate) * bucket.rate)

def consume (tokens now : ℚ) : TokenBucket × Bool :=
  let filled := bucket.refilled now
  if filled ≥ tokens then ({ bucket with tokens := filled - tokens, lastUpdate := now }, true)
  else ({ bucket with tokens := filled, lastUpdate := now }, false)

end TokenBucket

inductive BucketMove
  | consume (tokens : ℚ≥0)
  | setRate (rate : ℚ≥0)
  | pass (seconds : ℚ≥0)

structure BucketRun where
  now : ℚ
  bucket : TokenBucket

namespace BucketRun

variable (run : BucketRun)

def start (rate : ℚ≥0) (capacity : Option ℚ) (now : ℚ) : BucketRun :=
  { now, bucket := .create rate capacity now }

def granted : BucketMove → ℚ
  | .consume tokens => if (run.bucket.consume tokens run.now).2 then tokens else 0
  | _ => 0

def allowed : BucketMove → ℚ
  | .pass seconds => run.bucket.rate * seconds
  | _ => 0

def step : BucketMove → BucketRun
  | .consume tokens => { run with bucket := (run.bucket.consume tokens run.now).1 }
  | .setRate rate => { run with bucket := run.bucket.setRate rate }
  | .pass seconds => { run with now := run.now + seconds }

def total (amount : BucketRun → BucketMove → ℚ) : BucketRun → List BucketMove → ℚ
  | _, [] => 0
  | run, move :: rest => amount run move + total amount (run.step move) rest

def InRange : Prop :=
  0 ≤ run.bucket.tokens ∧ run.bucket.tokens ≤ run.bucket.capacity

/-- The rate is raised only at the instant of the last refill. -/
def Prompt : BucketMove → Prop
  | .setRate rate => run.bucket.rate < rate → run.bucket.lastUpdate = run.now
  | _ => True

structure Sound (capacity : ℚ) : Prop where
  full : run.bucket.capacity = capacity
  range : run.InRange
  rate : 0 ≤ run.bucket.rate
  clock : run.bucket.lastUpdate ≤ run.now

def level : ℚ :=
  run.bucket.refilled run.now

variable {run : BucketRun} {capacity : ℚ}

theorem Sound.level_nonneg (sound : run.Sound capacity) : 0 ≤ run.level := by
  have earned : 0 ≤ (run.now - run.bucket.lastUpdate) * run.bucket.rate :=
    mul_nonneg (sub_nonneg.mpr sound.clock) sound.rate
  exact le_min (sound.range.1.trans sound.range.2) (add_nonneg sound.range.1 earned)

theorem Sound.step (sound : run.Sound capacity) (move : BucketMove) : (run.step move).Sound capacity := by
  have filled : 0 ≤ run.bucket.refilled run.now := sound.level_nonneg
  have most : run.bucket.refilled run.now ≤ run.bucket.capacity := min_le_left ..
  obtain ⟨full, ⟨tokens, capped⟩, rate, clock⟩ := sound
  cases move with
  | setRate rate => exact ⟨full, ⟨tokens, capped⟩, rate.2, clock⟩
  | pass seconds =>
    have forward : (0 : ℚ) ≤ seconds := seconds.2
    have later : run.bucket.lastUpdate ≤ run.now + seconds := by linarith
    exact ⟨full, ⟨tokens, capped⟩, rate, later⟩
  | consume amount =>
    have positive : (0 : ℚ) ≤ amount := amount.2
    simp only [BucketRun.step, TokenBucket.consume]
    split
    · refine ⟨full, ⟨?_, ?_⟩, rate, le_rfl⟩ <;> simp only <;> linarith
    · exact ⟨full, ⟨filled, most⟩, rate, le_rfl⟩

theorem Sound.moved (sound : run.Sound capacity) (moves : List BucketMove) :
    (moves.foldl BucketRun.step run).Sound capacity := by
  have kept (run : BucketRun) (move : BucketMove) (sound : run.Sound capacity) := sound.step move
  exact Stepwise.keeps kept sound moves

theorem Sound.level_step (sound : run.Sound capacity) {move : BucketMove} (prompt : run.Prompt move) :
    run.granted move + (run.step move).level ≤ run.level + run.allowed move := by
  cases move with
  | consume amount =>
    have fresh : (run.step (.consume amount)).level = (run.step (.consume amount)).bucket.tokens := by
      have range := (sound.step (.consume amount)).range.2
      have same : (run.step (.consume amount)).bucket.lastUpdate = (run.step (.consume amount)).now := by
        simp only [BucketRun.step, TokenBucket.consume]
        split <;> rfl
      simp [level, TokenBucket.refilled, same, range]
    rw [fresh]
    simp only [granted, allowed, BucketRun.step, TokenBucket.consume, level]
    split <;> simp
  | setRate rate =>
    simp only [granted, allowed, BucketRun.step, TokenBucket.setRate, level, TokenBucket.refilled, zero_add, add_zero]
    refine min_le_min_left _ (add_le_add_right ?_ _)
    by_cases raised : run.bucket.rate < rate
    · simp [prompt raised]
    · exact mul_le_mul_of_nonneg_left (not_lt.mp raised) (sub_nonneg.mpr sound.clock)
  | pass seconds =>
    have earned : 0 ≤ run.bucket.rate * seconds := mul_nonneg sound.rate seconds.2
    simp only [granted, allowed, BucketRun.step, level, TokenBucket.refilled, zero_add, min_add]
    refine min_le_min (le_add_of_nonneg_right earned) (le_of_eq ?_)
    ring

theorem Sound.granted_le (sound : run.Sound capacity) {moves : List BucketMove}
    (prompt : Stepwise.Always BucketRun.step Prompt run moves) :
    total granted run moves ≤ run.level + total allowed run moves := by
  induction moves generalizing run with
  | nil => simpa [total] using sound.level_nonneg
  | cons move rest ih =>
    have first := sound.level_step prompt.1
    have later := ih (sound.step move) prompt.2
    simp only [total]
    linarith

/-- From any instant of a run to any later one; the stored count is in range without the condition. -/
theorem bucket_bounded (rate : ℚ≥0) (capacity : Option ℚ) (now : ℚ) (before during : List BucketMove)
    (positive : 0 < (start rate capacity now).bucket.capacity) :
    let run := before.foldl step (start rate capacity now)
    run.InRange ∧
      (Stepwise.Always step Prompt (start rate capacity now) (before ++ during) →
        total granted run during ≤ (start rate capacity now).bucket.capacity + total allowed run during) := by
  have created : (start rate capacity now).Sound (start rate capacity now).bucket.capacity :=
    ⟨rfl, ⟨positive.le, le_rfl⟩, rate.2, le_rfl⟩
  have sound := created.moved before
  refine ⟨sound.range, fun prompt => ?_⟩
  have most := sound.granted_le (Stepwise.always_append.mp prompt).2
  have level : (before.foldl step (start rate capacity now)).level ≤ (start rate capacity now).bucket.capacity :=
    (min_le_left ..).trans_eq sound.full
  linarith

theorem raised_in_time_is_bounded :
    total granted (start 1 (some 2) 0) [.consume 2, .pass 1, .consume 1, .setRate 2, .pass 1, .consume 2] ≤
      2 + total allowed (start 1 (some 2) 0) [.consume 2, .pass 1, .consume 1, .setRate 2, .pass 1, .consume 2] :=
  (bucket_bounded 1 (some 2) 0 [] _ (by decide +kernel)).2
    ⟨trivial, trivial, trivial, fun _ => by decide +kernel, trivial, trivial, trivial⟩

theorem raised_rate_is_paid_back :
    ¬ total granted (start 0 (some 1) 0) [.consume 1, .pass 1, .setRate 1, .consume 1] ≤
      1 + total allowed (start 0 (some 1) 0) [.consume 1, .pass 1, .setRate 1, .consume 1] := by
  decide +kernel

end BucketRun

end Baldur.RateLimit
