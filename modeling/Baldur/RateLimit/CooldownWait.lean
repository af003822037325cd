import Mathlib.Algebra.BigOperators.Group.List.Basic
import Mathlib.Tactic.Linarith

/-!
The wait before an outbound request. A caller reads the cooldown of its key, sleeps it off when it fits the
bound, reads again, and defers when the rest does not fit.
-/

namespace Baldur.RateLimit

variable {now seconds : ℚ}

structure RateLimitState where
  cooldownUntil : ℚ
  consecutive429s : Nat
  deriving DecidableEq

variable {state : RateLimitState}

def RateLimitState.default : RateLimitState :=
  ⟨0, 0⟩

def RateLimitState.remainingCooldown (state : RateLimitState) (now : ℚ) : ℚ :=
  max 0 (state.cooldownUntil - now)

structure Storage where
  states : String → RateLimitState

namespace Storage

def getState (storage : Storage) (key : String) : RateLimitState :=
  storage.states key

def put (storage : Storage) (key : String) (state : RateLimitState) : Storage :=
  ⟨fun other => if other = key then state else storage.states other⟩

def extendCooldown (storage : Storage) (key : String) (cooldownUntil : ℚ) : Storage :=
  let state := storage.getState key
  storage.put key { state with cooldownUntil := max state.cooldownUntil cooldownUntil }

def incrementConsecutive429s (storage : Storage) (key : String) : Storage :=
  let state := storage.getState key
  storage.put key { state with consecutive429s := state.consecutive429s + 1 }

def resetConsecutive429s (storage : Storage) (key : String) : Storage :=
  storage.put key { storage.getState key with consecutive429s := 0 }

def clear (storage : Storage) (key : String) : Storage :=
  storage.put key .default

end Storage

inductive Change
  | extend (key : String) (cooldownUntil : ℚ)
  | clear (key : String)
  | increment (key : String)
  | reset (key : String)

def Storage.apply (storage : Storage) : Change → Storage
  | .extend key cooldownUntil => storage.extendCooldown key cooldownUntil
  | .clear key => storage.clear key
  | .increment key => storage.incrementConsecutive429s key
  | .reset key => storage.resetConsecutive429s key

inductive WaitPlan
  | idle
  | serve (seconds : ℚ)
  | defer (notBefore : ℚ)
  deriving DecidableEq

/-- `⊤` is the bound of a caller that is ready to wait forever. -/
def planWait (state : RateLimitState) (now : ℚ) (bound : WithTop ℚ) : WaitPlan :=
  let remaining := state.remainingCooldown now
  if remaining ≤ 0 then .idle
  else if bound < (remaining : WithTop ℚ) then .defer state.cooldownUntil
  else .serve remaining

def extendedPast (state : RateLimitState) (targetUntil : ℚ) : Bool :=
  decide (targetUntil < state.cooldownUntil)

structure RateLimitResult where
  waited : Bool := false
  waitTime : ℚ := 0
  wasRateLimited : Bool := false
  consecutive429s : Nat := 0
  isCanary : Bool := false
  deferred : Bool := false
  notBefore : Option ℚ := none
  deriving DecidableEq

inductive StorageType
  | redis | memcached | database | memory
  deriving DecidableEq

structure Coordinator where
  maxDelay : ℚ
  storageType : StorageType
  canaryInProgress : List String

def Coordinator.checkCanaryMode (coordinator : Coordinator) (key : String)
    (state : RateLimitState) : Bool × Coordinator :=
  if state.consecutive429s = 0 then (false, coordinator)
  else if key ∈ coordinator.canaryInProgress then (false, coordinator)
  else (true, { coordinator with canaryInProgress := key :: coordinator.canaryInProgress })

def Coordinator.bound (coordinator : Coordinator) (maxWait : Option (WithTop ℚ)) : WithTop ℚ :=
  maxWait.getD (coordinator.maxDelay : WithTop ℚ)

def allowance (bound : WithTop ℚ) (slept : ℚ) : WithTop ℚ :=
  bound.map (· - slept)

def Coordinator.idleResult (coordinator : Coordinator) (key : String) (state : RateLimitState) :
    RateLimitResult × Coordinator :=
  let (isCanary, marked) := coordinator.checkCanaryMode key state
  ({ waited := false
     waitTime := 0
     wasRateLimited := decide (0 < state.consecutive429s)
     consecutive429s := state.consecutive429s
     isCanary := isCanary }, marked)

def servedResult (state : RateLimitState) (slept : ℚ) : RateLimitResult :=
  { waited := true
    waitTime := slept
    wasRateLimited := true
    consecutive429s := state.consecutive429s
    isCanary := false }

def deferredResult (state : RateLimitState) (slept : ℚ) : RateLimitResult :=
  { waited := decide (0 < slept)
    waitTime := slept
    wasRateLimited := true
    consecutive429s := state.consecutive429s
    isCanary := false
    deferred := true
    notBefore := some state.cooldownUntil }

/-- The caller at the top of its loop. `sleeps` records the sleeps it has taken. -/
structure Waiting where
  now : ℚ
  storage : Storage
  reads : Nat
  slept : ℚ
  targetUntil : ℚ
  sleeps : List ℚ

structure Returned where
  result : RateLimitResult
  coordinator : Coordinator
  lastRead : RateLimitState
  now : ℚ
  sleeps : List ℚ

inductive Progress
  | still (waiting : Waiting)
  | done (returned : Returned)

def Progress.sleeps : Progress → List ℚ
  | .still waiting => waiting.sleeps
  | .done returned => returned.sleeps

def Waiting.start (now : ℚ) (storage : Storage) : Waiting :=
  { now := now
    storage := storage
    reads := 0
    slept := 0
    targetUntil := 0
    sleeps := [] }

section

variable (coordinator : Coordinator) (key : String) (bound : WithTop ℚ) (changes : Nat → List Change)

def Waiting.landed (waiting : Waiting) : Storage :=
  (changes waiting.reads).foldl Storage.apply waiting.storage

def Waiting.sleep (waiting : Waiting) (storage : Storage) (state : RateLimitState) (seconds : ℚ) : Waiting :=
  { now := waiting.now + seconds
    storage := storage
    reads := waiting.reads + 1
    slept := waiting.slept + seconds
    targetUntil := state.cooldownUntil
    sleeps := waiting.sleeps ++ [seconds] }

def waitTurn (waiting : Waiting) : Progress :=
  let storage := waiting.landed changes
  let state := storage.getState key
  let finish (result : RateLimitResult × Coordinator) : Progress :=
    .done ⟨result.1, result.2, state, waiting.now, waiting.sleeps⟩
  if 0 < waiting.slept ∧ extendedPast state waiting.targetUntil = false then
    finish (servedResult state waiting.slept, coordinator)
  else
    match planWait state waiting.now (allowance bound waiting.slept) with
    | .idle =>
        if 0 < waiting.slept then finish (servedResult state waiting.slept, coordinator)
        else finish (coordinator.idleResult key state)
    | .defer _ => finish (deferredResult state waiting.slept, coordinator)
    | .serve seconds => .still (waiting.sleep storage state seconds)

def waitLoop : Nat → Waiting → Progress
  | 0, waiting => .still waiting
  | fuel + 1, waiting =>
      match waitTurn coordinator key bound changes waiting with
      | .still next => waitLoop fuel next
      | .done returned => .done returned

variable (handed : Nat → Nat)

/-- A read on the event loop: inline for the in-process store, otherwise on a worker thread, which is asked
once the first `handed n` changes before read `n` have landed. -/
def storeCall {α : Type} (read : Storage → α) (waiting : Waiting) : α × Storage :=
  if coordinator.storageType = .memory then (read (waiting.landed changes), waiting.landed changes)
  else
    let landing := changes waiting.reads
    let asked := (landing.take (handed waiting.reads)).foldl Storage.apply waiting.storage
    let hopped := (landing.drop (handed waiting.reads)).foldl Storage.apply asked
    (read hopped, hopped)

def awaitTurn (waiting : Waiting) : Progress :=
  let (state, storage) := storeCall coordinator changes handed (fun storage => storage.getState key) waiting
  if 0 < waiting.slept ∧ extendedPast state waiting.targetUntil = false then
    .done ⟨servedResult state waiting.slept, coordinator, state, waiting.now, waiting.sleeps⟩
  else
    match planWait state waiting.now (allowance bound waiting.slept) with
    | .idle =>
        if 0 < waiting.slept then
          .done ⟨servedResult state waiting.slept, coordinator, state, waiting.now, waiting.sleeps⟩
        else
          let (result, marked) := coordinator.idleResult key state
          .done ⟨result, marked, state, waiting.now, waiting.sleeps⟩
    | .defer _ =>
        .done ⟨deferredResult state waiting.slept, coordinator, state, waiting.now, waiting.sleeps⟩
    | .serve seconds => .still (waiting.sleep storage state seconds)

def awaitLoop : Nat → Waiting → Progress
  | 0, waiting => .still waiting
  | fuel + 1, waiting =>
      match awaitTurn coordinator key bound changes handed waiting with
      | .still next => awaitLoop fuel next
      | .done returned => .done returned

end

/-- `fuel` passes of the call; `changes n` land before its read number `n`. -/
def Coordinator.waitIfNeeded (coordinator : Coordinator) (key : String)
    (maxWait : Option (WithTop ℚ)) (now : ℚ) (storage : Storage) (changes : Nat → List Change)
    (fuel : Nat) : Progress :=
  waitLoop coordinator key (coordinator.bound maxWait) changes fuel (.start now storage)

def Coordinator.awaitIfNeeded (coordinator : Coordinator) (key : String)
    (maxWait : Option (WithTop ℚ)) (now : ℚ) (storage : Storage) (changes : Nat → List Change) (handed : Nat → Nat)
    (fuel : Nat) : Progress :=
  awaitLoop coordinator key (coordinator.bound maxWait) changes handed fuel (.start now storage)

theorem allowance_lt_iff (bound : WithTop ℚ) (slept seconds : ℚ) :
    allowance bound slept < (seconds : WithTop ℚ) ↔ bound < ((slept + seconds : ℚ) : WithTop ℚ) := by
  cases bound with
  | top => simp [allowance]
  | coe =>
    simp only [allowance, WithTop.map_coe, WithTop.coe_lt_coe]
    constructor <;> intro less <;> linarith

theorem remainingCooldown_pos (positive : 0 < state.remainingCooldown now) :
    state.remainingCooldown now = state.cooldownUntil - now := by
  unfold RateLimitState.remainingCooldown at positive ⊢
  rcases lt_max_iff.mp positive with impossible | later
  · exact absurd impossible (lt_irrefl 0)
  · exact max_eq_right later.le

theorem planWait_idle {bound : WithTop ℚ} (planned : planWait state now bound = .idle) : state.cooldownUntil ≤ now := by
  simp only [planWait] at planned
  split at planned
  · rename_i expired
    have bounded := (le_max_right 0 (state.cooldownUntil - now)).trans expired
    linarith
  · split at planned <;> simp at planned

theorem planWait_defer {until_ : ℚ} {bound : WithTop ℚ} (planned : planWait state now bound = .defer until_) :
    bound < ((state.cooldownUntil - now : ℚ) : WithTop ℚ) := by
  simp only [planWait] at planned
  split at planned
  · simp at planned
  · rename_i running
    split at planned
    · rename_i outgrown
      rwa [remainingCooldown_pos (not_le.mp running)] at outgrown
    · simp at planned

theorem planWait_serve {bound : WithTop ℚ} (planned : planWait state now bound = .serve seconds) :
    0 < seconds ∧ seconds = state.cooldownUntil - now ∧ (seconds : WithTop ℚ) ≤ bound := by
  simp only [planWait] at planned
  split at planned
  · simp at planned
  · rename_i running
    split at planned
    · simp at planned
    · rename_i fits
      injection planned with same
      subst same
      exact ⟨not_le.mp running, remainingCooldown_pos (not_le.mp running), not_lt.mp fits⟩

structure Waiting.Sound (bound : WithTop ℚ) (begun : ℚ) (waiting : Waiting) : Prop where
  nonneg : 0 ≤ waiting.slept
  elapsed : waiting.now = begun + waiting.slept
  counted : waiting.slept = waiting.sleeps.sum
  bounded : (waiting.slept : WithTop ℚ) ≤ max 0 bound
  -- after a sleep the caller stands at the expiry it slept toward
  arrived : 0 < waiting.slept → waiting.targetUntil = waiting.now

structure Returned.Honest (bound : WithTop ℚ) (begun : ℚ) (returned : Returned) : Prop where
  bounded : (returned.sleeps.sum : WithTop ℚ) ≤ max 0 bound
  elapsed : returned.now = begun + returned.sleeps.sum
  timed : returned.result.waitTime = returned.sleeps.sum
  expired : returned.result.deferred = false → returned.lastRead.cooldownUntil ≤ returned.now
  outgrown : returned.result.deferred = true →
    bound < ((returned.sleeps.sum + (returned.lastRead.cooldownUntil - returned.now) : ℚ) :
      WithTop ℚ) ∧
      returned.result.notBefore = some returned.lastRead.cooldownUntil

def Progress.Sound (bound : WithTop ℚ) (begun : ℚ) : Progress → Prop
  | .still waiting => waiting.Sound bound begun
  | .done returned => returned.Honest bound begun

theorem Progress.Sound.sleeps_le {bound : WithTop ℚ} {begun : ℚ} {progress : Progress}
    (sound : progress.Sound bound begun) : (progress.sleeps.sum : WithTop ℚ) ≤ max 0 bound := by
  cases progress with
  | still => exact sound.counted ▸ sound.bounded
  | done => exact sound.bounded

theorem Waiting.start_sound (bound : WithTop ℚ) (now : ℚ) (storage : Storage) :
    (Waiting.start now storage).Sound bound now := by
  refine ⟨le_refl 0, (add_zero now).symm, rfl, ?_, ?_⟩
  · simp [Waiting.start]
  · intro slept
    exact absurd slept (lt_irrefl 0)

namespace Waiting.Sound

variable {bound : WithTop ℚ} {begun : ℚ} {waiting : Waiting} {state : RateLimitState} {coordinator : Coordinator}

section

variable (sound : waiting.Sound bound begun)

include sound

theorem served (expired : state.cooldownUntil ≤ waiting.now) :
    Returned.Honest bound begun
      ⟨servedResult state waiting.slept, coordinator, state, waiting.now, waiting.sleeps⟩ := by
  refine ⟨sound.counted ▸ sound.bounded, sound.counted ▸ sound.elapsed, sound.counted, fun _ => expired, ?_⟩
  intro deferred
  simp [servedResult] at deferred

theorem idle (key : String) (fresh : waiting.slept = 0) (expired : state.cooldownUntil ≤ waiting.now) :
    Returned.Honest bound begun ⟨(coordinator.idleResult key state).1,
      (coordinator.idleResult key state).2, state, waiting.now, waiting.sleeps⟩ := by
  refine ⟨sound.counted ▸ sound.bounded, sound.counted ▸ sound.elapsed, ?_, fun _ => expired, ?_⟩
  · rw [← sound.counted, fresh]
    rfl
  · intro deferred
    simp [Coordinator.idleResult] at deferred

theorem deferred (outgrown : allowance bound waiting.slept <
      ((state.cooldownUntil - waiting.now : ℚ) : WithTop ℚ)) :
    Returned.Honest bound begun
      ⟨deferredResult state waiting.slept, coordinator, state, waiting.now, waiting.sleeps⟩ := by
  refine ⟨sound.counted ▸ sound.bounded, sound.counted ▸ sound.elapsed, sound.counted, ?_, ?_⟩
  · intro served
    simp [deferredResult] at served
  · intro _
    refine ⟨?_, rfl⟩
    have past := (allowance_lt_iff bound waiting.slept _).mp outgrown
    rwa [sound.counted] at past

theorem sleep (storage : Storage)
    (planned : planWait state waiting.now (allowance bound waiting.slept) = .serve seconds) :
    (waiting.sleep storage state seconds).Sound bound begun := by
  obtain ⟨positive, exactly, fits⟩ := planWait_serve planned
  refine ⟨add_nonneg sound.nonneg positive.le, ?_, ?_, ?_, ?_⟩
  · simp only [Waiting.sleep, sound.elapsed, add_assoc]
  · simp [Waiting.sleep, sound.counted]
  · have within : ((waiting.slept + seconds : ℚ) : WithTop ℚ) ≤ bound := by
      by_contra past
      exact not_lt.mpr fits ((allowance_lt_iff bound waiting.slept seconds).mpr (not_le.mp past))
    exact within.trans (le_max_right 0 bound)
  · intro _
    simp only [Waiting.sleep]
    linarith

end

end Waiting.Sound

section

variable (coordinator : Coordinator) (key : String) {bound : WithTop ℚ} {begun : ℚ}
  (changes : Nat → List Change) {waiting : Waiting}

theorem waitTurn_sound (sound : waiting.Sound bound begun) :
    (waitTurn coordinator key bound changes waiting).Sound bound begun := by
  simp only [waitTurn]
  generalize waiting.landed changes = storage
  split
  · rename_i unextended
    -- the sleep ended at the target, and the stored expiry is not past it
    have reached := sound.arrived unextended.1
    have within := unextended.2
    simp only [extendedPast, decide_eq_false_iff_not, not_lt] at within
    exact sound.served (reached ▸ within)
  · split
    · rename_i planned
      have expired := planWait_idle planned
      split
      · exact sound.served expired
      · rename_i unslept
        exact sound.idle key (le_antisymm (not_lt.mp unslept) sound.nonneg) expired
    · rename_i planned
      exact sound.deferred (planWait_defer planned)
    · rename_i planned
      exact sound.sleep storage planned

theorem waitLoop_sound (fuel : Nat) (sound : waiting.Sound bound begun) :
    (waitLoop coordinator key bound changes fuel waiting).Sound bound begun := by
  induction fuel generalizing waiting with
  | zero => exact sound
  | succ fuel ih =>
    have turned := waitTurn_sound coordinator key changes sound
    rw [waitLoop]
    cases turn : waitTurn coordinator key bound changes waiting with
    | still =>
      rw [turn] at turned
      exact ih turned
    | done =>
      rw [turn] at turned
      exact turned

theorem storeCall_eq {α : Type} (read : Storage → α) :
    storeCall coordinator changes handed read waiting = (read (waiting.landed changes), waiting.landed changes) := by
  unfold storeCall
  split
  · rfl
  · simp only [← List.foldl_append, List.take_append_drop, Waiting.landed]

theorem awaitTurn_eq :
    awaitTurn coordinator key bound changes handed waiting = waitTurn coordinator key bound changes waiting := by
  simp only [awaitTurn, storeCall_eq]
  rfl

theorem awaitLoop_eq (fuel : Nat) :
    awaitLoop coordinator key bound changes handed fuel waiting =
      waitLoop coordinator key bound changes fuel waiting := by
  induction fuel generalizing waiting with
  | zero => rfl
  | succ fuel ih =>
    rw [awaitLoop, waitLoop, awaitTurn_eq]
    cases waitTurn coordinator key bound changes waiting with
    | still => exact ih
    | done => rfl

/-! Without changes the store still holds the expiry that was slept toward. -/

structure Waiting.Settled (key : String) (waiting : Waiting) : Prop where
  slept : 0 < waiting.slept
  stored : (waiting.storage.getState key).cooldownUntil = waiting.targetUntil

theorem waitTurn_still {next : Waiting} (sound : waiting.Sound bound begun)
    (turned : waitTurn coordinator key bound changes waiting = .still next) :
    next.Settled key ∧ next.reads = waiting.reads + 1 := by
  simp only [waitTurn] at turned
  split at turned
  · cases turned
  · split at turned
    · split at turned <;> cases turned
    · cases turned
    · rename_i planned
      cases turned
      exact ⟨⟨add_pos_of_nonneg_of_pos sound.nonneg (planWait_serve planned).1, rfl⟩, rfl⟩

theorem waitTurn_quiet (bound : WithTop ℚ) (settled : waiting.Settled key) (quiet : changes waiting.reads = []) :
    ∃ returned, waitTurn coordinator key bound changes waiting = .done returned := by
  have unextended : extendedPast (waiting.storage.getState key) waiting.targetUntil = false := by
    simp [extendedPast, settled.stored]
  have landed : waiting.landed changes = waiting.storage := by
    simp [Waiting.landed, quiet]
  simp only [waitTurn, landed, settled.slept, unextended, and_self, if_true]
  exact ⟨_, rfl⟩

theorem waitLoop_returns {last : Nat} (quiet : ∀ read, last ≤ read → changes read = [])
    (fuel : Nat) (sound : waiting.Sound bound begun) (settled : waiting.Settled key)
    (enough : last ≤ waiting.reads + fuel) :
    ∃ returned, waitLoop coordinator key bound changes (fuel + 1) waiting = .done returned := by
  induction fuel generalizing waiting with
  | zero =>
    obtain ⟨returned, turn⟩ := waitTurn_quiet coordinator key changes bound settled (quiet waiting.reads enough)
    exact ⟨returned, by simp [waitLoop, turn]⟩
  | succ fuel ih =>
    have turned := waitTurn_sound coordinator key changes sound
    rw [waitLoop]
    cases turn : waitTurn coordinator key bound changes waiting with
    | still =>
      obtain ⟨settledNext, counted⟩ := waitTurn_still coordinator key changes sound turn
      rw [turn] at turned
      exact ih turned settledNext (by omega)
    | done returned => exact ⟨returned, rfl⟩

end

/-- The wait keeps its bound, goes ahead only when the cooldown is over, defers only beyond the bound,
and returns once the others stop changing the store. -/
theorem wait_serves_or_defers (coordinator : Coordinator) (key : String)
    (maxWait : Option (WithTop ℚ)) (now : ℚ) (storage : Storage) (changes : Nat → List Change) :
    (∀ fuel, ((coordinator.waitIfNeeded key maxWait now storage changes fuel).sleeps.sum :
        WithTop ℚ) ≤ max 0 (coordinator.bound maxWait)) ∧
      (∀ fuel returned,
        coordinator.waitIfNeeded key maxWait now storage changes fuel = .done returned →
          returned.now = now + returned.sleeps.sum ∧
          (returned.result.deferred = false → returned.lastRead.cooldownUntil ≤ returned.now) ∧
          (returned.result.deferred = true →
            coordinator.bound maxWait <
              ((returned.sleeps.sum + (returned.lastRead.cooldownUntil - returned.now) : ℚ) : WithTop ℚ) ∧
            returned.result.notBefore = some returned.lastRead.cooldownUntil)) ∧
      (∀ handed fuel, coordinator.awaitIfNeeded key maxWait now storage changes handed fuel =
        coordinator.waitIfNeeded key maxWait now storage changes fuel) ∧
      (∀ last, (∀ read, last ≤ read → changes read = []) →
        ∃ returned, coordinator.waitIfNeeded key maxWait now storage changes (last + 2) = .done returned) := by
  have begins := Waiting.start_sound (coordinator.bound maxWait) now storage
  refine ⟨?_, ?_, ?_, ?_⟩
  · intro fuel
    exact (waitLoop_sound coordinator key changes fuel begins).sleeps_le
  · intro fuel returned finished
    have honest := waitLoop_sound coordinator key changes fuel begins
    rw [Coordinator.waitIfNeeded] at finished
    rw [finished] at honest
    exact ⟨honest.elapsed, honest.expired, honest.outgrown⟩
  · intro handed fuel
    exact awaitLoop_eq coordinator key changes fuel
  · intro last quiet
    simp only [Coordinator.waitIfNeeded]
    have turned := waitTurn_sound coordinator key changes begins
    rw [waitLoop]
    cases turn : waitTurn coordinator key (coordinator.bound maxWait) changes (.start now storage) with
    | still =>
      obtain ⟨settled, counted⟩ := waitTurn_still coordinator key changes begins turn
      rw [turn] at turned
      exact waitLoop_returns coordinator key changes quiet last turned settled (by omega)
    | done returned => exact ⟨returned, rfl⟩

end Baldur.RateLimit
