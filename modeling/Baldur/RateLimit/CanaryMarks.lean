import Baldur.RateLimit.CooldownWait
import Baldur.Lib.Stepwise

/-!
The canary of one key in one process (`coordinator.py`): marked by the first idle reader after a
cooldown, cleared by a success only.
-/

namespace Baldur.RateLimit

open Coordinator Stepwise Storage

/-- `awaiting` is a record of the model: a cooldown was installed, and since then no call found the
key idle and none succeeded. -/
structure CanaryRun where
  now : ℚ
  storage : Storage := ⟨fun _ => .default⟩
  coordinator : Coordinator
  awaiting : Bool := false

inductive CanaryMove
  | limited (delay : ℚ)
  | elapse (seconds : ℚ)
  | turn (bound : WithTop ℚ) (slept targetUntil : ℚ)
  | success
  | failure

def Coordinator.clearCanaryState (coordinator : Coordinator) (key : String) : Coordinator :=
  { coordinator with canaryInProgress := coordinator.canaryInProgress.filter (· ≠ key) }

namespace CanaryRun

variable (key : String) (run : CanaryRun)

def turn (bound : WithTop ℚ) (slept targetUntil : ℚ) : Progress :=
  waitTurn run.coordinator key bound (fun _ => []) ⟨run.now, run.storage, 0, slept, targetUntil, []⟩

def FindsIdle (slept : ℚ) : Prop :=
  slept ≤ 0 ∧ (run.storage.getState key).cooldownUntil ≤ run.now

instance (slept : ℚ) : Decidable (run.FindsIdle key slept) :=
  inferInstanceAs (Decidable (_ ∧ _))

def step : CanaryMove → CanaryRun
  | .limited delay =>
      { run with
        storage := (run.storage.incrementConsecutive429s key).extendCooldown key (run.now + delay)
        awaiting := true }
  | .elapse seconds => { run with now := run.now + seconds }
  | .turn bound slept targetUntil =>
      match run.turn key bound slept targetUntil with
      | .done returned =>
          { run with
            coordinator := returned.coordinator
            awaiting := run.awaiting && !decide (run.FindsIdle key slept) }
      | .still _ => run
  | .success =>
      { run with
        coordinator := run.coordinator.clearCanaryState key
        storage :=
          if (run.storage.getState key).consecutive429s > 0 then run.storage.resetConsecutive429s key
          else run.storage
        awaiting := false }
  | .failure => run

/-- A call is marked exactly when it is the first to find the key idle after a cooldown, before any success. -/
def marked : CanaryMove → Bool
  | .turn bound slept targetUntil =>
      match run.turn key bound slept targetUntil with
      | .done returned => returned.result.isCanary == (run.awaiting && decide (run.FindsIdle key slept))
      | .still _ => true
  | _ => true

def Unmarked : CanaryMove → Prop
  | .turn _ slept _ => run.awaiting = true → run.FindsIdle key slept → key ∉ run.coordinator.canaryInProgress
  | _ => True

structure Sound : Prop where
  limited : run.awaiting = true → 0 < (run.storage.getState key).consecutive429s
  settled : run.awaiting = false →
    (run.storage.getState key).consecutive429s = 0 ∨ key ∈ run.coordinator.canaryInProgress

variable {key : String} {run : CanaryRun}

theorem turn_idle {slept : ℚ} (idle : run.FindsIdle key slept) (bound : WithTop ℚ) (targetUntil : ℚ) :
    ∃ returned, run.turn key bound slept targetUntil = .done returned ∧
      (returned.result, returned.coordinator) = run.coordinator.idleResult key (run.storage.getState key) := by
  have first : ¬0 < slept := not_lt.mpr idle.1
  have ended : (run.storage.getState key).remainingCooldown run.now = 0 := max_eq_left (sub_nonpos.mpr idle.2)
  simp [turn, waitTurn, Waiting.landed, planWait, ended, first]

theorem turn_busy {bound : WithTop ℚ} {slept targetUntil : ℚ} {returned : Returned}
    (busy : ¬run.FindsIdle key slept) (turned : run.turn key bound slept targetUntil = .done returned) :
    returned.result.isCanary = false ∧ returned.coordinator = run.coordinator := by
  simp only [turn, waitTurn] at turned
  split at turned
  · cases turned
    exact ⟨rfl, rfl⟩
  · split at turned
    · rename_i planned
      split at turned
      · cases turned
        exact ⟨rfl, rfl⟩
      · rename_i first
        exact absurd ⟨not_lt.mp first, planWait_idle planned⟩ busy
    · cases turned
      exact ⟨rfl, rfl⟩
    · cases turned

theorem Sound.marked_iff (sound : run.Sound key) (move : CanaryMove) :
    run.marked key move = true ↔ run.Unmarked key move := by
  obtain ⟨limited, settled⟩ := sound
  cases move with
  | turn bound slept targetUntil =>
    by_cases idle : run.FindsIdle key slept
    · obtain ⟨returned, turned, result⟩ := turn_idle idle bound targetUntil
      grind [marked, Unmarked, idleResult, checkCanaryMode]
    · cases turned : run.turn key bound slept targetUntil with
      | done returned => simp [marked, Unmarked, idle, turned, turn_busy idle turned]
      | still => simp [marked, Unmarked, idle, turned]
  | limited | elapse | success | failure => exact iff_of_true rfl trivial

theorem Sound.step (sound : run.Sound key) (move : CanaryMove) (unmarked : run.Unmarked key move) :
    (run.step key move).Sound key := by
  obtain ⟨limited, settled⟩ := sound
  cases move with
  | turn bound slept targetUntil =>
    simp only [CanaryRun.step]
    split
    · rename_i returned turned
      by_cases idle : run.FindsIdle key slept
      · obtain ⟨_, same, result⟩ := turn_idle idle bound targetUntil
        cases turned.symm.trans same
        constructor <;> grind [Unmarked, Coordinator.idleResult, Coordinator.checkCanaryMode]
      · rw [(turn_busy idle turned).2]
        constructor <;> simpa [idle]
    · exact ⟨limited, settled⟩
  | limited delay =>
    refine ⟨fun _ => ?_, fun wrong => (by cases wrong)⟩
    simp [CanaryRun.step, Storage.getState, Storage.extendCooldown, Storage.incrementConsecutive429s, Storage.put]
  | success =>
    refine ⟨fun wrong => (by cases wrong), fun _ => .inl ?_⟩
    simp only [CanaryRun.step]
    split
    · simp [Storage.getState, Storage.resetConsecutive429s, Storage.put]
    · omega
  | elapse | failure => exact ⟨limited, settled⟩

end CanaryRun

end Baldur.RateLimit
