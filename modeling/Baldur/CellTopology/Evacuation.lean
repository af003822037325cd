import Baldur.Lib.Binary64
import Baldur.Lib.Slots
import Baldur.Lib.Stepwise
import Mathlib.Tactic.Linarith
import Mathlib.Tactic.NormNum

/-!
The evacuation policy of the cell topology (`services/cell_topology/policy.py`, `registry.py`, `models.py`). A
tick counts good or bad scores in the cell's metadata; the evacuation limit is tested before the move it allows.
-/

namespace Baldur.CellTopology

inductive CellState
  | active
  | warmup
  | draining
  | isolated
  deriving DecidableEq

/-- `lastStateChange` is the state its entry `to` names. -/
structure CellInfo where
  state : CellState := .active
  evacuationBelowCount : Nat := 0
  recoveryAboveCount : Nat := 0
  lastStateChange : Option CellState := none
  lastStateChangeTime : Option ℚ := none
  updatedAt : ℚ := 0

structure CellTopologySettings where
  evacuationHealthThreshold : ℚ := 3 / 10
  recoveryHealthThreshold : ℚ := 7 / 10
  evacuationConsecutiveCount : Nat := 3
  recoveryConsecutiveCount : Nat := 5
  evacuationTrafficDrainSeconds : ℚ := 30
  evacuationDrainGraceSeconds : ℚ := 2
  maxEvacuatedRatio : ℚ := 1 / 4
  ratio : 0 ≤ maxEvacuatedRatio ∧ maxEvacuatedRatio ≤ 1 := by norm_num

namespace CellInfo

def setState (now : ℚ) (state : CellState) (cell : CellInfo) : CellInfo :=
  { cell with state, updatedAt := now, lastStateChange := some state, lastStateChangeTime := some now }

def resetCounts (cell : CellInfo) : CellInfo :=
  { cell with evacuationBelowCount := 0, recoveryAboveCount := 0 }

end CellInfo

/-- The quotient and the difference are floats. -/
def evacuatedRatio (active total : Nat) : ℚ :=
  Binary64.round (1 - Binary64.round (active / total))

section

variable (settings : CellTopologySettings) (cells : List CellInfo) (score now : ℚ) (cell : CellInfo)

def checkGlobalEvacuationLimit : Bool :=
  cells.length ≠ 0 && evacuatedRatio (cells.countP (·.state = .active)) cells.length < settings.maxEvacuatedRatio

def tickActive : CellInfo × Bool :=
  if score ≤ settings.evacuationHealthThreshold then
    let counted := { cell with evacuationBelowCount := cell.evacuationBelowCount + 1 }
    if counted.evacuationBelowCount < settings.evacuationConsecutiveCount then (counted, false)
    else if checkGlobalEvacuationLimit settings cells then (counted.resetCounts.setState now .draining, true)
    else (counted, false)
  else ({ cell with evacuationBelowCount := 0 }, false)

def tickDraining : CellInfo × Bool :=
  if cell.lastStateChange ≠ some .draining then (cell, false)
  else match cell.lastStateChangeTime with
    | none => ({ cell with lastStateChangeTime := some now }, false)
    | some started =>
        if now - started < settings.evacuationTrafficDrainSeconds + settings.evacuationDrainGraceSeconds then
          (cell, false)
        else (cell.resetCounts.setState now .isolated, true)

def tickIsolated : CellInfo × Bool :=
  if settings.recoveryHealthThreshold ≤ score then
    let counted := { cell with recoveryAboveCount := cell.recoveryAboveCount + 1 }
    if counted.recoveryAboveCount < settings.recoveryConsecutiveCount then (counted, false)
    else (counted.resetCounts.setState now .active, true)
  else ({ cell with recoveryAboveCount := 0 }, false)

def tick : CellInfo × Bool :=
  match cell.state with
  | .warmup => (cell, false)
  | .active => tickActive settings cells score now cell
  | .draining => tickDraining settings now cell
  | .isolated => tickIsolated settings score now cell

def evaluate (index : Nat) : List CellInfo × Bool :=
  match cells[index]? with
  | none => (cells, false)
  | some cell =>
      let (next, moved) := tick settings cells score now cell
      (cells.set index next, moved)

def evaluated (call : Nat × ℚ × ℚ) : List CellInfo :=
  (evaluate settings cells call.2.1 call.2.2 call.1).1

def Within : Prop :=
  (cells.countP (·.state ≠ .active) : ℚ) ≤ settings.maxEvacuatedRatio * cells.length

instance : Decidable (Within settings cells) :=
  inferInstanceAs (Decidable (_ ≤ _))

/-- With as many of `n` cells away as the limit allows, the computed ratio lets no other cell go. -/
def Stops (n : Nat) : Prop :=
  let away := ⌊settings.maxEvacuatedRatio * n⌋₊
  away < n → settings.maxEvacuatedRatio ≤ evacuatedRatio (n - away) n

end

section

variable {settings : CellTopologySettings} {cells : List CellInfo}

theorem length_eq_active_add (cells : List CellInfo) :
    cells.length = cells.countP (·.state = .active) + cells.countP (·.state ≠ .active) := by
  simpa using cells.length_eq_countP_add_countP (·.state = .active)

theorem room_of_limit (stops : Stops settings cells.length) (within : Within settings cells)
    (allowed : checkGlobalEvacuationLimit settings cells = true) (left : 0 < cells.countP (·.state = .active)) :
    (cells.countP (·.state ≠ .active) + 1 : ℚ) ≤ settings.maxEvacuatedRatio * cells.length := by
  have sum := length_eq_active_add cells
  by_contra full
  have away : ⌊settings.maxEvacuatedRatio * cells.length⌋₊ = cells.countP (·.state ≠ .active) := by
    rw [Nat.floor_eq_iff (within.trans' (Nat.cast_nonneg _))]
    exact ⟨within, not_le.mp full⟩
  simp only [checkGlobalEvacuationLimit, Bool.and_eq_true, decide_eq_true_eq] at allowed
  have refused := stops (by omega)
  rw [away, show cells.length - _ = _ from Nat.sub_eq_of_eq_add sum] at refused
  exact absurd allowed.2 (not_lt.mpr refused)

theorem length_evaluated (call : Nat × ℚ × ℚ) : (evaluated settings cells call).length = cells.length := by
  unfold evaluated evaluate
  split <;> simp

theorem within_evaluated (stops : Stops settings cells.length) (within : Within settings cells) (call : Nat × ℚ × ℚ) :
    Within settings (evaluated settings cells call) := by
  rw [Within, length_evaluated]
  unfold evaluated evaluate
  split
  · exact within
  · rename_i cell found
    dsimp only
    have count := Slots.countP_set cells call.1 (tick settings cells call.2.1 call.2.2 cell).1 found
      (·.state ≠ .active)
    by_cases evacuates : cell.state = .active ∧ (tick settings cells call.2.1 call.2.2 cell).1.state ≠ .active
    · obtain ⟨was, gone⟩ := evacuates
      have allowed : checkGlobalEvacuationLimit settings cells = true := by
        by_contra shut
        simp only [tick, was, tickActive, shut, if_false] at gone
        split_ifs at gone <;> simp at gone
      have left : 0 < cells.countP (·.state = .active) :=
        List.countP_pos_iff.mpr ⟨cell, List.mem_of_getElem? found, by simpa using was⟩
      refine le_trans ?_ (room_of_limit stops within allowed left)
      simp [was, gone] at count ⊢
      exact_mod_cast count.le
    · have grows : (decide ((tick settings cells call.2.1 call.2.2 cell).1.state ≠ .active)).toNat ≤
          (decide (cell.state ≠ .active)).toNat := by
        by_cases was : cell.state = .active
        · simp_all
        · simpa [was] using Bool.toNat_le _
      exact (Nat.cast_le.mpr (by omega)).trans within

def nearlyEvacuated (settings : CellTopologySettings) (warm others : Nat) : List CellInfo :=
  { evacuationBelowCount := settings.evacuationConsecutiveCount - 1 } ::
    (List.replicate warm { state := .warmup } ++ List.replicate others ({} : CellInfo))

theorem limit_overrun {warm others : Nat}
    (proper : evacuatedRatio (others + 1) (warm + others + 1) < settings.maxEvacuatedRatio)
    (kept : Within settings (evaluated settings (nearlyEvacuated settings warm others)
      (0, settings.evacuationHealthThreshold, 0))) :
    (warm + 1 : Nat) ≤ settings.maxEvacuatedRatio * (warm + others + 1 : Nat) := by
  have left : (nearlyEvacuated settings warm others).countP (·.state = .active) = others + 1 := by
    simp [nearlyEvacuated, List.countP_replicate]
  have size : (nearlyEvacuated settings warm others).length = warm + others + 1 := by
    simp [nearlyEvacuated]
  have room : checkGlobalEvacuationLimit settings (nearlyEvacuated settings warm others) = true := by
    rw [checkGlobalEvacuationLimit, left, size]
    simpa using proper
  have reached : ¬settings.evacuationConsecutiveCount - 1 + 1 < settings.evacuationConsecutiveCount := by
    omega
  rw [Within, length_evaluated, size] at kept
  simp only [nearlyEvacuated] at room
  convert kept using 2
  simp [evaluated, evaluate, tick, tickActive, room, nearlyEvacuated, reached, CellInfo.setState, List.countP_replicate]

end

end Baldur.CellTopology
