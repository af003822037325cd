import Mathlib.Algebra.Order.Field.Rat
import Mathlib.Data.Int.Log
import Mathlib.Data.Rat.Floor

/-!
Rounding of exact results to 53 significant bits, ties to the even neighbour, as the operations of binary64
floats do. The exponent is not bounded.
-/

namespace Binary64

def roundEven (x : ℚ) : ℤ :=
  if x - ⌊x⌋ < 1 / 2 ∨ x - ⌊x⌋ = 1 / 2 ∧ ⌊x⌋ % 2 = 0 then ⌊x⌋ else ⌊x⌋ + 1

def round (x : ℚ) : ℚ :=
  let unit : ℚ := 2 ^ (Int.log 2 |x| - 52)
  roundEven (x / unit) * unit

theorem roundEven_intCast (n : ℤ) : roundEven n = n := by
  simp [roundEven]

theorem round_intCast {n : ℤ} (small : |n| < 2 ^ 53) : round n = n := by
  by_cases zero : n = 0
  · simp [round, zero, roundEven]
  have bits : Int.log 2 |(n : ℚ)| < 53 := by
    rw [← Int.lt_zpow_iff_log_lt one_lt_two (by simpa using zero)]
    exact_mod_cast small
  obtain ⟨shift, scale⟩ : ∃ shift : ℕ, Int.log 2 |(n : ℚ)| - 52 = -shift := ⟨(52 - Int.log 2 |(n : ℚ)|).toNat, by omega⟩
  have scaled : (n : ℚ) / 2 ^ (-shift : ℤ) = (n * 2 ^ shift : ℤ) := by
    simp
  simp only [round, scale, scaled, roundEven_intCast]
  simp

end Binary64
