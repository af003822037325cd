import Mathlib.Algebra.Group.Nat.Defs

/-!
The Lua pin test compares stamps as texts (`adapters/redis/circuit_breaker.py`), the Python one compares datetimes
(`interfaces/repositories.py`). A text is the list of its characters, here of one byte each.
-/

namespace Baldur.CircuitBreaker

/-- The calendar's own bounds lie within those of the printed widths. -/
structure UtcDatetime where
  year : Fin (10 ^ 4)
  month : Fin (10 ^ 2)
  day : Fin (10 ^ 2)
  hour : Fin (10 ^ 2)
  minute : Fin (10 ^ 2)
  second : Fin (10 ^ 2)
  microsecond : Fin (10 ^ 6)

namespace UtcDatetime

def digits : Nat → Nat → List Char
  | 0, _ => []
  | width + 1, number => digits width (number / 10) ++ [Nat.digitChar (number % 10)]

def fraction (stamp : UtcDatetime) : List Char :=
  if stamp.microsecond = 0 then [] else '.' :: digits 6 stamp.microsecond

def isoformat (stamp : UtcDatetime) : List Char :=
  digits 4 stamp.year ++ '-' :: (digits 2 stamp.month ++ '-' :: (digits 2 stamp.day ++ 'T' ::
    (digits 2 stamp.hour ++ ':' :: (digits 2 stamp.minute ++ ':' :: (digits 2 stamp.second ++
      (stamp.fraction ++ "+00:00".toList))))))

def fields (stamp : UtcDatetime) : List Nat :=
  [stamp.year, stamp.month, stamp.day, stamp.hour, stamp.minute, stamp.second, stamp.microsecond]

def manualPinIsActive (manuallyControlled : Bool) (expiresAt : Option UtcDatetime) (now : UtcDatetime) : Bool :=
  manuallyControlled && expiresAt.all fun expiresAt => now.fields < expiresAt.fields

def pinActive (mc : String) (expiresAt : Option (List Char)) (nowIso : List Char) : Bool :=
  if mc ≠ "True" then false
  else match expiresAt with
    | none => true
    | some expiresAt => if expiresAt = [] then true else nowIso < expiresAt

theorem digits_append_lt {width : Nat} (first second : Fin (10 ^ width)) (rest others : List Char) :
    digits width first ++ rest < digits width second ++ others ↔
      first.val < second.val ∨ first.val = second.val ∧ rest < others := by
  obtain ⟨first, firstBound⟩ := first
  obtain ⟨second, secondBound⟩ := second
  induction width generalizing first second rest others with
  | zero =>
    simp only [Nat.pow_zero, Nat.lt_one_iff] at firstBound secondBound
    simp [digits, firstBound, secondBound]
  | succ width ih =>
    have order : ∀ left < 10, ∀ right < 10, (Nat.digitChar left < Nat.digitChar right ↔ left < right) ∧
        (Nat.digitChar left = Nat.digitChar right ↔ left = right) := by
      decide
    obtain ⟨less, same⟩ := order (first % 10) (Nat.mod_lt _ (by decide)) (second % 10) (Nat.mod_lt _ (by decide))
    rw [Nat.pow_succ] at firstBound secondBound
    simp only [digits, List.append_assoc, List.singleton_append]
    rw [ih _ _ _ (by omega) _ (by omega), List.cons_lt_cons_iff, less, same]
    by_cases later : rest < others <;> simp only [later, and_true, and_false, or_false] <;> omega

theorem fraction_lt (first second : UtcDatetime) :
    first.fraction ++ "+00:00".toList < second.fraction ++ "+00:00".toList ↔
      first.microsecond.val < second.microsecond.val := by
  unfold fraction
  by_cases whole : first.microsecond = 0 <;> by_cases whole' : second.microsecond = 0
  · simp [whole, whole']
  · have positive : 0 < second.microsecond.val := Nat.pos_of_ne_zero fun zero => whole' (Fin.ext zero)
    simp [whole, whole', List.cons_lt_cons_iff, positive]
  · simp [whole, whole', List.cons_lt_cons_iff]
  · simp [whole, whole', digits_append_lt]

theorem isoformat_lt (first second : UtcDatetime) :
    first.isoformat < second.isoformat ↔ first.fields < second.fields := by
  simp only [isoformat, List.cons_lt_cons_iff, digits_append_lt, fraction_lt]
  simp [fields, List.cons_lt_cons_iff]

theorem lua_pin_agrees (manuallyControlled : Bool) (expiresAt : Option UtcDatetime) (now : UtcDatetime) :
    pinActive (if manuallyControlled then "True" else "False") (expiresAt.map isoformat) now.isoformat =
        manualPinIsActive manuallyControlled expiresAt now ∧
      pinActive (if manuallyControlled then "True" else "False") (some (expiresAt.elim [] isoformat)) now.isoformat =
        manualPinIsActive manuallyControlled expiresAt now := by
  cases manuallyControlled with
  | false => simp [pinActive, manualPinIsActive]
  | true =>
    cases expiresAt with
    | none => simp [pinActive, manualPinIsActive]
    | some expiresAt =>
      have shown : expiresAt.isoformat ≠ [] := by simp [isoformat]
      simp [pinActive, manualPinIsActive, shown, isoformat_lt]

end UtcDatetime

end Baldur.CircuitBreaker
