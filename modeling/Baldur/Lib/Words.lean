import Mathlib.Data.List.TakeWhile

/-!
Texts made of words and a separator. A word without the separator is read back from a text that ends after it
or goes on with the separator, a number from its digits.
-/

namespace Words

open List

variable {α : Type} {separator : α}

def EndsWord (separator : α) (rest : List α) : Prop :=
  rest.head? = none ∨ rest.head? = some separator

theorem endsWord_cons (rest : List α) : EndsWord separator (separator :: rest) := by
  exact .inr rfl

variable [DecidableEq α]

theorem takeWhile_word {word rest : List α} (free : separator ∉ word) (ends : EndsWord separator rest) :
    (word ++ rest).takeWhile (· ≠ separator) = word := by
  induction word with
  | nil =>
    cases rest with
    | nil => rfl
    | cons =>
      rcases ends with nothing | goesOn
      · simp at nothing
      · simp only [head?_cons, Option.some.injEq] at goesOn
        simp [goesOn]
  | cons letter tail ih =>
    simp only [mem_cons, not_or] at free
    rw [cons_append, takeWhile_cons, if_pos (by simpa using Ne.symm free.1), ih free.2]

theorem word_inj {first second rest rest' : List α} (free : separator ∉ first) (free' : separator ∉ second)
    (ends : EndsWord separator rest) (ends' : EndsWord separator rest')
    (same : first ++ rest = second ++ rest') : first = second ∧ rest = rest' := by
  have words := congrArg (takeWhile (· ≠ separator)) same
  rw [takeWhile_word free ends, takeWhile_word free' ends'] at words
  subst words
  exact ⟨rfl, append_cancel_left same⟩

theorem repr_injective : Function.Injective Nat.repr := by
  intro first second same
  have digits := congrArg (fun text => Nat.ofDigitChars 10 text.toList 0) same
  simpa [Nat.repr_eq_ofList_toDigits, Nat.ofDigitChars_ten_toDigits] using digits

end Words
