import EntityQuery.Text.Digit
import Mathlib.Data.List.TakeWhile

/-!
# Decimal digits

The decimal digits of a number have it as their value (`digitsValue_toDigits`), and they are found
again at the front of a text that does not go on with a digit (`takeWhile_toDigits`).
-/

set_option autoImplicit false

namespace EntityQuery.Text

variable {n : Nat} {rest : List Char}

theorem digitsValue_toDigits (n : Nat) : digitsValue (Nat.toDigits 10 n) = n := by
  rw [digitsValue, digitsValueFrom, ← Nat.ofDigitChars_eq_foldl, Nat.ofDigitChars_ten_toDigits]

theorem isDigit_of_mem_toDigits {c : Char} (member : c ∈ Nat.toDigits 10 n) : c.isDigit = true :=
  Nat.isDigit_of_mem_toDigits (by decide) (by decide) member

theorem toList_toString (n : Nat) : (toString n).toList = Nat.toDigits 10 n := by
  rw [Nat.toString_eq_ofList_toDigits, String.toList_ofList]

/-- The digits of a number are all of the digits that a text begins with, if no digit follows them.
-/
theorem takeWhile_toDigits (n : Nat) (ends : ∀ c ∈ rest.head?, c.isDigit = false) :
    (Nat.toDigits 10 n ++ rest).takeWhile Char.isDigit = Nat.toDigits 10 n ∧
      (Nat.toDigits 10 n ++ rest).dropWhile Char.isDigit = rest := by
  have digits : ∀ c ∈ Nat.toDigits 10 n, c.isDigit = true := fun _ => isDigit_of_mem_toDigits
  rw [List.takeWhile_append_of_pos digits, List.dropWhile_append_of_pos digits]
  cases rest with
  | nil => exact ⟨List.append_nil _, rfl⟩
  | cons c more => simp [ends c rfl]

/-- Only zero is written with a zero at the front. -/
theorem head?_toDigits_ne (positive : n ≠ 0) : (Nat.toDigits 10 n).head? ≠ some '0' := by
  induction n using Nat.strongRecOn with
  | ind n ih =>
      rw [Nat.toDigits_eq_if (by decide)]
      split
      · next small =>
        have others : ∀ digit < 10, digit ≠ 0 → digit.digitChar ≠ '0' := by decide
        simpa using others n small positive
      · next large =>
        rw [List.head?_append, Option.or_of_isSome (by simp [Nat.toDigits_ne_nil])]
        exact ih (n / 10) (Nat.div_lt_self (by omega) (by decide)) (by omega)

end EntityQuery.Text
