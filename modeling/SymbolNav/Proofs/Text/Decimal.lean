/-
  SymbolNav/Proofs/Text/Decimal.lean
  ==================================
  **Numbers as they are printed**: in decimal digits, without a sign and with no zero
  in front of other digits (`isDecimal_toString`).
-/
import Mathlib.Data.List.Basic

namespace SymbolNav.Text

/-- The digits of a number, from the first that counts. -/
structure IsDecimal (s : List Char) (n : Nat) : Prop where
  nonempty : s ≠ []
  digits : ∀ d ∈ s, d.isDigit = true
  first : s = ['0'] ∨ s.head? ≠ some '0'
  value : n = Nat.ofDigitChars 10 s 0

theorem head_toDigits {n : Nat} (pos : 0 < n) : (Nat.toDigits 10 n).head? ≠ some '0' := by
  have digit : ∀ n < 10, 0 < n → Nat.digitChar n ≠ '0' := by decide
  induction n using Nat.strongRecOn with
  | ind n ih =>
    rw [Nat.toDigits_eq_if (by decide)]
    by_cases small : n < 10
    · rw [if_pos small]
      simpa using digit n small pos
    · rw [if_neg small, List.head?_append_of_ne_nil _ Nat.toDigits_ne_nil]
      exact ih (n / 10) (by omega) (by omega)

theorem isDecimal_toDigits (n : Nat) : IsDecimal (Nat.toDigits 10 n) n where
  nonempty := Nat.toDigits_ne_nil
  digits := fun _ member => Nat.isDigit_of_mem_toDigits (by decide) (by decide) member
  first := by
    cases n with
    | zero => exact .inl rfl
    | succ n => exact .inr (head_toDigits (Nat.succ_pos n))
  value := Nat.ofDigitChars_ten_toDigits.symm

theorem isDecimal_toString (n : Nat) : IsDecimal (toString n).toList n := by
  rw [Nat.toString_eq_ofList_toDigits, String.toList_ofList]
  exact isDecimal_toDigits n

theorem IsDecimal.not_mem {s : List Char} {n : Nat} {c : Char} (decimal : IsDecimal s n)
    (other : c.isDigit = false) : c ∉ s := by
  intro member
  exact Bool.false_ne_true (other.symm.trans (decimal.digits c member))

end SymbolNav.Text
