import PhpTestIndex.Text.Decimal

/-! # Decimal digits of a number

The digits of a number mean the number (`PhpTestIndex.Text.digitsValue_toDigits`), and they do not
begin with zero.
-/

namespace PhpTestIndex.Text

theorem isDigit_of_mem_toDigits {n : Nat} {c : Char} (member : c ∈ Nat.toDigits 10 n) :
    c.isDigit = true :=
  Nat.isDigit_of_mem_toDigits (by decide) (by decide) member

/-- A number is written in one digit at least. -/
theorem exists_first_toDigits (n : Nat) :
    ∃ first more, Nat.toDigits 10 n = first :: more ∧ first.isDigit = true := by
  obtain ⟨first, more, written⟩ := List.exists_cons_of_ne_nil (@Nat.toDigits_ne_nil n 10)
  exact ⟨first, more, written, isDigit_of_mem_toDigits (written ▸ List.mem_cons_self)⟩

/-- One digit more makes the value ten times as great and adds the value of the digit. -/
theorem digitsValue_concat (digits : List Char) {c : Char} (isDigit : c.isDigit = true) :
    digitsValue 10 (digits ++ [c]) = digitsValue 10 digits * 10 + (c.toNat - 48) := by
  simp [digitsValue, digitsValue.digitValue?, isDigit]

/-- The value of the digits of a number is the number. -/
theorem digitsValue_toDigits (n : Nat) : digitsValue 10 (Nat.toDigits 10 n) = n := by
  have values :
      ∀ digit < 10, digit.digitChar.isDigit = true ∧ digit.digitChar.toNat - 48 = digit := by
    decide
  induction n using Nat.strongRecOn with
  | ind n ih =>
      by_cases single : n < 10
      · have value := values n single
        rw [Nat.toDigits_of_lt_base single, ← List.nil_append [_], digitsValue_concat _ value.1,
          value.2]
        exact Nat.zero_add n
      · have value := values (n % 10) (Nat.mod_lt n (by decide))
        rw [Nat.toDigits_of_base_le (by decide) (Nat.not_lt.mp single),
          digitsValue_concat _ value.1, value.2, ih (n / 10) (by omega)]
        omega

/-- The digits of a number do not begin with zero. -/
theorem head?_toDigits {n : Nat} (positive : 0 < n) : (Nat.toDigits 10 n).head? ≠ some '0' := by
  induction n using Nat.strongRecOn with
  | ind n ih =>
      by_cases single : n < 10
      · rw [Nat.toDigits_of_lt_base single]
        have digits : ∀ n < 10, 0 < n → n.digitChar ≠ '0' := by decide
        simpa using digits n single positive
      · have later := ih (n / 10) (by omega) (by omega)
        obtain ⟨first, more, digits⟩ :=
          List.exists_cons_of_ne_nil (@Nat.toDigits_ne_nil (n / 10) 10)
        rw [Nat.toDigits_of_base_le (by decide) (Nat.not_lt.mp single), digits]
        rwa [digits] at later

end PhpTestIndex.Text
