import Mathlib.Data.Nat.Notation
import Mathlib.Logic.Function.Basic
import SecureHome.Lib.Unicode

/-! Decimal numerals as texts. -/

namespace SecureHome.Lib

theorem digit_of_mem_repr {number : ℕ} {character : Char} (member : character ∈ number.repr.toList) :
    character.isDigit = true := by
  rw [Nat.toList_repr] at member
  exact Nat.isDigit_of_mem_toDigits (by decide) (by decide) member

theorem repr_injective : Function.Injective Nat.repr := by
  intro one other same
  have digits := congrArg String.toList same
  rw [Nat.toList_repr, Nat.toList_repr] at digits
  rw [← @Nat.ofDigitChars_ten_toDigits one, digits, Nat.ofDigitChars_ten_toDigits]

variable {value digit : ℕ}

theorem units_repr (value : ℕ) : units value.repr = (Nat.toDigits 10 value).flatMap utf16 := by
  rw [units, Nat.toList_repr]

theorem utf16_digitChar (small : digit < 10) : utf16 digit.digitChar = [UInt16.ofNat (0x30 + digit)] := by
  have every : ∀ digit : Fin 10, utf16 digit.val.digitChar = [UInt16.ofNat (0x30 + digit.val)] := by decide
  exact every ⟨digit, small⟩

theorem repr_digit (small : digit < 10) : units digit.repr = [UInt16.ofNat (0x30 + digit)] := by
  rw [units_repr, Nat.toDigits_of_lt_base small, List.flatMap_singleton, utf16_digitChar small]

theorem repr_step (positive : 0 < value) (small : digit < 10) :
    units (value * 10 + digit).repr = units value.repr ++ [UInt16.ofNat (0x30 + digit)] := by
  rw [units_repr, Nat.mul_comm, ← Nat.toDigits_append_toDigits (by decide) positive small, List.flatMap_append,
    ← units_repr, ← units_repr, repr_digit small]

end SecureHome.Lib
