import Mathlib.Data.List.Induction
import SecureHome.Lib.Decimal
import SecureHome.Toolchain.ParseManifest

/-! Shortest decimals: the tokens the parser admits are the ones integers are written as. -/

namespace SecureHome.Toolchain
open Lib

variable {value digit : Nat} {token : JsString}

theorem digit_unit (small : digit < 10) : isDigitUnit (UInt16.ofNat (0x30 + digit)) = true ∧
    (UInt16.ofNat (0x30 + digit)).toNat - 0x30 = digit := by
  have every : ∀ digit : Fin 10, isDigitUnit (UInt16.ofNat (0x30 + digit.val)) = true ∧
      (UInt16.ofNat (0x30 + digit.val)).toNat - 0x30 = digit.val := by decide
  exact every ⟨digit, small⟩

theorem unit_of_digit {unit : UInt16} (digits : isDigitUnit unit = true) :
    unit.toNat - 0x30 < 10 ∧ unit = UInt16.ofNat (0x30 + (unit.toNat - 0x30)) := by
  simp only [isDigitUnit, Bool.and_eq_true, decide_eq_true_eq] at digits
  refine ⟨by omega, ?_⟩
  rw [show 0x30 + (unit.toNat - 0x30) = unit.toNat by omega, UInt16.ofNat_toNat]

theorem decimalValue_concat (token : JsString) (unit : UInt16) :
    decimalValue (token ++ [unit]) = decimalValue token * 10 + (unit.toNat - 0x30) := by
  simp [decimalValue]

theorem intToken_concat {unit : UInt16} (some_units : token ≠ []) :
    intToken (token ++ [unit]) = true ↔ intToken token = true ∧ token ≠ [0x30] ∧ isDigitUnit unit = true := by
  cases token with
  | nil => exact absurd rfl some_units
  | cons first rest =>
    cases rest with
    | nil =>
      simp [intToken]
      grind
    | cons next rest =>
      simp [intToken]
      grind

/-- What an integer is written as is a token, of that value. -/
theorem repr_token (value : Nat) : intToken (units value.repr) = true ∧ decimalValue (units value.repr) = value := by
  induction value using Nat.strongRecOn with
  | ind value ih =>
    by_cases small : value < 10
    · obtain ⟨digits, number⟩ := digit_unit small
      rw [repr_digit small]
      refine ⟨digits, ?_⟩
      rw [← List.nil_append [_], decimalValue_concat, number]
      exact Nat.zero_add value
    · have split : value = value / 10 * 10 + value % 10 := by omega
      have low : value % 10 < 10 := Nat.mod_lt _ (by decide)
      obtain ⟨shortest, meaning⟩ := ih (value / 10) (by omega)
      rw [split, repr_step (by omega) low]
      refine ⟨(intToken_concat ?_).mpr ⟨shortest, ?_, (digit_unit low).1⟩, ?_⟩
      · intro empty
        rw [empty] at shortest
        cases shortest
      · intro zero
        rw [zero] at meaning
        simp [decimalValue] at meaning
        omega
      · rw [decimalValue_concat, meaning, (digit_unit low).2]

/-- A token is what its value is written as. -/
theorem token_repr (shortest : intToken token = true) : token = units (decimalValue token).repr := by
  induction token using List.reverseRecOn with
  | nil => cases shortest
  | append_singleton token unit ih =>
    by_cases empty : token = []
    · subst empty
      obtain ⟨low, same⟩ := unit_of_digit (by simpa [intToken] using shortest)
      rw [decimalValue_concat, show decimalValue [] = 0 from rfl, Nat.zero_mul, Nat.zero_add, repr_digit low, ← same]
      rfl
    · obtain ⟨kept, nonzero, digits⟩ := (intToken_concat empty).mp shortest
      obtain ⟨low, same⟩ := unit_of_digit digits
      have positive : 0 < decimalValue token := by
        refine Nat.pos_of_ne_zero fun zero => nonzero ?_
        rw [ih kept, zero]
        rfl
      rw [decimalValue_concat, repr_step positive low, ← ih kept, ← same]

theorem pow_le_doubleLimit {exponent : Nat} (low : exponent ≤ 1024) : 2 ^ exponent ≤ doubleLimit := by
  unfold doubleLimit
  exact Nat.pow_le_pow_right (by decide) low

theorem roundedBits_safe (safe : value < 2 ^ 53) : roundedBits value = value := by
  have small : Nat.log2 value - 52 = 0 := by
    by_cases zero : value = 0
    · rw [zero]
      decide
    · have bound := (Nat.log2_lt zero (k := 53)).mpr safe
      omega
  have exact_value : ¬ (0 > 1 ∨ 0 = 1 ∧ value % 2 = 1) := by omega
  unfold roundedBits
  simp only [small, Nat.pow_zero, Nat.mod_one, Nat.div_one, Nat.mul_zero, Nat.mul_one]
  rw [if_neg exact_value]

theorem roundedBits_unsafe (large : 2 ^ 53 ≤ value) : 2 ^ 53 ≤ roundedBits value := by
  have positive : value ≠ 0 := by omega
  have high : 53 ≤ Nat.log2 value := (Nat.le_log2 positive).mpr large
  have quotient : 2 ^ 52 ≤ value / 2 ^ (Nat.log2 value - 52) := by
    rw [Nat.le_div_iff_mul_le (Nat.two_pow_pos _), ← Nat.pow_add]
    exact (Nat.le_log2 positive).mp (by omega)
  have scale : 2 ≤ 2 ^ (Nat.log2 value - 52) := by
    calc 2 = 2 ^ 1 := rfl
      _ ≤ 2 ^ (Nat.log2 value - 52) := Nat.pow_le_pow_right (by decide) (by omega)
  unfold roundedBits
  dsimp only
  rw [show 2 ^ 53 = 2 ^ 52 * 2 from rfl]
  refine Nat.mul_le_mul ?_ scale
  split
  · exact Nat.le_succ_of_le quotient
  · exact quotient

theorem intProblem_integer {number : Int} :
    intProblem (.integer number) = none ↔ 0 ≤ number ∧ number < 2 ^ 53 := by
  have bound : maxSafeInteger = 2 ^ 53 - 1 := rfl
  by_cases negative : number < 0
  · simp only [intProblem, if_pos negative]
    simp
    omega
  · by_cases large : number > maxSafeInteger
    · simp only [intProblem, if_neg negative, if_pos large]
      simp
      omega
    · simp only [intProblem, if_neg negative, if_neg large]
      simp
      omega

theorem numberOf_small (small : decimalValue token < 2 ^ 53) : numberOf token = .integer (decimalValue token) := by
  have finite : decimalValue token < doubleLimit := Nat.lt_of_lt_of_le small (pow_le_doubleLimit (by decide))
  rw [numberOf, roundDouble, roundedBits_safe small, if_pos finite]

/-- A number is admitted by the serializer exactly if it is read without rounding. -/
theorem numberOf_safe : intProblem (numberOf token) = none ↔ decimalValue token < 2 ^ 53 := by
  refine ⟨fun admitted => ?_, fun small => ?_⟩
  · by_contra large
    have rounded := roundedBits_unsafe (Nat.le_of_not_lt large)
    rw [numberOf, roundDouble] at admitted
    split at admitted
    next number found =>
      split at found
      · rw [← Option.some.inj found, intProblem_integer] at admitted
        omega
      · cases found
    next => cases admitted
  · rw [numberOf_small small, intProblem_integer]
    omega

end SecureHome.Toolchain
