import Mathlib.Algebra.Order.Field.Power
import Mathlib.Data.Int.Log
import Mathlib.Data.Rat.Floor
import Mathlib.Tactic.Linarith
import Mathlib.Tactic.NormNum
import Mathlib.Tactic.Positivity

/-! The finite doubles, and the one nearest to a rational. -/

namespace SecureHome.Lib

/-- A significand of at most 53 bits, shifted as far as its exponent lets it. -/
structure Normalized (significand : ℕ) (exponent : ℤ) : Prop where
  bounded : significand < 2 ^ 53
  lowest : -1074 ≤ exponent
  highest : exponent ≤ 971
  shifted : 2 ^ 52 ≤ significand ∨ exponent = -1074

instance (significand : ℕ) (exponent : ℤ) : Decidable (Normalized significand exponent) :=
  decidable_of_iff (significand < 2 ^ 53 ∧ -1074 ≤ exponent ∧ exponent ≤ 971 ∧ (2 ^ 52 ≤ significand ∨ exponent = -1074))
    ⟨fun ⟨bounded, lowest, highest, shifted⟩ => ⟨bounded, lowest, highest, shifted⟩,
      fun ⟨bounded, lowest, highest, shifted⟩ => ⟨bounded, lowest, highest, shifted⟩⟩

structure Double where
  negative : Bool
  significand : ℕ
  exponent : ℤ
  normalized : Normalized significand exponent
  deriving DecidableEq

namespace Double

variable {negative : Bool} {value : ℚ} {number significand : ℕ} {exponent : ℤ}

def magnitude (double : Double) : ℚ := double.significand * 2 ^ double.exponent

def isZero (double : Double) : Prop := double.significand = 0

section Nearest

/-- The nearest natural number, the even one if there are two. -/
def nearest (value : ℚ) : ℕ :=
  if 1 / 2 < value - ⌊value⌋₊ ∨ value - ⌊value⌋₊ = 1 / 2 ∧ ⌊value⌋₊ % 2 = 1 then ⌊value⌋₊ + 1 else ⌊value⌋₊

theorem nearest_natCast : nearest (number : ℚ) = number := by
  unfold nearest
  rw [Nat.floor_natCast, sub_self, if_neg (by norm_num)]

theorem nearest_le (below : value ≤ number) : nearest value ≤ number := by
  have whole : ⌊value⌋₊ ≤ number := Nat.floor_le_of_le below
  unfold nearest
  split
  next up =>
    rcases Nat.lt_or_eq_of_le whole with less | same
    · exact less
    · rw [same] at up
      exfalso
      rcases up with up | ⟨up, _⟩ <;> linarith
  next => exact whole

theorem le_nearest (above : number ≤ value) : number ≤ nearest value := by
  have whole : number ≤ ⌊value⌋₊ := Nat.le_floor above
  unfold nearest
  split
  · exact Nat.le_succ_of_le whole
  · exact whole

/-- An odd number is rounded past from half a unit above it on. -/
theorem lt_nearest_iff (nonnegative : 0 ≤ value) (odd : number % 2 = 1) : number < nearest value ↔ (number : ℚ) + 1 / 2 ≤ value := by
  constructor
  · intro less
    by_contra! short
    have whole : ⌊value⌋₊ ≤ number := by
      apply Nat.lt_succ_iff.mp
      rw [Nat.floor_lt nonnegative]
      push_cast
      linarith
    unfold nearest at less
    split at less
    next up =>
      have same : ⌊value⌋₊ = number := by omega
      rw [same] at up
      rcases up with up | ⟨up, _⟩ <;> linarith
    next => omega
  · intro half
    have whole : number ≤ ⌊value⌋₊ := Nat.le_floor (by linarith)
    rcases Nat.lt_or_eq_of_le whole with less | same
    · unfold nearest
      split <;> omega
    · unfold nearest
      rw [← same, if_pos]
      · exact Nat.lt_succ_self _
      · rcases lt_or_eq_of_le half with more | exact
        · exact .inl (by linarith)
        · exact .inr ⟨by linarith, odd⟩

end Nearest

section Rounding

/-- The exponent of the last place of a rational. -/
def lastPlace (value : ℚ) : ℤ := if value = 0 then -1074 else max (Int.log 2 value - 52) (-1074)

def ofParts (negative : Bool) (significand : ℕ) (exponent : ℤ) : Option Double :=
  if normalized : Normalized significand exponent then some ⟨negative, significand, exponent, normalized⟩ else none

/-- A rational in units of its last place. -/
def placed (value : ℚ) : ℕ := nearest (value / 2 ^ lastPlace value)

/-- The nearest double of a sign to a magnitude, if it is finite. -/
def round (negative : Bool) (value : ℚ) : Option Double :=
  if placed value = 2 ^ 53 then ofParts negative (2 ^ 52) (lastPlace value + 1) else ofParts negative (placed value) (lastPlace value)

theorem lastPlace_magnitude (double : Double) : lastPlace double.magnitude = double.exponent := by
  obtain ⟨negative, significand, exponent, bounded, lowest, highest, shifted⟩ := double
  unfold lastPlace magnitude
  have scale : (0 : ℚ) < 2 ^ exponent := by positivity
  split
  next zero =>
    have none_left : significand = 0 := by
      rcases mul_eq_zero.mp zero with left | right
      · exact_mod_cast left
      · exact absurd right scale.ne'
    subst none_left
    exact (shifted.resolve_left (by norm_num)).symm
  next nonzero =>
    have positive : (0 : ℚ) < significand * 2 ^ exponent := lt_of_le_of_ne (by positivity) (Ne.symm nonzero)
    have upper : Int.log 2 ((significand : ℚ) * 2 ^ exponent) < 53 + exponent := by
      rw [← Int.lt_zpow_iff_log_lt (by decide) positive, zpow_add₀ (by norm_num)]
      apply mul_lt_mul_of_pos_right _ scale
      exact_mod_cast bounded
    rcases shifted with large | last
    · have lower : 52 + exponent ≤ Int.log 2 ((significand : ℚ) * 2 ^ exponent) := by
        rw [← Int.zpow_le_iff_le_log (by decide) positive, zpow_add₀ (by norm_num)]
        apply mul_le_mul_of_nonneg_right _ scale.le
        exact_mod_cast large
      dsimp only
      omega
    · dsimp only
      omega

/-- A double is the nearest to itself. -/
theorem round_magnitude (double : Double) : round negative double.magnitude = some { double with negative } := by
  have exactly : placed double.magnitude = double.significand := by
    rw [placed, lastPlace_magnitude, magnitude, mul_div_cancel_right₀ _ (by positivity), nearest_natCast]
  unfold round
  rw [lastPlace_magnitude, exactly, if_neg double.normalized.bounded.ne, ofParts, dif_pos double.normalized]

theorem div_place_lt (nonnegative : 0 ≤ value) : value / 2 ^ lastPlace value < 2 ^ 53 := by
  have scale : (0 : ℚ) < 2 ^ lastPlace value := by positivity
  rw [div_lt_iff₀ scale]
  unfold lastPlace
  split
  next zero =>
    rw [zero]
    positivity
  next nonzero =>
    have positive := lt_of_le_of_ne nonnegative (Ne.symm nonzero)
    have reaches : Int.log 2 value < 53 + max (Int.log 2 value - 52) (-1074) := by omega
    have bound := (Int.lt_zpow_iff_log_lt (by decide : 1 < 2) positive).mpr reaches
    rw [Nat.cast_ofNat, zpow_add₀ (by norm_num)] at bound
    exact_mod_cast bound

theorem le_div_place (nonnegative : 0 ≤ value) : 2 ^ 52 ≤ value / 2 ^ lastPlace value ∨ lastPlace value = -1074 := by
  unfold lastPlace
  split
  next => exact .inr rfl
  next nonzero =>
    have positive := lt_of_le_of_ne nonnegative (Ne.symm nonzero)
    rcases le_total (Int.log 2 value - 52) (-1074) with low | high
    · exact .inr (max_eq_right low)
    · left
      rw [max_eq_left high, le_div_iff₀ (by positivity)]
      have reaches := (Int.zpow_le_iff_le_log (by decide : 1 < 2) positive).mpr (le_refl (Int.log 2 value))
      rw [Nat.cast_ofNat, show Int.log 2 value = 52 + (Int.log 2 value - 52) by omega, zpow_add₀ (by norm_num)] at reaches
      have whole : (52 + (Int.log 2 value - 52) : ℤ) - 52 = Int.log 2 value - 52 := by omega
      exact_mod_cast reaches

theorem lowest_place : -1074 ≤ lastPlace value := by
  unfold lastPlace
  split
  · exact le_refl _
  · exact le_max_right _ _

theorem ofParts_isSome : (ofParts negative significand exponent).isSome ↔ Normalized significand exponent := by
  unfold ofParts
  split <;> simpa

/-- The middle of the last double and the next power of two. -/
def limit : ℚ := (2 ^ 54 - 1) * 2 ^ (970 : ℤ)

theorem round_isSome (nonnegative : 0 ≤ value) :
    (round negative value).isSome ↔ lastPlace value ≤ 970 ∨ lastPlace value = 971 ∧ ¬ 2 ^ 53 - 1 < placed value := by
  have upper : placed value ≤ 2 ^ 53 := nearest_le (by exact_mod_cast (div_place_lt nonnegative).le)
  have lower : 2 ^ 52 ≤ placed value ∨ lastPlace value = -1074 :=
    (le_div_place nonnegative).imp_left fun large => le_nearest (by exact_mod_cast large)
  have lowest := @lowest_place value
  unfold round
  split
  next full =>
    rw [ofParts_isSome]
    constructor
    · intro normalized
      have highest := normalized.highest
      omega
    · intro small
      exact ⟨by norm_num, by omega, by omega, .inl (le_refl _)⟩
  next fits =>
    rw [ofParts_isSome]
    constructor
    · intro normalized
      have highest := normalized.highest
      omega
    · intro small
      exact ⟨by omega, lowest, by omega, lower⟩

/-- Rounding is finite below the limit. -/
theorem round_isSome_iff (nonnegative : 0 ≤ value) : (round negative value).isSome ↔ value < limit := by
  have scale : (0 : ℚ) < 2 ^ lastPlace value := by positivity
  have positive : (0 : ℚ) < 2 ^ (970 : ℤ) := by positivity
  rw [round_isSome nonnegative]
  unfold limit
  rcases lt_trichotomy (lastPlace value) 971 with small | last | large
  · have below := div_place_lt nonnegative
    rw [div_lt_iff₀ scale] at below
    have grows : (2 : ℚ) ^ lastPlace value ≤ 2 ^ (970 : ℤ) := zpow_le_zpow_right₀ (by norm_num) (by omega)
    refine iff_of_true (.inl (by omega)) ?_
    generalize (2 : ℚ) ^ (970 : ℤ) = unit at *
    generalize (2 : ℚ) ^ lastPlace value = place at *
    linarith
  · have half := lt_nearest_iff (div_nonneg nonnegative scale.le) (by norm_num : (2 ^ 53 - 1) % 2 = 1)
    have double : (2 : ℚ) ^ (971 : ℤ) = 2 ^ (970 : ℤ) * 2 := zpow_add_one₀ (by norm_num) 970
    have middle : ((2 ^ 53 - 1 : ℕ) : ℚ) + 1 / 2 = (2 ^ 54 - 1) / 2 := by norm_num
    rw [last, double, middle, le_div_iff₀ (by positivity)] at half
    rw [placed, last, double, half, not_le]
    constructor
    · intro given
      have less := (given.resolve_left (by norm_num)).2
      linarith
    · intro less
      exact .inr ⟨rfl, by linarith⟩
  · have above := (le_div_place nonnegative).resolve_right (by omega)
    rw [le_div_iff₀ scale] at above
    have grows : (2 : ℚ) ^ (972 : ℤ) ≤ 2 ^ lastPlace value := zpow_le_zpow_right₀ (by norm_num) (by omega)
    have split : (2 : ℚ) ^ (972 : ℤ) = 2 ^ (970 : ℤ) * 2 ^ (2 : ℤ) := zpow_add₀ (by norm_num) 970 2
    rw [split] at grows
    refine iff_of_false (by omega) (not_lt.mpr ?_)
    generalize (2 : ℚ) ^ (970 : ℤ) = unit at *
    generalize (2 : ℚ) ^ lastPlace value = place at *
    norm_num at grows
    linarith only [above, grows, positive]

end Rounding

end Double

end SecureHome.Lib
