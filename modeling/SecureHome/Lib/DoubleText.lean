import SecureHome.Lib.Decimal
import SecureHome.Lib.JsonText

/-! The text `Number::toString` gives a finite double: the fewest digits that are read back
as it, and among them the nearest. -/

namespace SecureHome.Lib

variable {value : ℕ}

namespace Digits

theorem value_append (first second : JsString) : Digits.value (first ++ second) = Digits.value first * 10 ^ second.length + Digits.value second := by
  induction second using List.reverseRecOn with
  | nil => simp [Digits.value]
  | append_singleton rest unit ih =>
    have step (text : JsString) : Digits.value (text ++ [unit]) = Digits.value text * 10 + (unit.toNat - 0x30) := by simp [Digits.value]
    rw [← List.append_assoc, step, ih, step, List.length_append, List.length_singleton, Nat.pow_succ]
    ring

/-- A natural number in decimal. -/
theorem repr_decimal (value : ℕ) :
    Lib.units value.repr ≠ [] ∧ (Lib.units value.repr).all isDecimal = true ∧ Digits.value (Lib.units value.repr) = value ∧
      ((Lib.units value.repr).head? = some 0x30 → value = 0) := by
  have every (digit : Fin 10) : isDecimal (UInt16.ofNat (0x30 + digit.val)) = true ∧ (UInt16.ofNat (0x30 + digit.val)).toNat - 0x30 = digit.val ∧
      (UInt16.ofNat (0x30 + digit.val) = 0x30 → digit.val = 0) := by
    revert digit
    decide
  induction value using Nat.strongRecOn with
  | ind value ih =>
    by_cases small : value < 10
    · obtain ⟨decimal, number, zero⟩ := every ⟨value, small⟩
      rw [repr_digit small]
      refine ⟨List.cons_ne_nil _ _, ?_, ?_, ?_⟩
      · rw [List.all_cons, decimal]
        rfl
      · rw [Digits.value, List.foldl_cons, List.foldl_nil, number, Nat.zero_mul, Nat.zero_add]
      · intro head
        exact zero (Option.some.inj head)
    · have split : value = value / 10 * 10 + value % 10 := by omega
      obtain ⟨some_units, decimal, meaning, leading⟩ := ih (value / 10) (by omega)
      obtain ⟨digit, number, _⟩ := every ⟨value % 10, Nat.mod_lt _ (by decide)⟩
      rw [split, repr_step (by omega) (Nat.mod_lt _ (by decide))]
      refine ⟨by simp, ?_, ?_, ?_⟩
      · rw [List.all_append, decimal, List.all_cons, digit]
        rfl
      · rw [value_append, meaning]
        simp only [Digits.value, List.foldl_cons, List.foldl_nil, List.length_singleton, number]
        omega
      · rw [List.head?_append_of_ne_nil _ some_units]
        intro head
        have zero := leading head
        omega

def ofNat (value : ℕ) : Digits := ⟨Lib.units value.repr, (repr_decimal value).1, (repr_decimal value).2.1⟩

def zeros (count : ℕ) : JsString := List.replicate count 0x30

theorem zeros_decimal (count : ℕ) : (zeros count).all isDecimal = true := by
  rw [zeros, List.all_replicate]
  split <;> rfl

theorem value_zeros (count : ℕ) : Digits.value (zeros count) = 0 := by
  induction count with
  | zero => rfl
  | succ count ih =>
    have first : zeros (count + 1) = zeros count ++ [0x30] := List.replicate_succ'
    rw [first, value_append, ih]
    rfl

end Digits

namespace Double

variable {double : Double}

section Shortest

/-- The double that so many units of a power of ten are nearest to. -/
def reads (double : Double) (digits : ℕ) (place : ℤ) : Prop := round double.negative (digits * 10 ^ place) = some double

instance (digits : ℕ) (place : ℤ) : Decidable (reads double digits place) := inferInstanceAs (Decidable (_ = _))

/-- The power of ten of the last of so many digits. -/
def placeOf (double : Double) (count : ℕ) : ℤ := Int.log 10 double.magnitude + 1 - count

/-- A number of so many digits that reads back, the nearest one first. -/
def digitsOf (double : Double) (count : ℕ) : Option (ℕ × ℤ) :=
  let place := placeOf double count
  let scaled := double.magnitude / 10 ^ place
  let near := nearest scaled
  let far := if near = ⌊scaled⌋₊ then near + 1 else near - 1
  ([near, far].find? fun digits => decide (reads double digits place)).map fun digits =>
    -- a digit carried past the first is a power of ten
    if digits = 10 ^ count then (10 ^ (count - 1), place + 1) else (digits, place)

/-- All the digits of a double. -/
def allDigits (double : Double) : ℕ × ℤ :=
  if 0 ≤ double.exponent then (double.significand * 2 ^ double.exponent.toNat, 0)
  else (double.significand * 5 ^ (-double.exponent).toNat, double.exponent)

/-- Seventeen digits are enough for any double, and it would be written out otherwise. -/
def shortest (double : Double) : ℕ × ℤ := ((List.range 17).findSome? fun count => digitsOf double (count + 1)).getD (allDigits double)

theorem allDigits_magnitude : ((allDigits double).1 : ℚ) * 10 ^ (allDigits double).2 = double.magnitude := by
  unfold allDigits magnitude
  split
  next whole =>
    obtain ⟨exponent, same⟩ := Int.eq_ofNat_of_zero_le whole
    rw [same]
    push_cast
    simp
  next fraction =>
    obtain ⟨exponent, same⟩ := Int.eq_ofNat_of_zero_le (by omega : 0 ≤ -double.exponent)
    have negative : double.exponent = -(exponent : ℤ) := by omega
    rw [same, negative, Int.toNat_natCast]
    push_cast
    rw [zpow_neg, zpow_neg, zpow_natCast, zpow_natCast]
    have ten : (10 : ℚ) ^ exponent = 2 ^ exponent * 5 ^ exponent := by rw [← mul_pow]; norm_num
    rw [ten]
    field_simp

theorem digitsOf_reads {count : ℕ} {digits : ℕ} {place : ℤ} (found : digitsOf double (count + 1) = some (digits, place)) :
    reads double digits place := by
  unfold digitsOf at found
  obtain ⟨candidate, first, same⟩ := Option.map_eq_some_iff.mp found
  have good : reads double candidate (placeOf double (count + 1)) := by simpa only [decide_eq_true_eq] using List.find?_some first
  split at same
  next carried =>
    cases same
    unfold reads at good
    rw [carried] at good
    unfold reads
    rw [← good, zpow_add_one₀ (by norm_num), Nat.add_sub_cancel, pow_succ]
    push_cast
    ring_nf
  next =>
    cases same
    exact good

theorem shortest_reads : reads double (shortest double).1 (shortest double).2 := by
  unfold shortest
  cases found : (List.range 17).findSome? fun count => digitsOf double (count + 1) with
  | none =>
    unfold reads
    rw [Option.getD_none, allDigits_magnitude, round_magnitude]
  | some pair =>
    obtain ⟨count, _, found⟩ := List.exists_of_findSome?_eq_some found
    exact digitsOf_reads found

end Shortest

section Tokens

variable (negative : Bool) (digits : Digits) (leading : digits.units.head? ≠ some 0x30)

theorem all_take {units : JsString} {count : ℕ} (decimal : units.all isDecimal = true) : (units.take count).all isDecimal = true :=
  List.all_eq_true.mpr fun unit member => List.all_eq_true.mp decimal unit (List.mem_of_mem_take member)

theorem all_drop {units : JsString} {count : ℕ} (decimal : units.all isDecimal = true) : (units.drop count).all isDecimal = true :=
  List.all_eq_true.mpr fun unit member => List.all_eq_true.mp decimal unit (List.mem_of_mem_drop member)

theorem all_append {first second : JsString} (one : first.all isDecimal = true) (other : second.all isDecimal = true) :
    (first ++ second).all isDecimal = true := by
  rw [List.all_append, one, other]
  rfl

/-- Digits, and zeros after them. -/
def wholeToken (count : ℕ) : NumberToken where
  negative
  whole := ⟨digits.units ++ Digits.zeros count, List.append_ne_nil_of_left_ne_nil digits.some_units _,
    all_append digits.decimal (Digits.zeros_decimal count)⟩
  shortest := by
    intro zero
    rw [List.head?_append_of_ne_nil _ digits.some_units] at zero
    exact absurd zero leading
  fraction := none
  exponent := none

/-- Digits with a point among them. -/
def pointToken (point : ℕ) (inside : 0 < point ∧ point < digits.units.length) : NumberToken where
  negative
  whole := ⟨digits.units.take point, by simp [digits.some_units, inside.1.ne'], all_take digits.decimal⟩
  shortest := by
    intro zero
    rw [List.head?_take, if_neg inside.1.ne'] at zero
    exact absurd zero leading
  fraction := some ⟨digits.units.drop point, by simp [inside.2], all_drop digits.decimal⟩
  exponent := none

/-- Digits after a point and zeros. -/
def fractionToken (count : ℕ) : NumberToken where
  negative
  whole := ⟨[0x30], List.cons_ne_nil _ _, by decide⟩
  shortest := fun _ => rfl
  fraction := some ⟨Digits.zeros count ++ digits.units, List.append_ne_nil_of_right_ne_nil _ digits.some_units,
    all_append (Digits.zeros_decimal count) digits.decimal⟩
  exponent := none

def exponentOf (power : ℤ) : Exponent := ⟨false, some (if power < 0 then .minus else .plus), Digits.ofNat power.natAbs⟩

/-- One digit, the others after a point, and a power of ten. -/
def powerToken (power : ℤ) : NumberToken where
  negative
  whole := ⟨digits.units.take 1, by simp [digits.some_units], all_take digits.decimal⟩
  shortest := by
    intro zero
    rw [List.head?_take, if_neg Nat.one_ne_zero] at zero
    exact absurd zero leading
  fraction := if others : digits.units.drop 1 = [] then none else some ⟨digits.units.drop 1, others, all_drop digits.decimal⟩
  exponent := some (exponentOf power)

/-- Digits whose last one counts a power of ten. -/
def tokenAt (place : ℤ) : NumberToken :=
  let point := place + digits.units.length
  if 0 ≤ place ∧ point ≤ 21 then wholeToken negative digits leading place.toNat
  else if inside : (0 < point.toNat ∧ point.toNat < digits.units.length) ∧ point ≤ 21 then pointToken negative digits leading point.toNat inside.1
  else if -6 < point ∧ point ≤ 0 then fractionToken negative digits (-point).toNat
  else powerToken negative digits leading (point - 1)

variable {negative digits leading}

theorem wholeToken_magnitude {count : ℕ} : (wholeToken negative digits leading count).magnitude = Digits.value digits.units * 10 ^ count := by
  change (Digits.value (digits.units ++ Digits.zeros count ++ []) : ℚ) * 10 ^ ((0 : ℤ) - ((0 : ℕ) : ℤ)) = _
  rw [List.append_nil, Digits.value_append, Digits.value_zeros, Digits.zeros, List.length_replicate]
  simp

theorem pointToken_magnitude {point : ℕ} {inside : 0 < point ∧ point < digits.units.length} :
    (pointToken negative digits leading point inside).magnitude =
      Digits.value digits.units * 10 ^ ((point : ℤ) - digits.units.length) := by
  change (Digits.value (digits.units.take point ++ digits.units.drop point) : ℚ) * 10 ^ ((0 : ℤ) - (digits.units.drop point).length) = _
  rw [List.take_append_drop, List.length_drop]
  congr 2
  omega

theorem fractionToken_magnitude {count : ℕ} :
    (fractionToken negative digits count).magnitude = Digits.value digits.units * 10 ^ (-(count : ℤ) - digits.units.length) := by
  change (Digits.value ([0x30] ++ (Digits.zeros count ++ digits.units)) : ℚ) * 10 ^ ((0 : ℤ) - (Digits.zeros count ++ digits.units).length) = _
  have zero : Digits.value [0x30] = 0 := rfl
  rw [Digits.value_append, Digits.value_append, zero, Digits.value_zeros, List.length_append, Digits.zeros, List.length_replicate,
    Nat.zero_mul, Nat.zero_mul, Nat.zero_add, Nat.zero_add]
  congr 2
  omega

theorem exponentOf_value {power : ℤ} : (exponentOf power).value = power := by
  have meaning := (Digits.repr_decimal power.natAbs).2.2.1
  unfold exponentOf Exponent.value Digits.ofNat
  by_cases below : power < 0
  · simp only [if_pos below, meaning]
    omega
  · simp only [if_neg below, meaning]
    omega

theorem powerToken_magnitude {power : ℤ} : (powerToken negative digits leading power).magnitude =
    Digits.value digits.units * 10 ^ (power + 1 - digits.units.length) := by
  have fraction : (powerToken negative digits leading power).fractionUnits = digits.units.drop 1 := by
    unfold NumberToken.fractionUnits powerToken
    dsimp only
    split
    next none_left => exact none_left.symm
    next => rfl
  have some_units : 0 < digits.units.length := List.length_pos_iff.mpr digits.some_units
  rw [NumberToken.magnitude, fraction]
  change (Digits.value (digits.units.take 1 ++ digits.units.drop 1) : ℚ) * 10 ^ ((exponentOf power).value - (digits.units.drop 1).length) = _
  rw [List.take_append_drop, exponentOf_value, List.length_drop]
  congr 2
  omega

theorem tokenAt_magnitude {place : ℤ} : (tokenAt negative digits leading place).magnitude = Digits.value digits.units * 10 ^ place := by
  unfold tokenAt
  dsimp only
  split
  next whole =>
    rw [wholeToken_magnitude, ← zpow_natCast]
    congr 2
    omega
  split
  next inside =>
    rw [pointToken_magnitude]
    congr 2
    omega
  split
  next small =>
    rw [fractionToken_magnitude]
    congr 2
    omega
  · rw [powerToken_magnitude]
    congr 2
    omega

theorem tokenAt_negative {place : ℤ} : (tokenAt negative digits leading place).negative = negative := by
  unfold tokenAt
  dsimp only
  split
  · rfl
  split
  · rfl
  split <;> rfl

end Tokens

section Text

instance : Decidable double.isZero := inferInstanceAs (Decidable (_ = _))

def zero (negative : Bool) : Double := ⟨negative, 0, -1074, by decide⟩

theorem zero_of_isZero (isZero : double.isZero) : double = zero double.negative := by
  obtain ⟨negative, significand, exponent, _, _, _, shifted⟩ := double
  change significand = 0 at isZero
  subst isZero
  obtain rfl := shifted.resolve_left (by norm_num)
  rfl

theorem round_zero {negative : Bool} : round negative 0 = some (zero negative) := by
  have magnitude : (zero negative).magnitude = 0 := by simp [zero, Double.magnitude]
  rw [← magnitude, round_magnitude]
  rfl

theorem shortest_positive (nonzero : ¬ double.isZero) : 0 < (shortest double).1 := by
  by_contra none_left
  have reading := @shortest_reads double
  unfold reads at reading
  rw [Nat.eq_zero_of_not_pos none_left, Nat.cast_zero, zero_mul, round_zero] at reading
  exact nonzero (congrArg significand (Option.some.inj reading)).symm

theorem shortest_leading (nonzero : ¬ double.isZero) : (Digits.ofNat (shortest double).1).units.head? ≠ some 0x30 := fun zero =>
  (shortest_positive nonzero).ne' ((Digits.repr_decimal _).2.2.2 zero)

/-- `Number::toString`. -/
def token (double : Double) : NumberToken :=
  if zero : double.isZero then ⟨false, Digits.ofNat 0, fun _ => rfl, none, none⟩
  else tokenAt double.negative (Digits.ofNat (shortest double).1) (shortest_leading zero) (shortest double).2

/-- A double, but for the sign of a zero. -/
def unsigned (double : Double) : Double := if double.isZero then zero false else double

/-- The text of a double is read as it, but for the sign of a zero. -/
theorem token_number : double.token.number = some double.unsigned := by
  unfold token unsigned NumberToken.number
  split
  next none_left =>
    rw [← round_zero]
    congr 1
    change (Digits.value (Lib.units (Nat.repr 0) ++ []) : ℚ) * _ = 0
    rw [List.append_nil, (Digits.repr_decimal 0).2.2.1]
    simp
  next some_left =>
    rw [tokenAt_negative, tokenAt_magnitude, Digits.ofNat, (Digits.repr_decimal _).2.2.1]
    exact shortest_reads

end Text

end Double

end SecureHome.Lib
