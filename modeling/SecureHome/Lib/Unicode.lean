import Mathlib.Data.List.Basic

/-! Texts as UTF-16 code units, and their UTF-8 coding. A lone surrogate has no UTF-8
spelling and is written as the replacement character. -/

namespace SecureHome.Lib

/-- A string as a sequence of UTF-16 code units, whatever they are. -/
abbrev JsString := List UInt16

instance : LawfulBEq JsString := inferInstance

def isHigh (unit : UInt16) : Bool := 0xD800 ≤ unit.toNat && unit.toNat < 0xDC00

def isLow (unit : UInt16) : Bool := 0xDC00 ≤ unit.toNat && unit.toNat < 0xE000

def utf16 (character : Char) : JsString :=
  if character.toNat < 0x10000 then [UInt16.ofNat character.toNat]
  else [UInt16.ofNat (0xD800 + (character.toNat - 0x10000) / 0x400),
    UInt16.ofNat (0xDC00 + (character.toNat - 0x10000) % 0x400)]

def units (text : String) : JsString := text.toList.flatMap utf16

/-- A literal is its characters, and its units are read off them without decoding its bytes. -/
theorem units_literal (chars : List Char) : units (no_index (String.ofList chars)) = chars.flatMap utf16 := by
  rw [units, String.toList_ofList]

theorem units_append (text other : String) : units (text ++ other) = units text ++ units other := by
  simp [units]

/-- The scalar a unit on its own stands for. -/
def scalarOf (unit : UInt16) : Char := if isHigh unit || isLow unit then '\uFFFD' else Char.ofNat unit.toNat

def pairOf (high low : UInt16) : Char := Char.ofNat (0x10000 + (high.toNat - 0xD800) * 0x400 + (low.toNat - 0xDC00))

/-- The scalar values of a string, with the replacement character for each lone surrogate. -/
def scalarValues : JsString → List Char
  | [] => []
  | [unit] => [scalarOf unit]
  | unit :: next :: rest =>
    if isHigh unit && isLow next then pairOf unit next :: scalarValues rest
    else scalarOf unit :: scalarValues (next :: rest)

def toWellFormed (string : JsString) : JsString := (scalarValues string).flatMap utf16

/-- No lone surrogate: repairing changes nothing. -/
def isWellFormed (string : JsString) : Prop := toWellFormed string = string

instance (string : JsString) : Decidable (isWellFormed string) := inferInstanceAs (Decidable (_ = _))

/-- The UTF-8 bytes of a string's scalar values. -/
def encode (string : JsString) : List UInt8 := (scalarValues string).flatMap String.utf8EncodeChar

/-- The string that bytes of valid UTF-8 spell. -/
def decode (bytes : List UInt8) : Option JsString :=
  bytes.toByteArray.utf8Decode?.map fun characters => characters.toList.flatMap utf16

/-- A unit that is no half of a pair. -/
def isScalar (unit : UInt16) : Prop := isHigh unit = false ∧ isLow unit = false

instance (unit : UInt16) : Decidable (isScalar unit) := inferInstanceAs (Decidable (_ ∧ _))

section Scalars

variable {string rest : JsString} {unit : UInt16}

theorem scalarValues_scalar (scalar : isScalar unit) : scalarValues (unit :: rest) = scalarOf unit :: scalarValues rest := by
  cases rest with
  | nil => rfl
  | cons next rest => simp [scalarValues, scalar.1]

/-- What stands on the two sides of a unit that is no surrogate is read on its own. -/
theorem scalarValues_apart (scalar : isScalar unit) :
    scalarValues (string ++ unit :: rest) = scalarValues string ++ scalarOf unit :: scalarValues rest := by
  induction string using scalarValues.induct with
  | case1 => exact scalarValues_scalar scalar
  | case2 first =>
    rw [List.singleton_append, scalarValues]
    simp [scalar.2, scalarValues_scalar scalar, scalarValues]
  | case3 first next others pairs ih =>
    rw [List.cons_append, List.cons_append, scalarValues, if_pos pairs, ih, scalarValues, if_pos pairs, List.cons_append]
  | case4 first next others alone ih =>
    rw [List.cons_append, List.cons_append, scalarValues, if_neg alone, ← List.cons_append, ih, scalarValues, if_neg alone,
      List.cons_append]

theorem scalarValues_utf16 (character : Char) : scalarValues (utf16 character ++ rest) = character :: scalarValues rest := by
  have valid : character.toNat < 0xD800 ∨ 0xDFFF < character.toNat ∧ character.toNat < 0x110000 := character.valid
  unfold utf16
  split
  next basic =>
    have number : (UInt16.ofNat character.toNat).toNat = character.toNat := by
      rw [UInt16.toNat_ofNat']
      omega
    have scalar : isScalar (UInt16.ofNat character.toNat) := by
      simp only [isScalar, isHigh, isLow, number, Bool.and_eq_false_iff, decide_eq_false_iff_not]
      omega
    rw [List.singleton_append, scalarValues_scalar scalar, scalarOf, number, scalar.1, scalar.2]
    simp
  next supplementary =>
    have high : (UInt16.ofNat (0xD800 + (character.toNat - 0x10000) / 0x400)).toNat =
        0xD800 + (character.toNat - 0x10000) / 0x400 := by
      rw [UInt16.toNat_ofNat']
      omega
    have low : (UInt16.ofNat (0xDC00 + (character.toNat - 0x10000) % 0x400)).toNat =
        0xDC00 + (character.toNat - 0x10000) % 0x400 := by
      rw [UInt16.toNat_ofNat']
      omega
    have pairs : (isHigh (UInt16.ofNat (0xD800 + (character.toNat - 0x10000) / 0x400)) &&
        isLow (UInt16.ofNat (0xDC00 + (character.toNat - 0x10000) % 0x400))) = true := by
      simp only [isHigh, isLow, high, low, Bool.and_eq_true, decide_eq_true_eq]
      omega
    rw [List.cons_append, List.cons_append, scalarValues, if_pos pairs, pairOf, high, low]
    have number : 0x10000 + (0xD800 + (character.toNat - 0x10000) / 0x400 - 0xD800) * 0x400 +
        (0xDC00 + (character.toNat - 0x10000) % 0x400 - 0xDC00) = character.toNat := by omega
    rw [number, Char.ofNat_toNat]
    rfl

theorem scalarValues_flatMap (characters : List Char) : scalarValues (characters.flatMap utf16) = characters := by
  induction characters with
  | nil => rfl
  | cons character others ih => rw [List.flatMap_cons, scalarValues_utf16, ih]

theorem isWellFormed_flatMap (characters : List Char) : isWellFormed (characters.flatMap utf16) := by
  unfold isWellFormed toWellFormed
  rw [scalarValues_flatMap]

theorem scalarOf_utf16 (scalar : isScalar unit) : utf16 (scalarOf unit) = [unit] := by
  have number := unit.toNat_lt
  have surrogate : ¬ (0xD800 ≤ unit.toNat ∧ unit.toNat < 0xE000) := by
    have both := scalar
    simp only [isScalar, isHigh, isLow, Bool.and_eq_false_iff, decide_eq_false_iff_not] at both
    omega
  have value : (Char.ofNat unit.toNat).toNat = unit.toNat := by
    have valid : unit.toNat.isValidChar := by
      unfold Nat.isValidChar
      omega
    rw [Char.ofNat, dif_pos valid]
    rfl
  simp only [scalarOf, scalar.1, scalar.2, Bool.or_self, Bool.false_eq_true, if_false, utf16, value]
  rw [if_pos (by omega), UInt16.ofNat_toNat]

theorem toWellFormed_apart (scalar : isScalar unit) :
    toWellFormed (string ++ unit :: rest) = toWellFormed string ++ unit :: toWellFormed rest := by
  unfold toWellFormed
  rw [scalarValues_apart scalar, List.flatMap_append, List.flatMap_cons, scalarOf_utf16 scalar]
  rfl

theorem encode_apart (scalar : isScalar unit) :
    encode (string ++ unit :: rest) = encode string ++ encode [unit] ++ encode rest := by
  unfold encode
  rw [scalarValues_apart scalar, List.flatMap_append, List.flatMap_cons, List.append_assoc]
  simp [scalarValues]

theorem pairOf_supplementary {high low : UInt16} (pairs : (isHigh high && isLow low) = true) :
    0x10000 ≤ (pairOf high low).toNat := by
  simp only [isHigh, isLow, Bool.and_eq_true, decide_eq_true_eq] at pairs
  have valid : (0x10000 + (high.toNat - 0xD800) * 0x400 + (low.toNat - 0xDC00)).isValidChar := by
    unfold Nat.isValidChar
    omega
  have number : (pairOf high low).toNat = 0x10000 + (high.toNat - 0xD800) * 0x400 + (low.toNat - 0xDC00) := by
    rw [pairOf, Char.ofNat, dif_pos valid]
    rfl
  omega

theorem length_toWellFormed : (toWellFormed string).length = string.length := by
  have single (unit : UInt16) : (utf16 (scalarOf unit)).length = 1 := by
    by_cases scalar : isHigh unit = false ∧ isLow unit = false
    · rw [scalarOf_utf16 scalar]
      rfl
    · have surrogate : (isHigh unit || isLow unit) = true := by
        cases high : isHigh unit <;> cases low : isLow unit <;> simp_all
      rw [scalarOf, if_pos surrogate]
      decide
  have pair {high low : UInt16} (pairs : (isHigh high && isLow low) = true) : (utf16 (pairOf high low)).length = 2 := by
    have supplementary := pairOf_supplementary pairs
    rw [utf16, if_neg (by omega)]
    rfl
  unfold toWellFormed
  induction string using scalarValues.induct with
  | case1 => rfl
  | case2 unit => simpa [scalarValues] using single unit
  | case3 high low rest pairs ih =>
    rw [scalarValues, if_pos pairs, List.flatMap_cons, List.length_append, ih, pair pairs, List.length_cons, List.length_cons]
    omega
  | case4 unit next rest alone ih =>
    rw [scalarValues, if_neg alone, List.flatMap_cons, List.length_append, ih, single]
    simp only [List.length_cons]
    omega

/-- A well-formed string is well-formed on the two sides of a unit that is no surrogate. -/
theorem isWellFormed_apart (scalar : isScalar unit) :
    isWellFormed (string ++ unit :: rest) ↔ isWellFormed string ∧ isWellFormed rest := by
  unfold isWellFormed
  rw [toWellFormed_apart scalar]
  refine ⟨fun same => ?_, fun ⟨left, right⟩ => by rw [left, right]⟩
  obtain ⟨left, right⟩ := List.append_inj same length_toWellFormed
  exact ⟨left, (List.cons.inj right).2⟩

theorem isWellFormed_append_scalar (scalar : isScalar unit) : isWellFormed (string ++ [unit]) ↔ isWellFormed string := by
  rw [isWellFormed_apart scalar]
  exact and_iff_left rfl

/-- A string of no surrogates is well-formed. -/
theorem isWellFormed_scalars (scalars : ∀ unit ∈ string, isScalar unit) : isWellFormed string := by
  induction string with
  | nil => rfl
  | cons unit rest ih =>
    rw [← List.nil_append (unit :: rest), isWellFormed_apart (scalars unit List.mem_cons_self)]
    exact ⟨rfl, ih fun other later => scalars other (List.mem_cons_of_mem _ later)⟩

end Scalars

section Coding

variable {string other : JsString} {bytes : List UInt8}

theorem utf8_flatMap (characters : List Char) :
    (characters.flatMap String.utf8EncodeChar).toByteArray = characters.utf8Encode := rfl

theorem decode_encode : decode (encode string) = some (toWellFormed string) := by
  unfold decode encode
  rw [utf8_flatMap, List.utf8Decode?_utf8Encode]
  rfl

/-- Bytes that decode are the bytes of what they decode to, which has no lone surrogate. -/
theorem decode_some : decode bytes = some string ↔ isWellFormed string ∧ bytes = encode string := by
  refine ⟨fun decoded => ?_, fun ⟨formed, same⟩ => ?_⟩
  · unfold decode at decoded
    obtain ⟨characters, found, rfl⟩ := Option.map_eq_some_iff.mp decoded
    refine ⟨isWellFormed_flatMap _, ?_⟩
    unfold encode
    rw [scalarValues_flatMap, ← List.toByteArray_inj, utf8_flatMap]
    have encoded := @ByteArray.utf8Encode_get_utf8Decode? bytes.toByteArray (by rw [found]; rfl)
    simp only [found, Option.get_some] at encoded
    exact encoded.symm
  · rw [same, decode_encode, formed]

/-- A byte below 128 spells the character of that number. -/
theorem utf8_ascii {character : Char} {byte : UInt8} (low : byte.toNat < 0x80)
    (member : byte ∈ String.utf8EncodeChar character) : character.toNat = byte.toNat := by
  have value : character.val.toNat = character.toNat := rfl
  unfold String.utf8EncodeChar at member
  dsimp only at member
  split at member
  next => rw [List.mem_singleton.mp member, UInt8.toNat_ofNat', ← value]; omega
  next =>
    exfalso
    split at member
    · rcases List.mem_pair.mp member with rfl | rfl <;> rw [UInt8.toNat_ofNat'] at low <;> omega
    · split at member <;> simp only [List.mem_cons, List.not_mem_nil, or_false] at member
      · rcases member with rfl | rfl | rfl <;> rw [UInt8.toNat_ofNat'] at low <;> omega
      · rcases member with rfl | rfl | rfl | rfl <;> rw [UInt8.toNat_ofNat'] at low <;> omega

/-- Bytes below 128 are units of the string. -/
theorem encode_ascii {byte : UInt8} (low : byte.toNat < 0x80) (member : byte ∈ encode string) :
    UInt16.ofNat byte.toNat ∈ string := by
  obtain ⟨character, listed, spelled⟩ := List.mem_flatMap.mp member
  have number := utf8_ascii low spelled
  clear member spelled
  have alone {unit : UInt16} (same : character = scalarOf unit) : UInt16.ofNat byte.toNat = unit := by
    have replaced : ('\uFFFD').toNat = 0xFFFD := rfl
    have scalar : isScalar unit := by
      by_contra surrogate
      have either : (isHigh unit || isLow unit) = true := by
        by_contra neither
        exact surrogate (by simpa [isScalar] using neither)
      rw [same, scalarOf, if_pos either] at number
      omega
    have single := scalarOf_utf16 scalar
    rw [← same, utf16, if_pos (by omega), number] at single
    exact (List.cons.inj single).1
  induction string using scalarValues.induct with
  | case1 => exact absurd listed List.not_mem_nil
  | case2 unit => exact List.mem_singleton.mpr (alone (List.mem_singleton.mp listed))
  | case3 high low rest pairs ih =>
    rw [scalarValues, if_pos pairs] at listed
    rcases List.mem_cons.mp listed with same | later
    · have supplementary := pairOf_supplementary pairs
      rw [← same] at supplementary
      omega
    · exact List.mem_cons_of_mem _ (List.mem_cons_of_mem _ (ih later))
  | case4 unit next rest lone ih =>
    rw [scalarValues, if_neg lone] at listed
    rcases List.mem_cons.mp listed with same | later
    · rw [alone same]
      exact List.mem_cons_self
    · exact List.mem_cons_of_mem _ (ih later)

/-- The byte a text ends in, below 128, is the unit it ends in. -/
theorem encode_getLast {byte : UInt8} (formed : isWellFormed string) (low : byte.toNat < 0x80)
    (last : (encode string).getLast? = some byte) : string.getLast? = some (UInt16.ofNat byte.toNat) := by
  rw [← formed]
  unfold encode at last
  unfold toWellFormed
  rcases List.eq_nil_or_concat (scalarValues string) with none | ⟨before, character, whole⟩
  · simp [none] at last
  · rw [whole, List.concat_eq_append, List.flatMap_append, List.getLast?_append, List.flatMap_singleton] at last
    rw [whole, List.concat_eq_append, List.flatMap_append, List.getLast?_append, List.flatMap_singleton]
    cases spelled : (String.utf8EncodeChar character).getLast? with
    | none =>
      have empty := congrArg List.length (List.getLast?_eq_none_iff.mp spelled)
      rw [String.length_utf8EncodeChar] at empty
      have some_bytes := character.utf8Size_pos
      rw [List.length_nil] at empty
      omega
    | some final =>
      rw [spelled, Option.some_or, Option.some.injEq] at last
      have number := utf8_ascii (last ▸ low) (List.mem_of_getLast? spelled)
      rw [last] at number
      rw [utf16, if_pos (by omega), number]
      rfl

theorem encode_injective (first : isWellFormed string) (second : isWellFormed other) (same : encode string = encode other) :
    string = other := by
  have decoded := (@decode_some string (encode string)).mpr ⟨first, rfl⟩
  rw [same, decode_encode, second] at decoded
  exact (Option.some.inj decoded).symm

theorem encode_units_injective {one other : String} (same : encode (units one) = encode (units other)) : one = other := by
  have characters := congrArg scalarValues (encode_injective (isWellFormed_flatMap one.toList) (isWellFormed_flatMap other.toList) same)
  rw [scalarValues_flatMap, scalarValues_flatMap] at characters
  exact String.toList_inj.mp characters

/-- A unit below 128 is a byte. -/
theorem encode_low (low : unit.toNat < 0x80) : encode (unit :: rest) = UInt8.ofNat unit.toNat :: encode rest := by
  have scalar : isScalar unit := by
    simp only [isScalar, isHigh, isLow, Bool.and_eq_false_iff, decide_eq_false_iff_not]
    omega
  have number : (scalarOf unit).val.toNat = unit.toNat := by
    have spelled := scalarOf_utf16 scalar
    unfold utf16 at spelled
    split at spelled
    next =>
      have same := congrArg UInt16.toNat (List.cons.inj spelled).1
      rw [UInt16.toNat_ofNat', Nat.mod_eq_of_lt (by omega)] at same
      exact same
    next => cases (List.cons.inj spelled).2
  unfold encode
  rw [scalarValues_scalar scalar, List.flatMap_cons, String.utf8EncodeChar, number, if_pos (by omega), List.singleton_append]

end Coding

end SecureHome.Lib
