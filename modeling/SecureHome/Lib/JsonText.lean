import SecureHome.Lib.Double
import SecureHome.Lib.Json

/-! The grammar of JSON over code units, and the value a text of it has. -/

namespace SecureHome.Lib

def isBlank (unit : UInt16) : Bool := unit = 0x20 || unit = 0x09 || unit = 0x0d || unit = 0x0a

def isDecimal (unit : UInt16) : Bool := 0x30 ≤ unit.toNat && unit.toNat ≤ 0x39

def isHexadecimal (unit : UInt16) : Bool :=
  isDecimal unit || 0x41 ≤ unit.toNat && unit.toNat ≤ 0x46 || 0x61 ≤ unit.toNat && unit.toNat ≤ 0x66

def hexadecimal (unit : UInt16) : ℕ :=
  if isDecimal unit then unit.toNat - 0x30 else if unit.toNat ≤ 0x46 then unit.toNat - 0x37 else unit.toNat - 0x57

section Numbers

/-- `\d+` -/
structure Digits where
  units : JsString
  some_units : units ≠ []
  decimal : units.all isDecimal = true

def Digits.value (digits : JsString) : ℕ := digits.foldl (fun value unit => value * 10 + (unit.toNat - 0x30)) 0

inductive Sign where
  | plus
  | minus

/-- `[eE][+-]?\d+` -/
structure Exponent where
  capital : Bool
  sign : Option Sign
  digits : Digits

/-- `-?(?:0|[1-9]\d*)(?:\.\d+)?(?:[eE][+-]?\d+)?` -/
structure NumberToken where
  negative : Bool
  whole : Digits
  shortest : whole.units.head? = some 0x30 → whole.units = [0x30]
  fraction : Option Digits
  exponent : Option Exponent

def Sign.text : Sign → JsString
  | plus => [0x2b]
  | minus => [0x2d]

def Exponent.text (exponent : Exponent) : JsString :=
  (if exponent.capital then 0x45 else 0x65) :: ((exponent.sign.map Sign.text).getD [] ++ exponent.digits.units)

def Exponent.value (exponent : Exponent) : ℤ :=
  match exponent.sign with
  | some .minus => -Digits.value exponent.digits.units
  | _ => Digits.value exponent.digits.units

namespace NumberToken

variable (token : NumberToken)

def fractionUnits : JsString := (token.fraction.map Digits.units).getD []

def text : JsString :=
  (if token.negative then [0x2d] else []) ++ token.whole.units ++ (token.fraction.map fun digits => 0x2e :: digits.units).getD [] ++
    (token.exponent.map Exponent.text).getD []

/-- What is written, but for the sign. -/
def magnitude : ℚ :=
  Digits.value (token.whole.units ++ token.fractionUnits) *
    10 ^ ((token.exponent.map Exponent.value).getD 0 - token.fractionUnits.length)

/-- `Number` of the text, if it is finite. -/
def number : Option Double := Double.round token.negative token.magnitude

theorem number_isSome : token.number.isSome ↔ token.magnitude < Double.limit :=
  Double.round_isSome_iff (by unfold magnitude; positivity)

end NumberToken

end Numbers

section Grammar

/-- The escapes of one letter. -/
def shortEscapes : List (UInt16 × UInt16) :=
  [(0x22, 0x22), (0x5c, 0x5c), (0x2f, 0x2f), (0x62, 0x08), (0x66, 0x0c), (0x6e, 0x0a), (0x72, 0x0d), (0x74, 0x09)]

/-- A text between quotes, and the string it is of. -/
inductive StringText : JsString → JsString → Prop where
  | nil : StringText [] []
  | plain {unit : UInt16} {text string : JsString} (printed : 0x20 ≤ unit.toNat) (no_quote : unit ≠ 0x22) (no_escape : unit ≠ 0x5c)
    (rest : StringText text string) : StringText (unit :: text) (unit :: string)
  | short {letter unit : UInt16} {text string : JsString} (escapes : shortEscapes.lookup letter = some unit)
    (rest : StringText text string) : StringText (0x5c :: letter :: text) (unit :: string)
  | code {first second third fourth : UInt16} {text string : JsString}
    (digits : [first, second, third, fourth].all isHexadecimal = true) (rest : StringText text string) :
    StringText (0x5c :: 0x75 :: first :: second :: third :: fourth :: text)
      (UInt16.ofNat (hexadecimal first * 0x1000 + hexadecimal second * 0x100 + hexadecimal third * 0x10 + hexadecimal fourth) :: string)

def Blank (text : JsString) : Prop := text.all isBlank = true

def literal (value : Bool) : JsString := units (if value then "true" else "false")

mutual

/-- A text with nothing around it, and its value: numbers as they are written, and properties in order. -/
inductive ValueText : JsString → Json NumberToken → Prop where
  | null : ValueText (units "null") .null
  | boolean {value : Bool} : ValueText (literal value) (.boolean value)
  | number {token : NumberToken} : ValueText token.text (.number token)
  | string {text string : JsString} (inside : StringText text string) : ValueText (0x22 :: (text ++ [0x22])) (.string string)
  | emptyArray {blank : JsString} (blanks : Blank blank) : ValueText (0x5b :: (blank ++ [0x5d])) (.array [])
  | array {text : JsString} {items : List (Json NumberToken)} (inside : ItemsText text items) :
    ValueText (0x5b :: (text ++ [0x5d])) (.array items)
  | emptyObject {blank : JsString} (blanks : Blank blank) : ValueText (0x7b :: (blank ++ [0x7d])) (.object [])
  | object {text : JsString} {fields : Fields NumberToken} (inside : FieldsText text fields) :
    ValueText (0x7b :: (text ++ [0x7d])) (.object fields)

inductive ItemsText : JsString → List (Json NumberToken) → Prop where
  | last {before text after : JsString} {item : Json NumberToken} (blank : Blank before) (here : ValueText text item)
    (blank_after : Blank after) : ItemsText (before ++ text ++ after) [item]
  | more {before text after rest : JsString} {item : Json NumberToken} {items : List (Json NumberToken)} (blank : Blank before)
    (here : ValueText text item) (blank_after : Blank after) (others : ItemsText rest items) :
    ItemsText (before ++ text ++ after ++ 0x2c :: rest) (item :: items)

inductive FieldsText : JsString → Fields NumberToken → Prop where
  | last {text : JsString} {field : JsString × Json NumberToken} (here : FieldText text field) : FieldsText text [field]
  | more {text rest : JsString} {field : JsString × Json NumberToken} {fields : Fields NumberToken} (here : FieldText text field)
    (others : FieldsText rest fields) : FieldsText (text ++ 0x2c :: rest) (field :: fields)

inductive FieldText : JsString → JsString × Json NumberToken → Prop where
  | field {before name between around text after key : JsString} {value : Json NumberToken} (blank : Blank before)
    (named : StringText name key) (blank_between : Blank between) (blank_around : Blank around) (here : ValueText text value)
    (blank_after : Blank after) :
    FieldText (before ++ 0x22 :: (name ++ 0x22 :: (between ++ 0x3a :: (around ++ text ++ after)))) (key, value)

end

def JsonText (text : JsString) (value : Json NumberToken) : Prop :=
  ∃ before inside after, Blank before ∧ ValueText inside value ∧ Blank after ∧ text = before ++ inside ++ after

end Grammar

namespace Json

variable {Number : Type}

mutual

/-- No object has two properties of one name. -/
def Unrepeated : Json Number → Prop
  | array items => EachUnrepeated items
  | object fields => (fields.map Prod.fst).Nodup ∧ FieldsUnrepeated fields
  | _ => True

def EachUnrepeated : List (Json Number) → Prop
  | [] => True
  | item :: rest => Unrepeated item ∧ EachUnrepeated rest

def FieldsUnrepeated : List (JsString × Json Number) → Prop
  | [] => True
  | (_, value) :: rest => Unrepeated value ∧ FieldsUnrepeated rest

end

theorem eachUnrepeated_iff {items : List (Json Number)} : EachUnrepeated items ↔ ∀ item ∈ items, item.Unrepeated := by
  induction items with
  | nil => simp [EachUnrepeated]
  | cons item rest ih => rw [EachUnrepeated, ih, List.forall_mem_cons]

theorem fieldsUnrepeated_iff {fields : Fields Number} : FieldsUnrepeated fields ↔ ∀ field ∈ fields, field.2.Unrepeated := by
  induction fields with
  | nil => simp [FieldsUnrepeated]
  | cons field rest ih => rw [FieldsUnrepeated, ih, List.forall_mem_cons]

mutual

/-- Every object has its properties in the order they are enumerated, and one of a name. -/
def Settled : Json Number → Prop
  | array items => EachSettled items
  | object fields => (fields.map Prod.fst).Nodup ∧ enumerated fields = fields ∧ FieldsSettled fields
  | _ => True

def EachSettled : List (Json Number) → Prop
  | [] => True
  | item :: rest => Settled item ∧ EachSettled rest

def FieldsSettled : List (JsString × Json Number) → Prop
  | [] => True
  | (_, value) :: rest => Settled value ∧ FieldsSettled rest

end

theorem eachSettled_iff {items : List (Json Number)} : EachSettled items ↔ ∀ item ∈ items, item.Settled := by
  induction items with
  | nil => simp [EachSettled]
  | cons item rest ih => rw [EachSettled, ih, List.forall_mem_cons]

theorem fieldsSettled_iff {fields : Fields Number} : FieldsSettled fields ↔ ∀ field ∈ fields, field.2.Settled := by
  induction fields with
  | nil => simp [FieldsSettled]
  | cons field rest ih => rw [FieldsSettled, ih, List.forall_mem_cons]

mutual

theorem Settled.unrepeated : (value : Json Number) → value.Settled → value.Unrepeated
  | null, _ => trivial
  | boolean _, _ => trivial
  | number _, _ => trivial
  | string _, _ => trivial
  | array items, settled => EachSettled.unrepeated items settled
  | object fields, ⟨distinct, _, settled⟩ => ⟨distinct, FieldsSettled.unrepeated fields settled⟩

theorem EachSettled.unrepeated : (items : List (Json Number)) → EachSettled items → EachUnrepeated items
  | [], _ => trivial
  | item :: rest, ⟨here, later⟩ => ⟨Settled.unrepeated item here, EachSettled.unrepeated rest later⟩

theorem FieldsSettled.unrepeated : (fields : List (JsString × Json Number)) → FieldsSettled fields → FieldsUnrepeated fields
  | [], _ => trivial
  | (_, value) :: rest, ⟨here, later⟩ => ⟨Settled.unrepeated value here, FieldsSettled.unrepeated rest later⟩

end

mutual

/-- No number is too large for a double. -/
def Finite : Json NumberToken → Prop
  | number token => token.magnitude < Double.limit
  | array items => EachFinite items
  | object fields => FieldsFinite fields
  | _ => True

def EachFinite : List (Json NumberToken) → Prop
  | [] => True
  | item :: rest => Finite item ∧ EachFinite rest

def FieldsFinite : List (JsString × Json NumberToken) → Prop
  | [] => True
  | (_, value) :: rest => Finite value ∧ FieldsFinite rest

end

/-- An object with these properties put in it, the last of a name in the place of the first. -/
def objectOf (fields : Fields Number) : Json Number :=
  object (enumerated (fields.foldl (fun held field => put held field.1 field.2) []))

theorem objectOf_settled {fields : Fields Number} (distinct : (fields.map Prod.fst).Nodup) (settled : enumerated fields = fields) :
    objectOf fields = object fields := by
  unfold objectOf
  rw [puts_fresh (by simpa using distinct), List.nil_append, settled]

section Converted

variable {Number' : Type} {convert : Number → Number'} {fields : Fields Number}

theorem names_convert : (fields.map fun field => (field.1, field.2.map convert)).map Prod.fst = fields.map Prod.fst := by
  rw [List.map_map]
  rfl

mutual

theorem unrepeated_map : (value : Json Number) → ((value.map convert).Unrepeated ↔ value.Unrepeated)
  | null => Iff.rfl
  | boolean _ => Iff.rfl
  | number _ => Iff.rfl
  | string _ => Iff.rfl
  | array items => by rw [map, Unrepeated, Unrepeated, eachUnrepeated_map items]
  | object fields => by rw [map, Unrepeated, Unrepeated, fieldsUnrepeated_map fields, mapFields_eq, names_convert]

theorem eachUnrepeated_map : (items : List (Json Number)) → (EachUnrepeated (mapItems convert items) ↔ EachUnrepeated items)
  | [] => Iff.rfl
  | item :: rest => by rw [mapItems, EachUnrepeated, EachUnrepeated, unrepeated_map item, eachUnrepeated_map rest]

theorem fieldsUnrepeated_map : (fields : List (JsString × Json Number)) →
    (FieldsUnrepeated (mapFields convert fields) ↔ FieldsUnrepeated fields)
  | [] => Iff.rfl
  | (_, value) :: rest => by
    rw [mapFields, FieldsUnrepeated, FieldsUnrepeated, unrepeated_map value, fieldsUnrepeated_map rest]

end

/-- Properties are enumerated by their names alone. -/
theorem enumerated_convert (distinct : (fields.map Prod.fst).Nodup) :
    enumerated (fields.map fun field => (field.1, field.2.map convert)) = (fields.map fun field => (field.1, field.2.map convert)) ↔
      enumerated fields = fields := by
  rw [enumerated_map]
  constructor
  · intro settled
    have names : (enumerated fields).map Prod.fst = fields.map Prod.fst := by
      rw [← @names_convert _ _ convert (enumerated fields), settled, names_convert]
    exact eq_of_keys names (enumerated_perm fields) distinct
  · intro settled
    rw [settled]

mutual

theorem settled_map : (value : Json Number) → ((value.map convert).Settled ↔ value.Settled)
  | null => Iff.rfl
  | boolean _ => Iff.rfl
  | number _ => Iff.rfl
  | string _ => Iff.rfl
  | array items => by rw [map, Settled, Settled, eachSettled_map items]
  | object fields => by
    rw [map, Settled, Settled, fieldsSettled_map fields, mapFields_eq, names_convert]
    exact and_congr_right fun distinct => and_congr_left fun _ => enumerated_convert distinct

theorem eachSettled_map : (items : List (Json Number)) → (EachSettled (mapItems convert items) ↔ EachSettled items)
  | [] => Iff.rfl
  | item :: rest => by rw [mapItems, EachSettled, EachSettled, settled_map item, eachSettled_map rest]

theorem fieldsSettled_map : (fields : List (JsString × Json Number)) → (FieldsSettled (mapFields convert fields) ↔ FieldsSettled fields)
  | [] => Iff.rfl
  | (_, value) :: rest => by rw [mapFields, FieldsSettled, FieldsSettled, settled_map value, fieldsSettled_map rest]

end

end Converted

mutual

/-- `JSON.parse` of a text with this value, if its numbers are finite. -/
def parsed : Json NumberToken → Option (Json Double)
  | null => some null
  | boolean value => some (boolean value)
  | number token => token.number.map number
  | string value => some (string value)
  | array items => (parsedItems items).map array
  | object fields => (parsedFields fields).map objectOf

def parsedItems : List (Json NumberToken) → Option (List (Json Double))
  | [] => some []
  | item :: rest => do return (← parsed item) :: (← parsedItems rest)

def parsedFields : List (JsString × Json NumberToken) → Option (List (JsString × Json Double))
  | [] => some []
  | (key, value) :: rest => do return (key, ← parsed value) :: (← parsedFields rest)

end

/-- What is put in an object has one property of a name. -/
theorem unrepeated_objectOf {fields : Fields Number} (values : FieldsUnrepeated fields) : (objectOf fields).Unrepeated := by
  have distinct : ((enumerated (fields.foldl (fun held field => put held field.1 field.2) [])).map Prod.fst).Nodup :=
    (((enumerated_perm _).map Prod.fst).nodup_iff).mpr (@puts_distinct _ _ _ _ _ _ Prod.fst Prod.snd fields (by simp))
  refine ⟨distinct, fieldsUnrepeated_iff.mpr fun field member => ?_⟩
  have found := lookup_of_mem distinct member
  rw [lookup_enumerated] at found
  obtain ⟨item, held, _, same⟩ := @lookup_of_puts _ _ _ _ _ _ _ Prod.fst Prod.snd fields found
  exact same ▸ fieldsUnrepeated_iff.mp values item held

mutual

theorem unrepeated_parsed : (tree : Json NumberToken) → {value : Json Double} → tree.parsed = some value → value.Unrepeated
  | null, _, parsed => by cases parsed; trivial
  | boolean _, _, parsed => by cases parsed; trivial
  | number token, _, parsed => by
    obtain ⟨_, _, rfl⟩ := Option.map_eq_some_iff.mp parsed
    trivial
  | string _, _, parsed => by cases parsed; trivial
  | array items, _, parsed => by
    obtain ⟨_, held, rfl⟩ := Option.map_eq_some_iff.mp parsed
    exact eachUnrepeated_parsed items held
  | object fields, _, parsed => by
    obtain ⟨_, held, rfl⟩ := Option.map_eq_some_iff.mp parsed
    exact unrepeated_objectOf (fieldsUnrepeated_parsed fields held)

theorem eachUnrepeated_parsed : (trees : List (Json NumberToken)) → {items : List (Json Double)} → parsedItems trees = some items →
    EachUnrepeated items
  | [], _, parsed => by cases parsed; trivial
  | tree :: rest, _, parsed => by
    simp only [parsedItems, Option.bind_eq_bind, Option.bind_eq_some_iff, Option.pure_def, Option.some.injEq] at parsed
    obtain ⟨_, first, _, others, rfl⟩ := parsed
    exact ⟨unrepeated_parsed tree first, eachUnrepeated_parsed rest others⟩

theorem fieldsUnrepeated_parsed : (trees : List (JsString × Json NumberToken)) → {fields : List (JsString × Json Double)} →
    parsedFields trees = some fields → FieldsUnrepeated fields
  | [], _, parsed => by cases parsed; trivial
  | (_, tree) :: rest, _, parsed => by
    simp only [parsedFields, Option.bind_eq_bind, Option.bind_eq_some_iff, Option.pure_def, Option.some.injEq] at parsed
    obtain ⟨_, first, _, others, rfl⟩ := parsed
    exact ⟨unrepeated_parsed tree first, fieldsUnrepeated_parsed rest others⟩

end

end Json

end SecureHome.Lib
