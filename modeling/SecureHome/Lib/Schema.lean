import SecureHome.Lib.DoubleText

/-! A part of JSON Schema: what its keywords ask of a value. A reference names a definition. -/

namespace SecureHome.Lib

namespace Json

/-- Equal as JSON values: numbers by what they are, objects in any order of their properties. -/
def Equal (one other : Json Double) : Prop := DeepEqual (one.map Double.unsigned) (other.map Double.unsigned)

end Json

section Language

/-- What every object inherits. -/
def inheritedNames : List String :=
  ["__proto__", "constructor", "hasOwnProperty", "isPrototypeOf", "propertyIsEnumerable", "toLocaleString", "toString", "valueOf",
    "__defineGetter__", "__defineSetter__", "__lookupGetter__", "__lookupSetter__"]

/-- A name that is of an object's own properties or of none. -/
abbrev Key := { name : JsString // name ∉ inheritedNames.map units }

def Key.named (name : String) (own : inheritedNames.contains name = false) : Key := ⟨units name, fun inherits => by
  obtain ⟨other, listed, same⟩ := List.mem_map.mp inherits
  obtain rfl := encode_units_injective (congrArg encode same)
  rw [List.contains_iff_mem.mpr listed] at own
  cases own⟩

inductive JsonType where
  | string
  | array
  | object
  | boolean
  deriving DecidableEq, Repr

/-- A regular expression, as it is written and as it is evaluated. -/
structure Pattern where
  source : JsString
  test : JsString → Bool

/-- The keywords of a schema that hold no schema. -/
structure Keywords where
  const : Option Double := none
  enum : Option (List JsString) := none
  type : Option JsonType := none
  minLength : Option ℕ := none
  pattern : Option Pattern := none
  minItems : Option ℕ := none
  maxItems : Option ℕ := none
  uniqueItems : Bool := false
  required : List Key := []
  additionalProperties : Bool := true

inductive Schema where
  | ref (name : JsString)
  | node (keywords : Keywords) (items : Option Schema) (properties : List (Key × Schema))

abbrev Definitions := List (JsString × Schema)

end Language

section Meaning

namespace Schema

def HasType (value : Json Double) : JsonType → Prop
  | .string => ∃ text, value = .string text
  | .array => ∃ items, value = .array items
  | .object => ∃ fields, value = .object fields
  | .boolean => ∃ holds, value = .boolean holds

/-- Each keyword but `uniqueItems` and the type of a boolean, by the kind of value it applies to. -/
structure Keeps (keywords : Keywords) (declared : List Key) (value : Json Double) : Prop where
  const : ∀ number, keywords.const = some number → value.Equal (.number number)
  enum : ∀ names, keywords.enum = some names → ∃ name ∈ names, value = .string name
  type : ∀ type, keywords.type = some type → type ≠ .boolean → HasType value type
  minLength : ∀ least, keywords.minLength = some least → ∀ text, value = .string text → least ≤ (scalarValues text).length
  pattern : ∀ pattern, keywords.pattern = some pattern → ∀ text, value = .string text → pattern.test text = true
  minItems : ∀ least, keywords.minItems = some least → ∀ items, value = .array items → least ≤ items.length
  maxItems : ∀ most, keywords.maxItems = some most → ∀ items, value = .array items → items.length ≤ most
  required : ∀ key ∈ keywords.required, ∀ fields, value = .object fields → (fields.lookup key.1).isSome = true
  additionalProperties : keywords.additionalProperties = false → ∀ fields, value = .object fields →
    ∀ field ∈ fields, ∃ key ∈ declared, key.1 = field.1

/-- What is asked of a value: that items are unique in a sense, that a boolean is one in a sense, and
the other keywords or not. -/
structure Rules where
  unique : List (Json Double) → Prop
  boolean : Json Double → Prop
  others : Prop

/-- A value meets a schema, with every part of it that a keyword leads to. -/
inductive Meets (rules : Rules) (definitions : Definitions) : Schema → Json Double → Prop where
  | ref {name : JsString} {target : Schema} {value : Json Double} (found : definitions.lookup name = some target)
    (meets : Meets rules definitions target value) : Meets rules definitions (.ref name) value
  | node {keywords : Keywords} {items : Option Schema} {properties : List (Key × Schema)} {value : Json Double}
    (others : rules.others → Keeps keywords (properties.map Prod.fst) value)
    (unique : keywords.uniqueItems = true → ∀ members, value = .array members → rules.unique members)
    (boolean : keywords.type = some .boolean → rules.boolean value)
    (each : ∀ schema, items = some schema → ∀ members, value = .array members → ∀ member ∈ members, Meets rules definitions schema member)
    (fields : ∀ key schema, (key, schema) ∈ properties → ∀ fields, value = .object fields → ∀ held, fields.lookup key.1 = some held →
      Meets rules definitions schema held) : Meets rules definitions (.node keywords items properties) value

/-- JSON Schema. -/
def Rules.standard : Rules := ⟨List.Pairwise fun one other => ¬ one.Equal other, (HasType · .boolean), True⟩

def Accepts : Definitions → Schema → Json Double → Prop := Meets .standard

variable {rules one other : Rules} {definitions : Definitions} {schema : Schema} {value held : Json Double} {name : JsString}
  {keywords : Keywords} {items : Option Schema} {properties : List (Key × Schema)}

namespace Meets

theorem reached (found : definitions.lookup name = some schema) (meets : Meets rules definitions (.ref name) value) :
    Meets rules definitions schema value := by
  cases meets with
  | ref there meets =>
    cases found.symm.trans there
    exact meets

theorem item {members : List (Json Double)} {member : Json Double} (meets : Meets rules definitions (.node keywords
    (some schema) properties) (.array members))
    (listed : member ∈ members) : Meets rules definitions schema member := by
  cases meets with
  | node _ _ _ each _ => exact each schema rfl members rfl member listed

theorem field {key : Key} {fields : Fields Double} (meets : Meets rules definitions (.node keywords items properties) (.object fields))
    (declared : (key, schema) ∈ properties) (found : fields.lookup key.1 = some held) : Meets rules definitions schema held := by
  cases meets with
  | node _ _ _ _ nested => exact nested key schema declared fields rfl held found

/-- What asks for less is met as well. -/
theorem mono (meets : Meets one definitions schema value) (others : other.others → one.others)
    (unique : ∀ members, one.unique members → other.unique members) (boolean : ∀ value, one.boolean value → other.boolean value) :
    Meets other definitions schema value := by
  induction meets with
  | ref found _ ih => exact .ref found ih
  | node kept unlike truth _ _ each fields =>
    exact .node (fun asked => kept (others asked)) (fun asked members same => unique members (unlike asked members same))
      (fun asked => boolean _ (truth asked)) each fields

/-- Two sets of rules are met together where each is. -/
theorem both (first : Meets one definitions schema value) (second : Meets other definitions schema value) :
    Meets ⟨fun members => one.unique members ∧ other.unique members, fun value => one.boolean value ∧ other.boolean value,
      one.others ∨ other.others⟩ definitions schema value := by
  induction first with
  | ref found _ ih => exact .ref found (ih (second.reached found))
  | node kept unlike truth _ _ each fields =>
    cases second with
    | node kept' unlike' truth' each' fields' =>
      exact .node (fun asked => asked.elim kept kept')
        (fun asked members same => ⟨unlike asked members same, unlike' asked members same⟩)
        (fun asked => ⟨truth asked, truth' asked⟩)
        (fun schema there members same member listed => each schema there members same member listed
            (each' schema there members same member listed))
        (fun key schema declared held same value found =>
          fields key schema declared held same value found (fields' key schema declared held same value found))

end Meets

end Schema

end Meaning

end SecureHome.Lib
