import SecureHome.Governance.StrictJson

/-! `JSON.parse` of the platform. It takes every text of the grammar: the last property of a
name stands, and a number too large for a double is infinite. -/

namespace SecureHome.Governance
open Lib

/-- A number that a text of JSON has. -/
inductive JsonNumber where
  | finite (value : Double)
  | infinite (negative : Bool)

def numberOf (token : NumberToken) : JsonNumber :=
  match token.number with
  | some value => .finite value
  | none => .infinite token.negative

section Values

mutual

/-- The value a text has, as its objects are built. -/
def valueOf : Json NumberToken → Json JsonNumber
  | .null => .null
  | .boolean value => .boolean value
  | .number token => .number (numberOf token)
  | .string value => .string value
  | .array items => .array (valuesOf items)
  | .object fields => Json.objectOf (fieldsOf fields)

def valuesOf : List (Json NumberToken) → List (Json JsonNumber)
  | [] => []
  | item :: rest => valueOf item :: valuesOf rest

def fieldsOf : List (JsString × Json NumberToken) → List (JsString × Json JsonNumber)
  | [] => []
  | (name, value) :: rest => (name, valueOf value) :: fieldsOf rest

end

end Values

section Reading

def skipBlanks (text : JsString) : JsString := text.dropWhile isBlank

/-- A string after its opening quote, and the text after its closing one. -/
def readString : JsString → Option (JsString × JsString)
  | [] => none
  | 0x22 :: rest => some ([], rest)
  | 0x5c :: 0x75 :: first :: second :: third :: fourth :: rest =>
    if [first, second, third, fourth].all isHexadecimal then
      (readString rest).map fun (string, rest) =>
        (UInt16.ofNat (hexadecimal first * 0x1000 + hexadecimal second * 0x100 + hexadecimal third * 0x10 + hexadecimal fourth) :: string, rest)
    else none
  | 0x5c :: letter :: rest =>
    (shortEscapes.lookup letter).bind fun unit => (readString rest).map fun (string, rest) => (unit :: string, rest)
  | unit :: rest =>
    if unit.toNat < 0x20 ∨ unit = 0x5c then none else (readString rest).map fun (string, rest) => (unit :: string, rest)

theorem readString_quote (rest : JsString) : readString (0x22 :: rest) = some ([], rest) := by rw [readString]

/-- A text without the unit it starts with. -/
def expectUnit (unit : UInt16) : JsString → Option JsString
  | [] => none
  | first :: rest => if first = unit then some rest else none

mutual

/-- A value at the start of a text, and the text after it. -/
def readValue : ℕ → JsString → Option (Json NumberToken × JsString)
  | 0, _ => none
  | fuel + 1, text =>
    match expectUnit 0x7b text, expectUnit 0x5b text, expectUnit 0x22 text with
    | some rest, _, _ =>
      match expectUnit 0x7d (skipBlanks rest) with
      | some rest => some (.object [], rest)
      | none => (readFields fuel rest).map fun (fields, rest) => (.object fields, rest)
    | _, some rest, _ =>
      match expectUnit 0x5d (skipBlanks rest) with
      | some rest => some (.array [], rest)
      | none => (readItems fuel rest).map fun (items, rest) => (.array items, rest)
    | _, _, some rest => (readString rest).map fun (string, rest) => (.string string, rest)
    | none, none, none =>
      if (units "true").isPrefixOf text then some (.boolean true, text.drop 4)
      else if (units "false").isPrefixOf text then some (.boolean false, text.drop 5)
      else if (units "null").isPrefixOf text then some (.null, text.drop 4)
      else (takeNumber text).map fun (token, rest) => (.number token, rest)

/-- The members of an array, up to its bracket. -/
def readItems : ℕ → JsString → Option (List (Json NumberToken) × JsString)
  | 0, _ => none
  | fuel + 1, text => do
    let (item, rest) ← readValue fuel (skipBlanks text)
    match expectUnit 0x5d (skipBlanks rest) with
    | some rest => some ([item], rest)
    | none =>
      let rest ← expectUnit 0x2c (skipBlanks rest)
      let (items, rest) ← readItems fuel rest
      some (item :: items, rest)

/-- The properties of an object, up to its brace. -/
def readFields : ℕ → JsString → Option (Fields NumberToken × JsString)
  | 0, _ => none
  | fuel + 1, text => do
    let rest ← expectUnit 0x22 (skipBlanks text)
    let (name, rest) ← readString rest
    let rest ← expectUnit 0x3a (skipBlanks rest)
    let (value, rest) ← readValue fuel (skipBlanks rest)
    match expectUnit 0x7d (skipBlanks rest) with
    | some rest => some ([(name, value)], rest)
    | none =>
      let rest ← expectUnit 0x2c (skipBlanks rest)
      let (fields, rest) ← readFields fuel rest
      some ((name, value) :: fields, rest)

end

/-- The tree of a text that is one value between blanks. -/
def jsonTree (text : JsString) : Option (Json NumberToken) := do
  let (tree, rest) ← readValue (2 * text.length + 1) (skipBlanks text)
  if skipBlanks rest = [] then some tree else none

def jsonParse (text : JsString) : Option (Json JsonNumber) := (jsonTree text).map valueOf

end Reading

end SecureHome.Governance
