import SecureHome.Governance.Canonical
import SecureHome.Lib.DoubleText

/-! The strict parser of governance documents, and the values it gives as they are written. -/

namespace SecureHome.Governance
open Lib

/-- Where the parser is, and the text from there on. -/
structure Cursor where
  index : ℕ
  rest : JsString

inductive Failure where
  /-- A thrown error: its message, and the index it was at. -/
  | thrown (message : JsString) (index : ℕ)
  /-- The fuel of this model is used up. The code has none. -/
  | exhausted

abbrev Attempt := Except Failure

namespace Cursor

variable (cursor : Cursor)

def next : Option UInt16 := cursor.rest.head?

def advance (count : ℕ) : Cursor := ⟨cursor.index + count, cursor.rest.drop count⟩

def error {Result : Type} (message : JsString) : Attempt Result := .error (.thrown message cursor.index)

def skipWhitespace : Cursor := cursor.advance (cursor.rest.takeWhile isBlank).length

def expect (character : UInt16) : Attempt Cursor :=
  if cursor.next ≠ some character then cursor.error (units "expected \"" ++ [character] ++ units "\"")
  else .ok (cursor.advance 1)

end Cursor

section Strings

/-- `Number.parseInt(digits, 16)`, 0 for the code unit of `NaN`. -/
def parseHex (digits : JsString) : ℕ :=
  (digits.takeWhile isHexadecimal).foldl (fun value unit => value * 0x10 + hexadecimal unit) 0

/-- The units of a raw slice after its opening quote, up to its closing one. -/
def decodeUnits : JsString → JsString
  | [] => []
  | 0x5c :: [] => [0x22]
  | 0x5c :: escaped :: rest =>
    match shortEscapes.lookup escaped with
    | some unit => unit :: decodeUnits rest
    | none =>
      match rest with
      | first :: second :: third :: fourth :: rest => UInt16.ofNat (parseHex [first, second, third, fourth]) :: decodeUnits rest
      | digits => [UInt16.ofNat (parseHex digits)]
  | character :: rest => character :: decodeUnits rest

theorem decodeUnits_nil : decodeUnits [] = [] := by rw [decodeUnits]

def decodeJsonString (raw : JsString) : JsString := decodeUnits (raw.drop 1).dropLast

/-- The letters an escape may go on with, but for the one of a code. -/
def isEscapeLetter (unit : UInt16) : Bool := [0x22, 0x5c, 0x2f, 0x62, 0x66, 0x6e, 0x72, 0x74].contains unit

/-- The slice up to the closing quote, from an index after the opening one. A test of a unit
past the end is one of `undefined`, which has digits of its own. -/
def scanString : ℕ → JsString → Attempt (JsString × Cursor)
  | index, [] => Cursor.error ⟨index, []⟩ (units "unterminated string")
  | index, unit :: rest =>
    if unit.toNat < 0x20 then Cursor.error ⟨index, unit :: rest⟩ (units "control character in string")
    else if unit = 0x22 then .ok ([unit], ⟨index + 1, rest⟩)
    else if unit = 0x5c then
      match rest with
      | [] => Cursor.error ⟨index + 1, []⟩ (units "truncated string escape")
      | letter :: rest =>
        if letter = 0x75 then
          match (rest.take 4).findIdx? (!isHexadecimal ·) with
          | some place => Cursor.error ⟨index + 2 + place, rest.drop place⟩ (units "invalid unicode escape")
          | none =>
            match rest with
            | first :: second :: third :: fourth :: rest =>
              (scanString (index + 6) rest).map fun (slice, cursor) => ([unit, letter, first, second, third, fourth] ++ slice, cursor)
            | _ => Cursor.error ⟨index + 6, []⟩ (units "unterminated string")
        else if isEscapeLetter letter then (scanString (index + 2) rest).map fun (slice, cursor) => ([unit, letter] ++ slice, cursor)
        else Cursor.error ⟨index + 1, letter :: rest⟩ (units "invalid string escape")
    else (scanString (index + 1) rest).map fun (slice, cursor) => (unit :: slice, cursor)

theorem scanString_end (index : ℕ) : scanString index [] = Cursor.error ⟨index, []⟩ (units "unterminated string") := by
  rw [scanString.eq_def]

def parseString (cursor : Cursor) : Attempt (JsString × Cursor) := do
  let inside ← cursor.expect 0x22
  let (slice, after) ← scanString inside.index inside.rest
  return (decodeJsonString (0x22 :: slice), after)

end Strings

section Numbers

def takeDigits (text : JsString) : Option (Digits × JsString) :=
  if found : text.takeWhile isDecimal ≠ [] then some (⟨_, found, List.all_takeWhile⟩, text.dropWhile isDecimal) else none

theorem zero_some : ([0x30] : JsString) ≠ [] := List.cons_ne_nil _ _

theorem zero_decimal : List.all [0x30] isDecimal = true := by decide

def zeroDigits : Digits := ⟨[0x30], zero_some, zero_decimal⟩

/-- `0|[1-9]\d*` -/
def takeWhole (text : JsString) : Option ({ digits : Digits // digits.units.head? = some 0x30 → digits.units = [0x30] } × JsString) :=
  if text.head? = some 0x30 then some (⟨zeroDigits, fun _ => rfl⟩, text.drop 1)
  else
    (takeDigits text).bind fun (digits, rest) =>
      if larger : digits.units.head? = some 0x30 then none else some (⟨digits, fun zero => absurd zero larger⟩, rest)

/-- `(?:\.\d+)?` -/
def takeFraction (text : JsString) : Option Digits × JsString :=
  match text with
  | 0x2e :: rest =>
    match takeDigits rest with
    | some (digits, rest) => (some digits, rest)
    | none => (none, text)
  | _ => (none, text)

def takeSign (text : JsString) : Option Sign × JsString :=
  match text with
  | 0x2b :: rest => (some .plus, rest)
  | 0x2d :: rest => (some .minus, rest)
  | _ => (none, text)

/-- `(?:[eE][+-]?\d+)?` -/
def takeExponent (text : JsString) : Option Exponent × JsString :=
  match text with
  | [] => (none, text)
  | letter :: rest =>
    if letter = 0x65 ∨ letter = 0x45 then
      match takeDigits (takeSign rest).2 with
      | some (digits, after) => (some ⟨letter = 0x45, (takeSign rest).1, digits⟩, after)
      | none => (none, text)
    else (none, text)

/-- The match of `parseNumber`, and the text after it. -/
def takeNumber (text : JsString) : Option (NumberToken × JsString) :=
  let negative : Bool := text.head? = some 0x2d
  (takeWhole (if negative then text.drop 1 else text)).map fun (whole, rest) =>
    let (fraction, rest) := takeFraction rest
    let (exponent, rest) := takeExponent rest
    (⟨negative, whole.val, whole.property, fraction, exponent⟩, rest)

def parseNumber (cursor : Cursor) : Attempt (Double × Cursor) :=
  match takeNumber cursor.rest with
  | none => cursor.error (units "invalid value")
  | some (token, _) =>
    match token.number with
    | none => cursor.error (units "non-finite number")
    | some value => .ok (value, cursor.advance token.text.length)

end Numbers

section Values

/-- The array after its bracket, with the loop over its members. -/
def parseArray (members : Cursor → Attempt (List (Json Double) × Cursor)) (cursor : Cursor) : Attempt (Json Double × Cursor) := do
  let cursor := (← cursor.expect 0x5b).skipWhitespace
  if cursor.next = some 0x5d then return (.array [], cursor.advance 1)
  let (items, after) ← members cursor
  return (.array items, after)

/-- The object after its brace, with the loop over its properties. -/
def parseObject (members : Cursor → Attempt (Fields Double × Cursor)) (cursor : Cursor) : Attempt (Json Double × Cursor) := do
  let cursor := (← cursor.expect 0x7b).skipWhitespace
  if cursor.next = some 0x7d then return (.object [], cursor.advance 1)
  let (fields, after) ← members cursor
  return (.object (enumerated fields), after)

/-- A property: its name, unless it is among the keys before it, and its value. -/
def parseMember (parseValue : Cursor → Attempt (Json Double × Cursor)) (keys : List JsString) (cursor : Cursor) :
    Attempt ((JsString × Json Double) × Cursor) :=
  if cursor.next ≠ some 0x22 then cursor.error (units "object key must be a string")
  else do
    let (key, after) ← parseString cursor
    if key ∈ keys then after.error (units "duplicate object key \"" ++ key ++ units "\"")
    else
      let colon ← after.skipWhitespace.expect 0x3a
      let (value, after) ← parseValue colon.skipWhitespace
      return ((key, value), after)

mutual

def parseValue : ℕ → Cursor → Attempt (Json Double × Cursor)
  | 0, _ => .error .exhausted
  | fuel + 1, cursor =>
    if cursor.next = some 0x7b then parseObject (parseMembers fuel [] []) cursor
    else if cursor.next = some 0x5b then parseArray (parseElements fuel []) cursor
    else if cursor.next = some 0x22 then (parseString cursor).map fun (string, after) => (.string string, after)
    else if (units "true").isPrefixOf cursor.rest then .ok (.boolean true, cursor.advance 4)
    else if (units "false").isPrefixOf cursor.rest then .ok (.boolean false, cursor.advance 5)
    else if (units "null").isPrefixOf cursor.rest then .ok (.null, cursor.advance 4)
    else (parseNumber cursor).map fun (number, after) => (.number number, after)

/-- The loop of `parseArray`. -/
def parseElements : ℕ → List (Json Double) → Cursor → Attempt (List (Json Double) × Cursor)
  | 0, _, _ => .error .exhausted
  | fuel + 1, result, cursor => do
    let (value, after) ← parseValue fuel cursor.skipWhitespace
    let cursor := after.skipWhitespace
    if cursor.next = some 0x5d then return (result ++ [value], cursor.advance 1)
    parseElements fuel (result ++ [value]) (← cursor.expect 0x2c)

/-- The loop of `parseObject`. -/
def parseMembers : ℕ → List JsString → Fields Double → Cursor → Attempt (Fields Double × Cursor)
  | 0, _, _, _ => .error .exhausted
  | fuel + 1, keys, result, cursor => do
    let ((key, value), after) ← parseMember (parseValue fuel) keys cursor.skipWhitespace
    let cursor := after.skipWhitespace
    if cursor.next = some 0x7d then return (put result key value, cursor.advance 1)
    parseMembers fuel (key :: keys) (put result key value) (← cursor.expect 0x2c)

end

/-- `StrictJsonParser.parse`. -/
def parse (cursor : Cursor) : Attempt (Json Double) := do
  let (value, after) ← parseValue (2 * cursor.rest.length + 1) cursor.skipWhitespace
  let cursor := after.skipWhitespace
  if cursor.rest ≠ [] then cursor.error (units "trailing content")
  return value

def parseStrictJson (text : JsString) : Attempt (Json Double) := parse ⟨0, text⟩

end Values

section Writing

theorem digits_plain {units : JsString} (decimal : units.all isDecimal = true) : units.all isNumberUnit = true := by
  refine List.all_eq_true.mpr fun unit member => ?_
  have digit := List.all_eq_true.mp decimal unit member
  unfold isNumberUnit
  unfold isDecimal at digit
  simp [digit]

theorem text_plain (token : NumberToken) : token.text ≠ [] ∧ token.text.all isNumberUnit = true := by
  have sign : (if token.negative then [0x2d] else []).all isNumberUnit = true := by cases token.negative <;> decide
  have fraction : ((token.fraction.map fun digits => 0x2e :: digits.units).getD []).all isNumberUnit = true := by
    cases token.fraction with
    | none => rfl
    | some digits =>
      rw [Option.map_some, Option.getD_some, List.all_cons, digits_plain digits.decimal]
      decide
  have exponent : ((token.exponent.map Exponent.text).getD []).all isNumberUnit = true := by
    cases token.exponent with
    | none => rfl
    | some exponent =>
      obtain ⟨capital, sign, digits⟩ := exponent
      have digits_plain := digits_plain digits.decimal
      rw [Option.map_some, Option.getD_some, Exponent.text, List.all_cons, List.all_append, digits_plain]
      rcases sign with _ | _ | _ <;> cases capital <;> rfl
  unfold NumberToken.text
  refine ⟨by simp [token.whole.some_units], ?_⟩
  rw [List.all_append, List.all_append, List.all_append, sign, digits_plain token.whole.decimal, fraction, exponent]
  rfl

def NumberText.of (token : NumberToken) : NumberText := ⟨token.text, (text_plain token).1, (text_plain token).2⟩

/-- A parsed value, its numbers as `JSON.stringify` and `String` write them. -/
def written (value : Json Double) : Value := value.map fun number => .of number.token

end Writing

end SecureHome.Governance
