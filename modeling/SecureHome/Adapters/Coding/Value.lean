import Mathlib
import SecureHome.Core.Evidence

/-! What the text of a provider decodes to, as the coding adapters read it. -/

namespace SecureHome.Adapters.Coding
open Core (codeUnits)

/-- A number in its decimal digits, or one too large to be finite. -/
inductive Numeral where
  | decimal (digits : Int) (exponent : Int)
  | infinite (negative : Bool)
  deriving DecidableEq, Repr

namespace Numeral

def isFinite : Numeral → Bool
  | decimal .. => true
  | infinite _ => false

def isZero : Numeral → Bool
  | decimal digits _ => digits = 0
  | infinite _ => false

/-- The number is at most a bound. -/
def atMost (bound : Int) : Numeral → Bool
  | decimal digits exponent => digits * 10 ^ exponent.toNat ≤ bound * 10 ^ (-exponent).toNat
  | infinite negative => negative

def atLeast (bound : Int) : Numeral → Bool
  | decimal digits exponent => bound * 10 ^ (-exponent).toNat ≤ digits * 10 ^ exponent.toNat
  | infinite negative => !negative

/-- The significant digits of a number, and where its decimal point stands after the first of them. -/
def significant (digits exponent : Int) : List Char × Int :=
  let all := Nat.toDigits 10 digits.natAbs
  ((all.reverse.dropWhile (· = '0')).reverse, all.length + exponent)

/-- Significant digits written with their decimal point, or with a power of ten. -/
def written (shown : List Char) (point : Int) : List Char :=
  if shown.length ≤ point ∧ point ≤ 21 then shown ++ List.replicate (point.toNat - shown.length) '0'
  else if 0 < point ∧ point ≤ 21 then shown.take point.toNat ++ '.' :: shown.drop point.toNat
  else if -6 < point ∧ point ≤ 0 then '0' :: '.' :: List.replicate (-point).toNat '0' ++ shown
  else
    shown.take 1 ++ (if shown.length = 1 then [] else '.' :: shown.drop 1) ++
      'e' :: (if 0 < point then '+' else '-') :: Nat.toDigits 10 (point - 1).natAbs

/-- A number as `String` writes it. -/
def text : Numeral → String
  | infinite negative => if negative then "-Infinity" else "Infinity"
  | decimal digits exponent =>
    if digits = 0 then "0"
    else
      let (shown, point) := significant digits exponent
      String.ofList ((if digits < 0 then ['-'] else []) ++ written shown point)

end Numeral

inductive Value where
  | null
  | boolean (holds : Bool)
  | number (numeral : Numeral)
  | text (content : String)
  | array (items : List Value)
  | object (entries : List (String × Value))

/-- The entries of an object, in the order `Object.entries` lists them. -/
abbrev Record := List (String × Value)

/-- `isRecord`, with the record it admits. -/
def Value.record? : Value → Option Record
  | object entries => some entries
  | _ => none

def asRecord (value : Option Value) : Option Record := value.bind Value.record?

def asArray : Option Value → Option (List Value)
  | some (.array items) => some items
  | _ => none

def asString : Option Value → Option String
  | some (.text content) => some content
  | _ => none

def asNumber : Option Value → Option Numeral
  | some (.number numeral) => some numeral
  | _ => none

/-- White space, to `trim` and to a pattern alike. -/
def isWhiteSpace (character : Char) : Bool :=
  character.toNat ∈ [0x9, 0xA, 0xB, 0xC, 0xD, 0x20, 0xA0, 0x1680, 0x2028, 0x2029, 0x202F, 0x205F, 0x3000, 0xFEFF] ∨
    0x2000 ≤ character.toNat ∧ character.toNat ≤ 0x200A

def lines (text : String) : List String := (text.toList.splitOn '\n').map String.ofList

def isBlank (line : String) : Bool := line.toList.all isWhiteSpace

/-- The frame a line holds, if it holds one. -/
def frameOf (parse : String → Option Value) (line : String) : Option Record :=
  if isBlank line then none else (parse line).bind Value.record?

/-- The frames of a transcript, in order. -/
def frames (parse : String → Option Value) (text : String) : List Record := (lines text).filterMap (frameOf parse)

/-- The first code units of a text. Half a surrogate pair stands as the replacement
character, which takes as many bytes. -/
def takeUnits : Nat → List Char → List Char
  | 0, _ => []
  | _, [] => []
  | count + 1, character :: rest =>
    if character.toNat < 0x10000 then character :: takeUnits count rest
    else
      match count with
      | 0 => ['\uFFFD']
      | count + 1 => character :: takeUnits count rest

/-- Hostile bytes are described, never replayed. -/
def describe (line : String) : String :=
  let length := (codeUnits line).length
  if length ≤ 40 then line
  else String.ofList (takeUnits 40 line.toList) ++ "… (" ++ toString length ++ " bytes)"

end SecureHome.Adapters.Coding
