import SecureHome.Toolchain.SetRelease

/-! The strict parser of stored manifest bytes. A manifest that is merely parseable is
refused, row by row. -/

namespace SecureHome.Toolchain
open Lib

def bad {Value : Type} (rule : String) (detail : JsString) : ReleaseResult Value := .error [⟨rule, detail⟩]

def scalarNames : List String :=
  ["family", "version", "runnerClass", "allowTaskAdditions", "allowTaskNarrowing", "maxBytes", "maxFreshnessDays",
    "requiredFailure", "optionalFailure", "overrideAuthority"]

/-- A row up to its first space. Without one it is all key. -/
def rowKey (row : JsString) : JsString := row.takeWhile (· ≠ SP)

/-- A row from after its first space. Without one the slice starts at 0. -/
def rowValue (row : JsString) : JsString := if SP ∈ row then (row.dropWhile (· ≠ SP)).drop 1 else row

/-- Where doubles end. -/
@[irreducible] def doubleLimit : Nat := 2 ^ 1024

/-- A natural number at 53 bits, ties to even. -/
def roundedBits (value : Nat) : Nat :=
  let shift := Nat.log2 value - 52
  let quotient := value / 2 ^ shift
  let remainder := value % 2 ^ shift
  let rounded := if 2 * remainder > 2 ^ shift ∨ (2 * remainder = 2 ^ shift ∧ quotient % 2 = 1) then quotient + 1 else quotient
  rounded * 2 ^ shift

/-- The nearest double to a natural number, if it is finite. -/
def roundDouble (value : Nat) : Option Nat :=
  if roundedBits value < doubleLimit then some (roundedBits value) else none

def decimalValue (token : JsString) : Nat := token.foldl (fun value unit => value * 10 + (unit.toNat - 0x30)) 0

/-- `Number` of a decimal token. -/
def numberOf (token : JsString) : JsNumber :=
  match roundDouble (decimalValue token) with
  | some value => .integer value
  | none => .other

section Rows

variable (nfc : JsString → JsString)

/-- The scalar rows in their order, and the rows after them. -/
def readScalars (line : Nat) : List String → List JsString → ReleaseResult (List (String × JsString) × List JsString)
  | [], rows => .ok ([], rows)
  | name :: _, [] => bad "manifest.scalar-missing" (units s!"\"{name}\" is missing")
  | name :: names, row :: rows =>
    if rowKey row ≠ units name then
      bad "manifest.scalar-order" (units s!"expected \"{name}\" at line {line}, found " ++ quoted (rowKey row))
    else
      match tokenProblem nfc (rowValue row) with
      | some problem => bad "manifest.token" (units s!"\"{name}\" {problem}")
      | none => do
        let (scalars, rest) ← readScalars (line + 1) names rows
        return ((name, rowValue row) :: scalars, rest)

def boolOf (value : JsString) : Option Bool :=
  if value = units "true" then some true else if value = units "false" then some false else none

structure Entries where
  deny : List JsString := []
  required : List ReleaseMember := []
  optional : List ReleaseMember := []

def sectionOf (key : JsString) : Option Section :=
  if key = units "deny" then some .deny
  else if key = units "required" then some .required
  else if key = units "optional" then some .optional
  else none

/-- A member row after its field name. -/
def readMember (kind : Section) (rest : JsString) : ReleaseResult ReleaseMember :=
  match rest.splitOn NUL with
  | [id, version, digest] =>
    if !moduleId id then bad "manifest.member" (units s!"{kind.label} " ++ quoted id ++ units " is not a module id")
    else if !bareSha256 digest then
      bad "manifest.member" (units s!"{kind.label} " ++ quoted id ++ units " digest is not bare lowercase 64-hex")
    else
      match tokenProblem nfc version with
      | some problem =>
        bad "manifest.member" (units s!"{kind.label} " ++ quoted id ++ units s!" version {problem}")
      | none => .ok ⟨id, version, digest⟩
  | _ => bad "manifest.member" (units s!"{kind.label} row must be id NUL version NUL digest")

def readEntries (line : Nat) (current : Section) : List JsString → ReleaseResult Entries
  | [] => .ok {}
  | row :: rows =>
    if SP ∉ row then bad "manifest.row" (units s!"line {line} has no field name")
    else
      match sectionOf (rowKey row) with
      | none => bad "manifest.unknown-field" (units "unknown field " ++ quoted (rowKey row) ++ units s!" at line {line}")
      | some kind =>
        if kind.order < current.order then
          bad "manifest.section-order" (units s!"\"{kind.label}\" appears after \"{current.label}\"")
        else
          match kind with
          | .deny =>
            match tokenProblem nfc (rowValue row) with
            | some problem => bad "manifest.deny" (units s!"deny value {problem}")
            | none => do
              let entries ← readEntries (line + 1) .deny rows
              return { entries with deny := rowValue row :: entries.deny }
          | .required => do
            let member ← readMember nfc .required (rowValue row)
            let entries ← readEntries (line + 1) .required rows
            return { entries with required := member :: entries.required }
          | .optional => do
            let member ← readMember nfc .optional (rowValue row)
            let entries ← readEntries (line + 1) .optional rows
            return { entries with optional := member :: entries.optional }

def strictlySorted : List JsString → Bool
  | one :: other :: rest => byBytes one other < 0 && strictlySorted (other :: rest)
  | _ => true

/-- What is refused about the scalars once all are read. -/
def scalarRefusal (scalar : String → JsString) : Option ReleaseRefusal :=
  if boolOf (scalar "allowTaskAdditions") = none then
    some ⟨"manifest.boolean", units "\"allowTaskAdditions\" is not true or false"⟩
  else if boolOf (scalar "allowTaskNarrowing") = none then
    some ⟨"manifest.boolean", units "\"allowTaskNarrowing\" is not true or false"⟩
  else if !intToken (scalar "maxBytes") then
    some ⟨"manifest.integer", units "\"maxBytes\" is not a shortest unsigned decimal"⟩
  else if !intToken (scalar "maxFreshnessDays") then
    some ⟨"manifest.integer", units "\"maxFreshnessDays\" is not a shortest unsigned decimal"⟩
  else if !releaseVersion (scalar "version") then
    some ⟨"manifest.version", units "version is not DIGIT+.DIGIT+.DIGIT+"⟩
  else if !setFamilyId (scalar "family") then
    some ⟨"manifest.family", units "family is not a repository set-family id"⟩
  else none

/-- What is refused about the entries once all are read. -/
def entriesRefusal (entries : Entries) : Option ReleaseRefusal :=
  if !strictlySorted entries.deny then some ⟨"manifest.sort", units "deny is unsorted or repeats"⟩
  else if !strictlySorted (entries.required.map (·.id)) then
    some ⟨"manifest.sort", units "required is unsorted or repeats"⟩
  else if !strictlySorted (entries.optional.map (·.id)) then
    some ⟨"manifest.sort", units "optional is unsorted or repeats"⟩
  else
    (entries.optional.find? fun member => member.id ∈ entries.required.map (·.id)).map fun member =>
      ⟨"manifest.overlap", quoted member.id ++ units " is both required and optional"⟩

def refusing : Option ReleaseRefusal → ReleaseResult Unit
  | some refusal => .error [refusal]
  | none => .ok ()

def releaseOf (scalar : String → JsString) (entries : Entries) : LogicalRelease where
  family := scalar "family"
  version := scalar "version"
  runnerClass := scalar "runnerClass"
  allowTaskAdditions := (boolOf (scalar "allowTaskAdditions")).getD false
  allowTaskNarrowing := (boolOf (scalar "allowTaskNarrowing")).getD false
  maxBytes := numberOf (scalar "maxBytes")
  maxFreshnessDays := numberOf (scalar "maxFreshnessDays")
  requiredFailure := scalar "requiredFailure"
  optionalFailure := scalar "optionalFailure"
  overrideAuthority := scalar "overrideAuthority"
  deny := entries.deny
  required := entries.required
  optional := entries.optional

def parseRows (rows : List JsString) : ReleaseResult LogicalRelease :=
  if rows.head? ≠ some (units setReleaseFormat) then
    bad "manifest.prefix" (units s!"first line must be \"{setReleaseFormat}\"")
  else do
    let (scalars, rest) ← readScalars nfc 2 scalarNames rows.tail
    let scalar (name : String) : JsString := (scalars.lookup name).getD []
    refusing (scalarRefusal scalar)
    let entries ← readEntries nfc 12 .deny rest
    refusing (entriesRefusal entries)
    return releaseOf scalar entries

def parseSetReleaseManifest (bytes : List UInt8) : ReleaseResult LogicalRelease :=
  if bytes.take 3 = [0xef, 0xbb, 0xbf] then bad "manifest.bom" (units "manifest starts with a byte-order mark")
  else if 0x0d ∈ bytes then bad "manifest.cr" (units "manifest contains CR; LF only")
  else if bytes.getLast? ≠ some 0x0a then bad "manifest.final-lf" (units "manifest does not end with LF")
  else
    match decode bytes with
    | none => bad "manifest.encoding" (units "manifest is not valid UTF-8")
    | some text => parseRows nfc (text.dropLast.splitOn LF)

end Rows

end SecureHome.Toolchain
