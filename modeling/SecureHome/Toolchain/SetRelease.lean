import Mathlib
import SecureHome.Lib.Unicode
import SecureHome.Lib.Fallible

/-! Immutable set releases: the canonical manifest bytes of a logical release, and the
strict parser of stored ones. Separators are structural and nothing is escaped. -/

namespace SecureHome.Toolchain
open Lib

def setReleaseFormat : String := "okf-set-release-v1"

/-- A number that is an integer, or is none (a fraction, an infinity or no number). -/
inductive JsNumber where
  | integer (value : Int)
  | other
  deriving DecidableEq, Repr

/-- One pinned member. `digest` is bare hexadecimal. -/
structure ReleaseMember where
  id : JsString
  version : JsString
  digest : JsString
  deriving DecidableEq, Repr

/-- The logical content a manifest serializes. List order is irrelevant. -/
structure LogicalRelease where
  family : JsString
  version : JsString
  runnerClass : JsString
  allowTaskAdditions : Bool
  allowTaskNarrowing : Bool
  maxBytes : JsNumber
  maxFreshnessDays : JsNumber
  requiredFailure : JsString
  optionalFailure : JsString
  overrideAuthority : JsString
  deny : List JsString
  required : List ReleaseMember
  optional : List ReleaseMember
  deriving DecidableEq, Repr

structure ReleaseRefusal where
  rule : String
  detail : JsString
  deriving DecidableEq, Repr

abbrev ReleaseResult (Value : Type) := Except (List ReleaseRefusal) Value

def LF : UInt16 := 0x0a
def NUL : UInt16 := 0x00
def SP : UInt16 := 0x20

section Grammar

def isDigitUnit (unit : UInt16) : Bool := 0x30 ≤ unit.toNat && unit.toNat ≤ 0x39
def isLowerUnit (unit : UInt16) : Bool := 0x61 ≤ unit.toNat && unit.toNat ≤ 0x7a

/-- `[a-z][a-z0-9-]*`. -/
def setFamilyId : JsString → Bool
  | [] => false
  | first :: rest => isLowerUnit first && rest.all fun unit => isLowerUnit unit || isDigitUnit unit || unit == 0x2d

/-- Two family identifiers about a slash. -/
def moduleId (value : JsString) : Bool :=
  match value.splitOn 0x2f with
  | [first, second] => setFamilyId first && setFamilyId second
  | _ => false

/-- `[0-9]+\.[0-9]+\.[0-9]+`. -/
def releaseVersion (value : JsString) : Bool :=
  let digits (part : JsString) : Bool := !part.isEmpty && part.all isDigitUnit
  match value.splitOn 0x2e with
  | [major, minor, patch] => digits major && digits minor && digits patch
  | _ => false

/-- 64 lowercase hexadecimal digits. -/
def bareSha256 (value : JsString) : Bool :=
  value.length == 64 && value.all fun unit => isDigitUnit unit || (0x61 ≤ unit.toNat && unit.toNat ≤ 0x66)

/-- `0` or a decimal of no leading zero. -/
def intToken : JsString → Bool
  | [] => false
  | [unit] => isDigitUnit unit
  | first :: rest => isDigitUnit first && first != 0x30 && rest.all isDigitUnit

end Grammar

section Order

/-- The sign of the first difference, or of the difference in length. -/
def compareBytes : List UInt8 → List UInt8 → Int
  | [], others => -others.length
  | bytes, [] => bytes.length
  | byte :: bytes, other :: others =>
    if byte ≠ other then (byte.toNat : Int) - other.toNat else compareBytes bytes others

theorem compareBytes_nil (others : List UInt8) : compareBytes [] others = -others.length := by rw [compareBytes]

/-- Ascending by UTF-8 bytes. -/
def byBytes (one other : JsString) : Int := compareBytes (encode one) (encode other)

def sortByBytes {Item : Type} (keyOf : Item → JsString) (items : List Item) : List Item :=
  items.mergeSort fun one other => decide (byBytes (keyOf one) (keyOf other) ≤ 0)

end Order

section Problems

-- `nfc` is the platform's Unicode normalization.
variable (nfc : JsString → JsString)

def stringProblem (value : JsString) : Option String :=
  if value.isEmpty then some "is empty"
  else if nfc value ≠ value then some "is not NFC-normalized"
  else if NUL ∈ value then some "contains NUL"
  else if LF ∈ value then some "contains LF"
  else if 0x0d ∈ value then some "contains CR"
  else none

/-- No whitespace code is half of a surrogate pair, so units serve for code points. -/
def hasAsciiWhitespace (value : JsString) : Bool :=
  value.any fun unit => ([0x09, 0x0a, 0x0b, 0x0c, 0x0d, 0x20] : List UInt16).contains unit

def tokenProblem (value : JsString) : Option String :=
  match stringProblem nfc value with
  | some problem => some problem
  | none => if hasAsciiWhitespace value then some "contains ASCII whitespace" else none

def maxSafeInteger : Int := 2 ^ 53 - 1

def intProblem : JsNumber → Option String
  | .other => some "is not a non-negative integer"
  | .integer value =>
    if value < 0 then some "is not a non-negative integer"
    else if value > maxSafeInteger then some "is not a safe integer; its decimal spelling would not round-trip"
    else none

end Problems

inductive Section where
  | deny
  | required
  | optional
  deriving DecidableEq, Repr

def Section.label : Section → String
  | deny => "deny"
  | required => "required"
  | optional => "optional"

def Section.order : Section → Nat
  | deny => 0
  | required => 1
  | optional => 2

section Serialize

variable (nfc : JsString → JsString)

def quoted (value : JsString) : JsString := units "\"" ++ value ++ units "\""

/-- The refusal of a value that is no token. -/
def problemRefusal (rule : String) (named : JsString) (value : JsString) : List ReleaseRefusal :=
  match tokenProblem nfc value with
  | some problem => [⟨rule, named ++ units s!" {problem}"⟩]
  | none => []

def tokenRefusal (field : String) (value : JsString) : List ReleaseRefusal :=
  problemRefusal nfc "manifest.token" (quoted (units field)) value

def integerRefusal (field : String) (value : JsNumber) : List ReleaseRefusal :=
  match intProblem value with
  | some problem => [⟨"manifest.integer", units s!"\"{field}\" {problem}"⟩]
  | none => []

def denyRefusals (seen : List JsString) : List JsString → List ReleaseRefusal
  | [] => []
  | pattern :: rest =>
    problemRefusal nfc "manifest.deny" (units "deny " ++ quoted pattern) pattern ++
    (if pattern ∈ seen then [⟨"manifest.deny", units "deny " ++ quoted pattern ++ units " repeats"⟩] else []) ++
    denyRefusals (pattern :: seen) rest

def memberRefusals (kind : Section) (seen : List JsString) : List ReleaseMember → List ReleaseRefusal
  | [] => []
  | member :: rest =>
    let rule := s!"manifest.{kind.label}"
    let named := units s!"{kind.label} " ++ quoted member.id
    problemRefusal nfc rule (named ++ units " id") member.id ++
    problemRefusal nfc rule (named ++ units " version") member.version ++
    problemRefusal nfc rule (named ++ units " digest") member.digest ++
    (if moduleId member.id then [] else [⟨rule, named ++ units " is not a module id"⟩]) ++
    (if bareSha256 member.digest then []
      else [⟨rule, named ++ units " digest must be bare lowercase 64-hex, not " ++ quoted member.digest⟩]) ++
    (if member.id ∈ seen then [⟨rule, named ++ units " repeats"⟩] else []) ++
    memberRefusals kind (member.id :: seen) rest

def overlapRefusals (release : LogicalRelease) : List ReleaseRefusal :=
  release.optional.flatMap fun member =>
    if member.id ∈ release.required.map (·.id) then
      [⟨"manifest.overlap", quoted member.id ++ units " is both required and optional"⟩]
    else []

def manifestRefusals (release : LogicalRelease) : List ReleaseRefusal :=
  tokenRefusal nfc "family" release.family ++
  (if tokenProblem nfc release.family = none ∧ ¬ setFamilyId release.family then
    [⟨"manifest.family", quoted release.family ++ units " is not a repository set-family id"⟩] else []) ++
  tokenRefusal nfc "runnerClass" release.runnerClass ++
  tokenRefusal nfc "requiredFailure" release.requiredFailure ++
  tokenRefusal nfc "optionalFailure" release.optionalFailure ++
  tokenRefusal nfc "overrideAuthority" release.overrideAuthority ++
  (if releaseVersion release.version then []
    else [⟨"manifest.version", quoted release.version ++ units " is not DIGIT+.DIGIT+.DIGIT+"⟩]) ++
  integerRefusal "maxBytes" release.maxBytes ++
  integerRefusal "maxFreshnessDays" release.maxFreshnessDays ++
  denyRefusals nfc [] release.deny ++
  memberRefusals nfc .required [] release.required ++
  memberRefusals nfc .optional [] release.optional ++
  overlapRefusals release

def scalarLine (name : String) (value : JsString) : List UInt8 := encode (units s!"{name} " ++ value) ++ [0x0a]

def memberLine (kind : Section) (member : ReleaseMember) : List UInt8 :=
  encode (units s!"{kind.label} " ++ member.id) ++ [0x00] ++ encode member.version ++ [0x00] ++ encode member.digest ++ [0x0a]

/-- `String` of a boolean. -/
def boolText (value : Bool) : JsString := units (if value then "true" else "false")

/-- `String` of a number no check refused. -/
def intText : JsNumber → JsString
  | .integer value => units value.toNat.repr
  | .other => []

/-- The canonical manifest bytes of a release, or what refuses it. -/
def canonicalSetReleaseManifest (release : LogicalRelease) : ReleaseResult (List UInt8) :=
  match manifestRefusals nfc release with
  | refusal :: refusals => .error (refusal :: refusals)
  | [] => .ok (encode (units setReleaseFormat) ++ [0x0a] ++
      scalarLine "family" release.family ++
      scalarLine "version" release.version ++
      scalarLine "runnerClass" release.runnerClass ++
      scalarLine "allowTaskAdditions" (boolText release.allowTaskAdditions) ++
      scalarLine "allowTaskNarrowing" (boolText release.allowTaskNarrowing) ++
      scalarLine "maxBytes" (intText release.maxBytes) ++
      scalarLine "maxFreshnessDays" (intText release.maxFreshnessDays) ++
      scalarLine "requiredFailure" release.requiredFailure ++
      scalarLine "optionalFailure" release.optionalFailure ++
      scalarLine "overrideAuthority" release.overrideAuthority ++
      (sortByBytes id release.deny).flatMap (scalarLine "deny") ++
      (sortByBytes (·.id) release.required).flatMap (memberLine .required) ++
      (sortByBytes (·.id) release.optional).flatMap (memberLine .optional))

/-- `sha256` gives the digest in hexadecimal. -/
def digestSetReleaseManifest (sha256 : List UInt8 → String) (bytes : List UInt8) : String := s!"sha256:{sha256 bytes}"

end Serialize

end SecureHome.Toolchain
