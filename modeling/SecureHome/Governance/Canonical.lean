import Mathlib.Data.List.Lex
import Mathlib.Data.List.Sort
import SecureHome.Lib.Json

/-! The canonical representation of governance records. An object lists its properties in
the order they are enumerated in: array indices first, ascending, then the others as they
were put in. -/

namespace SecureHome.Governance
open Lib

def isNumberUnit (unit : UInt16) : Bool :=
  0x30 ≤ unit.toNat && unit.toNat ≤ 0x39 || unit = 0x2b || unit = 0x2d || unit = 0x2e || unit = 0x65 || unit = 0x45

/-- A number, as the text `JSON.stringify` gives it. -/
structure NumberText where
  text : JsString
  some_units : text ≠ []
  plain : text.all isNumberUnit = true
  deriving DecidableEq

abbrev Value := Json NumberText

abbrev Record := Fields NumberText

/-- A property, `undefined` where there is none. -/
def read (value : Value) (name : String) : Option Value := value.child (.key (units name))

def isText (value : Option Value) (text : String) : Bool :=
  match value with
  | some (.string held) => held = units text
  | _ => false

def setArrayKeys : List JsString :=
  ["resolves", "supersedes", "requires", "sources", "scope", "waivedMinimumArtifacts", "policyEvidenceIdentities", "factClasses",
    "generatedRegions"].map units

def collections : List String := ["adrs", "questions", "gates", "landings", "externalReferences"]

def entityArrayKeys : List JsString := collections.map units

inductive ObjectKind where
  | root
  | adr
  | question
  | gate
  | landing
  | predicate
  | anchor
  | delivery
  | completion
  | historicalCompletion
  | withdrawal
  | replacement
  | attestation
  | identity
  deriving DecidableEq, Repr

/-- `OBJECT_ORDERS`. -/
def ObjectKind.order : ObjectKind → List String
  | root => ["schemaVersion", "adrs", "questions", "gates", "landings", "externalReferences", "attestations"]
  | adr => ["id", "path", "title", "lifecycle", "proposedOn", "resolves", "supersedes", "acceptance"]
  | question => ["id", "anchor", "title", "severity"]
  | gate => ["id", "kind", "predicate", "authorityAnchor", "sources", "reviewedOrderingIntent", "replaces", "replacement"]
  | landing => ["id", "kind", "requires", "authorityAnchor", "reviewedOrderingIntent", "replaces", "replacement", "delivery"]
  | predicate => ["name", "question"]
  | anchor => ["type", "repository", "number", "id"]
  | delivery => ["lifecycle", "completionPolicy", "completion", "withdrawal"]
  | completion => ["digest", "evidence", "attestation"]
  | historicalCompletion => ["type", "digest", "evidence"]
  | withdrawal => ["digest", "evidence", "attestation"]
  | replacement => ["digest", "attestation"]
  | attestation => ["digest", "actor", "at", "outcome", "authority"]
  | identity => ["class", "value", "scope"]

def historicalCompletionType : String := "genesis-historical-completion-v1"

def objectKind (object : Value) (path : List JsString) : Option ObjectKind :=
  let key := path.getLast?
  let keyed (names : List String) : Bool := names.any fun name => key = some (units name)
  let within (name : String) : Bool := path.contains (units name)
  if path.isEmpty then some .root
  else if keyed ["predicate"] then some .predicate
  else if keyed ["authorityAnchor", "authority"] then some .anchor
  else if keyed ["delivery"] then some .delivery
  else if keyed ["completion"] then
    if isText (read object "type") historicalCompletionType then some .historicalCompletion else some .completion
  else if keyed ["withdrawal"] then some .withdrawal
  else if keyed ["replacement"] then some .replacement
  else if keyed ["attestation"] then some .attestation
  else if keyed ["identity", "deliveredIdentity", "mergedEvidenceIdentity", "evidenceManifestIdentity", "findingsIdentity"] then
    some .identity
  else if within "adrs" then some .adr
  else if within "questions" then some .question
  else if within "gates" then some .gate
  else if within "landings" then some .landing
  else none

section Texts

mutual

/-- `String(value)`. Of a parsed object it throws; no text of one is told from another here. -/
def stringOf : Value → JsString
  | .null => units "null"
  | .boolean value => units (if value then "true" else "false")
  | .number value => value.text
  | .string value => value
  | .array items => (units ",").intercalate (stringsOf items)
  | .object _ => []

def stringsOf : List Value → List JsString
  | [] => []
  | item :: rest => (match item with | .null => [] | other => stringOf other) :: stringsOf rest

end

/-- `String(value)` of a property. -/
def textOf : Option Value → JsString
  | none => units "undefined"
  | some value => stringOf value

/-- `value ?? otherwise`. -/
def orElse (value otherwise : Option Value) : Option Value :=
  match value with
  | none => otherwise
  | some .null => otherwise
  | some value => some value

def hexDigit (digit : Nat) : UInt16 := UInt16.ofNat (if digit < 10 then 0x30 + digit else 0x57 + digit)

/-- `\uXXXX`. -/
def escapeUnit (unit : UInt16) : JsString :=
  [0x5c, 0x75, hexDigit (unit.toNat / 0x1000), hexDigit (unit.toNat / 0x100 % 0x10), hexDigit (unit.toNat / 0x10 % 0x10),
    hexDigit (unit.toNat % 0x10)]

/-- A unit of a string that is half of no pair. -/
def quoteUnit (unit : UInt16) : JsString :=
  if unit = 0x22 then [0x5c, 0x22]
  else if unit = 0x5c then [0x5c, 0x5c]
  else if unit = 0x08 then [0x5c, 0x62]
  else if unit = 0x0c then [0x5c, 0x66]
  else if unit = 0x0a then [0x5c, 0x6e]
  else if unit = 0x0d then [0x5c, 0x72]
  else if unit = 0x09 then [0x5c, 0x74]
  else if unit.toNat < 0x20 || isHigh unit || isLow unit then escapeUnit unit
  else [unit]

def quoteUnits : JsString → JsString
  | [] => []
  | [unit] => quoteUnit unit
  | unit :: next :: rest =>
    if isHigh unit && isLow next then unit :: next :: quoteUnits rest else quoteUnit unit ++ quoteUnits (next :: rest)

/-- `JSON.stringify` of a string. -/
def quote (string : JsString) : JsString := 0x22 :: (quoteUnits string ++ [0x22])

mutual

/-- `JSON.stringify`, with no indentation. -/
def stringify : Value → JsString
  | .null => units "null"
  | .boolean value => units (if value then "true" else "false")
  | .number value => value.text
  | .string value => quote value
  | .array items => units "[" ++ (units ",").intercalate (stringifyItems items) ++ units "]"
  | .object fields => units "\x7b" ++ (units ",").intercalate (stringifyFields fields) ++ units "\x7d"

def stringifyItems : List Value → List JsString
  | [] => []
  | item :: rest => stringify item :: stringifyItems rest

def stringifyFields : List (JsString × Value) → List JsString
  | [] => []
  | (key, value) :: rest => (quote key ++ units ":" ++ stringify value) :: stringifyFields rest

end

end Texts

section Orders

/-- A stable sort by a text. -/
def sortByText {Item : Type} (keyOf : Item → JsString) (items : List Item) : List Item :=
  items.insertionSort fun one other => keyOf one ≤ keyOf other

/-- Preferred keys first, as they are listed, then the others by text. -/
def keyBefore (preferred : List JsString) (left right : JsString) : Bool :=
  let rank (key : JsString) := if key ∈ preferred then preferred.idxOf key else 9007199254740991
  if left ∈ preferred ∨ right ∈ preferred then rank left ≤ rank right else left ≤ right

/-- Texts compared one after another, up to the first that differ. -/
def textsBefore : List JsString → List JsString → Bool
  | one :: rest, other :: others => if one = other then textsBefore rest others else one ≤ other
  | _, _ => true

/-- The members of an array, in the order its place in the document gives them. -/
def orderMembers (path : List JsString) (members : List Value) : List Value :=
  let keyed (name : String) : Bool := path.getLast? = some (units name)
  let within (name : String) : Bool := path.contains (units name)
  if path.getLast?.any (entityArrayKeys.contains ·) then sortByText (textOf <| read · "id") members
  else if keyed "historicalCompletions" then sortByText (textOf <| read · "landingId") members
  else if keyed "decisionEvidence" then sortByText (textOf <| read · "adrId") members
  else if keyed "sources" && within "decisionEvidence" then
    let texts (member : Value) := ["path", "revision", "contentSha256", "selector"].map fun field => textOf (read member field)
    members.insertionSort fun left right => textsBefore (texts left) (texts right)
  else if keyed "rows" then sortByText (fun member => textOf (orElse (read member "id") (read member "path"))) members
  else if keyed "planningSources" then
    sortByText (fun member => textOf (read member "revision") ++ units ":" ++ textOf (read member "path")) members
  else if keyed "primitiveSourceTuples" then sortByText (textOf <| read · "id") members
  else if keyed "members" && !within "genesisCompletion" then sortByText (textOf <| read · "path") members
  else if keyed "members" && within "genesisCompletion" then sortByText (textOf <| read · "landingId") members
  else if path.getLast?.any (setArrayKeys.contains ·) then sortByText stringify members
  else members

mutual

def canonicalizeValue (path : List JsString) : Value → Value
  | .array items => .array (orderMembers path (canonicalizeItems path 0 items))
  | .object fields =>
    let preferred := ((objectKind (.object fields) path).map fun kind => kind.order.map units).getD []
    .object (enumerated ((canonicalizeFields path fields).insertionSort fun one other => keyBefore preferred one.1 other.1))
  | value => value

def canonicalizeItems (path : List JsString) (index : Nat) : List Value → List Value
  | [] => []
  | item :: rest => canonicalizeValue (path ++ [units index.repr]) item :: canonicalizeItems path (index + 1) rest

def canonicalizeFields (path : List JsString) : List (JsString × Value) → List (JsString × Value)
  | [] => []
  | (key, value) :: rest => (key, canonicalizeValue (path ++ [key]) value) :: canonicalizeFields path rest

end

end Orders

section Rendering

def isPrimitive : Value → Bool
  | .array _ => false
  | .object _ => false
  | _ => true

def printWidth : Nat := 100

mutual

def renderCanonical (indentation : JsString) : Value → JsString
  | .null => units "null"
  | .boolean value => units (if value then "true" else "false")
  | .number value => value.text
  | .string value => quote value
  | .array items =>
    let childIndentation := indentation ++ units "  "
    let inlineMembers := renderItems childIndentation items
    let inline := units "[" ++ (units ", ").intercalate inlineMembers ++ units "]"
    if items.isEmpty then units "[]"
    else if items.all isPrimitive && indentation.length + inline.length ≤ printWidth then inline
    else units "[\n" ++ (units ",\n").intercalate (inlineMembers.map (childIndentation ++ ·)) ++ units "\n" ++ indentation ++ units "]"
  | .object fields =>
    let childIndentation := indentation ++ units "  "
    if fields.isEmpty then units "\x7b\x7d"
    else units "\x7b\n" ++ (units ",\n").intercalate ((renderFields childIndentation fields).map (childIndentation ++ ·)) ++
      units "\n" ++ indentation ++ units "\x7d"

def renderItems (indentation : JsString) : List Value → List JsString
  | [] => []
  | item :: rest => renderCanonical indentation item :: renderItems indentation rest

def renderFields (indentation : JsString) : List (JsString × Value) → List JsString
  | [] => []
  | (key, value) :: rest => (quote key ++ units ": " ++ renderCanonical indentation value) :: renderFields indentation rest

end

def canonicalSerialize (value : Value) : JsString := renderCanonical [] (canonicalizeValue [] value) ++ units "\n"

/-- What a property is compared by. -/
def canonicalText (value : Option Value) : JsString := canonicalSerialize (canonicalizeValue [] (value.getD .null))

end Rendering

end SecureHome.Governance
