import Mathlib.Data.List.Dedup
import SecureHome.Lib.Schema
import SecureHome.Governance.ArchivedPackage
import SecureHome.Governance.StrictJson
import SecureHome.Toolchain.TaskDelta

/-! The schema of the toolchain boundaries, and the validator that reads it where no workspace is
installed. -/

namespace SecureHome.Toolchain
open Lib Governance

section Validator

/-- What an instance is checked with, up to the nested parts. -/
def whereOf (place : JsString) : JsString := if place = [] then units "(root)" else place

def reportIf (wrong : Bool) (problem : JsString) : List JsString := if wrong then [problem] else []

/-- `===` of a value and a number. -/
def sameNumber (value : Json Lib.Double) (number : Lib.Double) : Bool :=
  match value with
  | .number other => other.unsigned = number.unsigned
  | _ => false

/-- The problems of `const` and `enum`. -/
def constProblems (keywords : Keywords) (value : Json Lib.Double) (shown : JsString) : List JsString :=
  (match keywords.const with
    | some number => reportIf (!sameNumber value number) (shown ++ units ": must be " ++ stringify (written (.number number)))
    | none => []) ++
  match keywords.enum with
  | some names => reportIf (!names.any fun name => match value with | .string text => text = name | _ => false)
      (shown ++ units ": " ++ stringify (written value) ++ units " is not one of " ++ (units ", ").intercalate names)
  | none => []

def stringProblems (keywords : Keywords) (text shown : JsString) : List JsString :=
  (match keywords.minLength with
    | some least => reportIf (text.length < least) (shown ++ units ": shorter than " ++ units least.repr)
    | none => []) ++
  match keywords.pattern with
  | some pattern => reportIf (!pattern.test text) (shown ++ units ": does not match " ++ pattern.source)
  | none => []

def arrayProblems (keywords : Keywords) (members : List (Json Lib.Double)) (shown : JsString) : List JsString :=
  (match keywords.minItems with
    | some least => reportIf (members.length < least) (shown ++ units ": needs at least " ++ units least.repr ++ units " item(s)")
    | none => []) ++
  (match keywords.maxItems with
    | some most => reportIf (most < members.length) (shown ++ units ": allows at most " ++ units most.repr ++ units " item(s)")
    | none => []) ++
  -- items are compared by their text
  reportIf (keywords.uniqueItems && ((members.map fun member => stringify (written member)).dedup.length ≠ members.length))
    (shown ++ units ": items must be unique")

def objectProblems (keywords : Keywords) (declared : List Key) (fields : Fields Lib.Double) (shown : JsString) : List JsString :=
  keywords.required.flatMap (fun key =>
    reportIf (fields.lookup key.1).isNone (shown ++ units ": missing required \"" ++ key.1 ++ units "\"")) ++
  if keywords.additionalProperties then []
  else fields.flatMap fun field => reportIf (!declared.any fun key => key.1 = field.1)
    (shown ++ units ": unknown property \"" ++ field.1 ++ units "\" is not declared by the schema")

/-- The place of a member and of a property. -/
def memberPlace (shown : JsString) (index : ℕ) : JsString := shown ++ units "[" ++ units index.repr ++ units "]"

def fieldPlace (place name : JsString) : JsString := if place = [] then name else place ++ units "." ++ name

/-- The problems of the members and of the properties, as a check has them. -/
def nestedMembers (check : Json Lib.Double → Schema → JsString → Option (List JsString)) (items : Option Schema) (members :
    List (Json Lib.Double))
    (shown : JsString) : Option (List (List JsString)) :=
  match items with
  | some schema => members.zipIdx.mapM fun member => check member.1 schema (memberPlace shown member.2)
  | none => some []

def nestedFields (check : Json Lib.Double → Schema → JsString → Option (List JsString)) (properties : List (Key × Schema))
    (fields : Fields Lib.Double) (place : JsString) : Option (List (List JsString)) :=
  properties.mapM fun property =>
    match fields.lookup property.1.1 with
    | some held => check held property.2 (fieldPlace place property.1.1)
    | none => some []

/-- A schema that is no reference. The parts of an instance are left to a check. -/
def validateNode (check : Json Lib.Double → Schema → JsString → Option (List JsString)) (keywords : Keywords) (items : Option Schema)
    (properties : List (Key × Schema)) (value : Json Lib.Double) (place : JsString) : Option (List JsString) :=
  let shown := whereOf place
  let problems := constProblems keywords value shown
  match keywords.type with
  | some .string =>
    match value with
    | .string text => some (problems ++ stringProblems keywords text shown)
    | _ => some [shown ++ units ": must be a string"]
  | some .array =>
    match value with
    | .array members => (nestedMembers check items members shown).map fun nested =>
        problems ++ arrayProblems keywords members shown ++ nested.flatten
    | _ => some [shown ++ units ": must be an array"]
  | some .object =>
    match value with
    | .object fields => (nestedFields check properties fields place).map fun nested =>
        problems ++ objectProblems keywords (properties.map Prod.fst) fields shown ++ nested.flatten
    | _ => some [shown ++ units ": must be an object"]
  -- no other type is looked at
  | _ => some problems

/-- The problems of an instance, or nothing if the schema does not end within the fuel. -/
def validateAgainstSchema (definitions : Definitions) : ℕ → Json Lib.Double → Schema → JsString → Option (List JsString)
  | 0, _, _, _ => none
  | fuel + 1, value, .ref name, place =>
    match definitions.lookup name with
    | none => some [whereOf place ++ units ": unresolvable $ref #/$defs/" ++ name]
    | some target => validateAgainstSchema definitions fuel value target place
  | fuel + 1, value, .node keywords items properties, place =>
    validateNode (validateAgainstSchema definitions fuel) keywords items properties value place

end Validator

section Committed

def patternOf (source : String) (test : JsString → Bool) : Pattern := ⟨units source, test⟩

/-- Letters, digits, dots, underscores, slashes and dashes. -/
def consumerPattern : Pattern := patternOf "^[A-Za-z0-9._/\x2d]+$" fun text =>
  text ≠ [] && text.all fun unit => isAlphanumeric unit || unit = 0x2e || unit = 0x5f || unit = 0x2f || unit = 0x2d

/-- Words of lower-case letters and digits between dashes, the first of them after a letter. -/
def idPattern : Pattern := patternOf "^[a-z][a-z0-9]*(-[a-z0-9]+)*$" fun text => isChangeId text && text.head?.any isLowerUnit

def digestPattern : Pattern := patternOf "^sha256:[0-9a-f]\x7b64\x7d$" prefixedSha256

def Schema.text (minLength : Option ℕ) (pattern : Option Pattern) : Schema := .node { type := some .string, minLength, pattern } none []

/-- Texts that are not empty. -/
def filledText : Schema := Schema.text (some 1) none

def idText : Schema := Schema.text none (some idPattern)

def oneOf (names : List String) : Schema := .node { enum := some (names.map units) } none []

/-- An array of so many items at least, all unique. -/
def uniqueArray (minItems : ℕ) (items : Schema) : Schema :=
  .node { type := some .array, minItems := some minItems, uniqueItems := true } (some items) []

/-- An object of these properties and no others. -/
def closedObject (required : List Key) (properties : List (Key × Schema)) : Schema :=
  .node { type := some .object, required, additionalProperties := false } none properties

def reference (name : String) : Schema := .ref (units name)

def projection : Schema := closedObject [.named "path" rfl, .named "projection" rfl]
  [(.named "path" rfl, filledText),
    (.named "projection" rfl, oneOf ["bytes", "tree-bytes", "mapping-coverage", "mapping-detail", "catalog-pins", "catalog-pins-except",
      "file-except-catalog-pins", "lock-closure", "lock-except-closure"]),
    (.named "packages" rfl, uniqueArray 1 filledText),
    (.named "engines" rfl, uniqueArray 1 (oneOf ["legacy", "replacement"])),
    (.named "note" rfl, Schema.text none none)]

def maintenanceClass : Schema := closedObject [.named "id" rfl, .named "allows" rfl, .named "allowedProjections" rfl]
  [(.named "id" rfl, idText),
    (.named "composite" rfl, .node { type := some .boolean } none []),
    (.named "allows" rfl, uniqueArray 1 filledText),
    (.named "notes" rfl, Schema.text none none),
    (.named "allowedProjections" rfl, uniqueArray 1 (reference "projection")),
    (.named "protectedProjections" rfl, uniqueArray 1 (reference "projection")),
    (.named "lockRoots" rfl, uniqueArray 1 filledText),
    (.named "composedOf" rfl, uniqueArray 2 filledText)]

def subjectCommand : Schema := closedObject
  [.named "id" rfl, .named "binary" rfl, .named "argv" rfl, .named "cwd" rfl, .named "inputs" rfl,
    .named "expect" rfl]
  [(.named "id" rfl, idText),
    (.named "binary" rfl, closedObject [.named "package" rfl, .named "bin" rfl]
      [(.named "package" rfl, filledText), (.named "bin" rfl, filledText)]),
    (.named "argv" rfl, .node { type := some .array } (some (Schema.text none none)) []),
    (.named "cwd" rfl, filledText),
    (.named "inputs" rfl, uniqueArray 1 (closedObject [.named "path" rfl, .named "source" rfl]
      [(.named "path" rfl, filledText), (.named "source" rfl, oneOf ["predecessor", "candidate"])])),
    (.named "expect" rfl, closedObject [.named "outcome" rfl]
      [(.named "outcome" rfl, oneOf ["success", "rejection"])])]

/-- `$defs` -/
def boundaryDefinitions : Definitions :=
  [(units "maintenanceClass", maintenanceClass), (units "projection", projection), (units "subjectCommand", subjectCommand)]

def subjectIsolation : Schema := closedObject
  [.named "deniedToSubject" rfl, .named "processBoundary" rfl, .named "containerControls" rfl, .named "image" rfl]
  [(.named "deniedToSubject" rfl, uniqueArray 1 filledText),
    (.named "processBoundary" rfl, oneOf ["container", "separate-uid"]),
    (.named "containerControls" rfl, uniqueArray 1 filledText),
    (.named "image" rfl, closedObject [.named "reference" rfl, .named "digest" rfl]
      [(.named "reference" rfl, filledText), (.named "digest" rfl, Schema.text none (some digestPattern))])]

def commandPack : Schema := closedObject [.named "classId" rfl, .named "commands" rfl]
  [(.named "classId" rfl, idText), (.named "commands" rfl, uniqueArray 1 (reference "subjectCommand"))]

theorem one_normalized : Normalized (2 ^ 52) (-52) := by decide +kernel

/-- The number of the only version. -/
def schemaVersion : Lib.Double := ⟨false, 2 ^ 52, -52, one_normalized⟩

/-- The committed schema of the boundaries. -/
def boundariesSchema : Schema := closedObject
  [.named "compatibilityConsumers" rfl, .named "maintenanceClasses" rfl, .named "maintenanceVerifierAuthorities" rfl,
    .named "platforms" rfl, .named "protectedProjections" rfl, .named "schemaVersion" rfl,
    .named "subjectCommandPacks" rfl, .named "subjectIsolation" rfl]
  [(.named "schemaVersion" rfl, .node { const := some schemaVersion } none []),
    (.named "compatibilityConsumers" rfl, uniqueArray 1 (Schema.text none (some consumerPattern))),
    (.named "normalCompilerEntryPoints" rfl, uniqueArray 1 filledText),
    (.named "platforms" rfl, uniqueArray 2 (oneOf ["ubuntu-24.04", "ubuntu-24.04-arm"])),
    (.named "installPosture" rfl, closedObject [.named "onlyBuiltDependencies" rfl]
      [(.named "onlyBuiltDependencies" rfl,
        .node { type := some .array, maxItems := some 0 } (some (Schema.text none none)) [])]),
    (.named "maintenanceClasses" rfl, uniqueArray 1 (reference "maintenanceClass")),
    (.named "subjectIsolation" rfl, subjectIsolation),
    (.named "protectedProjections" rfl, uniqueArray 1 (reference "projection")),
    (.named "maintenanceVerifierAuthorities" rfl, uniqueArray 1 filledText),
    (.named "subjectCommandPacks" rfl, uniqueArray 1 commandPack)]

end Committed

end SecureHome.Toolchain
