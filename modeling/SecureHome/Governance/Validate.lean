import Mathlib
import SecureHome.Lib.Splitting
import SecureHome.Governance.Digests

/-! The current state of the governance registry. A revision is well formed on its own, or
its problems are named. -/

namespace SecureHome.Governance
open Lib

structure Problem where
  code : String
  path : JsString
  message : JsString
  deriving DecidableEq, Repr

def refuse (wrong : Bool) (code : String) (path : JsString) (message : String) : List Problem :=
  if wrong then [⟨code, path, units message⟩] else []

def isObject : Option Value → Bool
  | some (.object _) => true
  | _ => false

def isNull : Option Value → Bool
  | some .null => true
  | _ => false

def isArray : Option Value → Bool
  | some (.array _) => true
  | _ => false

/-- `===`. No two parsed containers are one object. -/
def same : Option Value → Option Value → Bool
  | none, none => true
  | some .null, some .null => true
  | some (.boolean one), some (.boolean other) => one = other
  | some (.number one), some (.number other) => one.text = other.text
  | some (.string one), some (.string other) => one = other
  | _, _ => false

def truthy : Option Value → Bool
  | none => false
  | some .null => false
  | some (.boolean value) => value
  | some (.number value) => value.text ≠ units "0"
  | some (.string value) => value ≠ []
  | some _ => true

/-- A string of an object's own. -/
def textAt (value : Value) (name : String) : Option JsString :=
  match read value name with
  | some (.string text) => some text
  | _ => none

/-- The members of a collection, none where there is no array. -/
def members (state : Value) (name : String) : List Value :=
  match read state name with
  | some (.array items) => items
  | _ => []

def nodesOf (state : Value) : List Value := members state "gates" ++ members state "landings"

/-- The records of a collection under their identifiers, the last of each. -/
def byId (records : List Value) : List (JsString × Value) :=
  records.foldl (fun index record =>
    match textAt record "id" with
    | some id => put index id record
    | none => index) []

/-- The node identifiers a record requires; validation has refused anything else among them. -/
def requiresOf (node : Value) : List JsString :=
  (members node "requires").filterMap fun member => match member with | .string id => some id | _ => none

/-- What `evaluateState` runs that is not embedded here, over what it reads its inputs from. -/
structure OtherChecks (Context : Type) where
  parseStrictJson : JsString → Except JsString Value
  looksTruncated : JsString → JsString → Bool
  stateBytes : Context → Option (List UInt8)
  sourceManifest : Context → Option Value
  manifestProblems : Context → List Problem
  adr : Context → Value → JsString → List Problem
  question : Value → JsString → List Problem
  gate : Value → JsString → List Problem
  landing : Context → Value → JsString → List Problem
  externalReference : Value → JsString → List Problem
  attestations : Option Value → JsString → List Problem
  historicalCorrespondence : Context → Value → List Problem
  genesisBindings : Context → Value → List Problem
  adrRelationships : Value → List Problem
  sha256Text : JsString → JsString

section Fields

def requireObject (value : Option Value) (path : JsString) (code : String) : List Problem :=
  refuse (!isObject value) code path "must be an object"

def checkFields (value : Value) (allowed : List String) (path : JsString) : List Problem :=
  match value with
  | .object fields => fields.flatMap fun (key, member) =>
    if key ∈ allowed.map units then []
    else refuse true "ADV-G02" (path ++ units "." ++ key) "unknown field" ++
      refuse (isArray (some member)) "ADV-G39" (path ++ units "." ++ key) "collection is not classified by the v1 schema"
  | _ => []

def requiredFields (value : Value) (required : List String) (path : JsString) : List Problem :=
  required.flatMap fun key => refuse (read value key).isNone "ADV-G02" (path ++ units "." ++ units key) "required field is missing"

def oneOf (value : Option Value) (texts : List String) : Bool := texts.any (isText value ·)

def validId (value : Option Value) (expression : JsString → Bool) (path : JsString) (code : String) : List Problem :=
  refuse (!(match value with | some (.string text) => expression text | _ => false)) code path "has an invalid identifier"

/-- What a member of a set is told from the others by. -/
def memberKey : Value → JsString
  | .string text => text
  | value => stringify (canonicalizeValue [] value)

def indexed (path : JsString) (index : Nat) : JsString := path ++ units "[" ++ units index.repr ++ units "]"

def duplicateMembers (path : JsString) : Nat → List JsString → List Value → List Problem
  | _, _, [] => []
  | index, seen, value :: rest =>
    refuse (seen.contains (memberKey value)) "ADV-G38" (indexed path index) "duplicate collection member" ++
      duplicateMembers path (index + 1) (memberKey value :: seen) rest

def memberProblems (path : JsString) (valueValidator : Option Value → JsString → List Problem) : Nat → List Value → List Problem
  | _, [] => []
  | index, value :: rest => valueValidator (some value) (indexed path index) ++ memberProblems path valueValidator (index + 1) rest

def validateSet (values : Option Value) (path : JsString) (valueValidator : Option Value → JsString → List Problem) : List Problem :=
  match values with
  | some (.array items) => duplicateMembers path 0 [] items ++ memberProblems path valueValidator 0 items
  | _ => [⟨"ADV-G02", path, units "must be an array"⟩]

end Fields

section Identifiers

def isDigit (unit : UInt16) : Bool := 0x30 ≤ unit.toNat && unit.toNat ≤ 0x39

def isAlphanumeric (unit : UInt16) : Bool :=
  isDigit unit || 0x41 ≤ unit.toNat && unit.toNat ≤ 0x5a || 0x61 ≤ unit.toNat && unit.toNat ≤ 0x7a

/-- `ADR_ID`. -/
def isAdrId (text : JsString) : Bool := text.length = 8 && text.take 4 = units "ADR-" && (text.drop 4).all isDigit

/-- `QUESTION_ID`. -/
def isQuestionId (text : JsString) : Bool :=
  (["U1", "U2", "U3", "U4", "U5", "U6", "U7", "U8", "U9", "U10", "U11"].map units).contains text

def nodeStems : List String :=
  ["runner/L2", "runner/L3", "runner/L4", "runner/L5", "runner/L6", "runner/L7", "runner/L8", "runner/L9", "runner/L10",
    "runner/GATE-U4", "runner/GATE-U6"]

def isNodeSuffix : JsString → Bool
  | [] => true
  | [_] => false
  | dash :: first :: rest =>
    dash = 0x2d && isAlphanumeric first && rest.all fun unit => isAlphanumeric unit || unit = 0x2e || unit = 0x2d

/-- `NODE_ID`. -/
def isNodeId (text : JsString) : Bool :=
  nodeStems.any fun stem => text.take stem.length = units stem && isNodeSuffix (text.drop stem.length)

end Identifiers

section Entities

variable {Context : Type} (checks : OtherChecks Context) (context : Context)

def adrLifecycles : List String := ["Proposed", "Accepted", "Superseded", "Rejected"]

def deliveryLifecycles : List String := ["Planned", "InProgress", "Complete", "Withdrawn"]

def landingKinds : List String := ["implementation-landing", "spike-landing"]

def severities : List String := ["critical", "high", "medium"]

def adrFields : List String := ObjectKind.adr.order

def questionFields : List String := ObjectKind.question.order

def gateFields : List String := ObjectKind.gate.order

def landingFields : List String := ObjectKind.landing.order

def externalReferenceFields : List String := ["id", "reference", "role"]

def deliveryFields : List String := ObjectKind.delivery.order

/-- A path of the repository: relative, and of plain segments. -/
def isRepoPath (text : JsString) : Bool :=
  text.head? ≠ some 0x2f && !text.contains 0x5c && !text.contains 0x00 &&
    (text.splitOn 0x2f).all fun segment => segment ≠ [] && segment ≠ units "." && segment ≠ units ".."

def validRepoPath (value : Option Value) (path : JsString) : List Problem :=
  match value with
  | some (.string (first :: rest)) =>
    refuse (!isRepoPath (first :: rest)) "ADV-G12" path "must be a repository-relative POSIX path without traversal"
  | _ => [⟨"ADV-G12", path, units "must be a non-empty string"⟩]

def validateAdr (value : Value) (path : JsString) : List Problem :=
  if isObject (some value) then
    checkFields value adrFields path ++ requiredFields value adrFields path ++
      validId (read value "id") isAdrId (path ++ units ".id") "ADV-G02" ++ validRepoPath (read value "path") (path ++ units ".path") ++
      refuse (!oneOf (read value "lifecycle") adrLifecycles) "ADV-G14" (path ++ units ".lifecycle") "unknown ADR lifecycle" ++
      validateSet (read value "resolves") (path ++ units ".resolves") (fun member place => validId member isQuestionId place "ADV-G12") ++
      validateSet (read value "supersedes") (path ++ units ".supersedes") (fun member place => validId member isAdrId place "ADV-G12") ++
      checks.adr context value path
  else requireObject (some value) path "ADV-G02"

def validateQuestion (value : Value) (path : JsString) : List Problem :=
  if isObject (some value) then
    checkFields value questionFields path ++ requiredFields value questionFields path ++
      validId (read value "id") isQuestionId (path ++ units ".id") "ADV-G02" ++
      refuse (!oneOf (read value "severity") severities) "ADV-G02" (path ++ units ".severity") "unknown severity" ++
      checks.question value path
  else requireObject (some value) path "ADV-G02"

def validateNodeId (value : Option Value) (path : JsString) : List Problem := validId value isNodeId path "ADV-G12"

def validateReplacementTarget (value : Option Value) (path : JsString) : List Problem :=
  match value with
  | some .null => []
  | some (.string text) => validateNodeId (some (.string text)) path
  | _ => [⟨"ADV-G66", path, units "must be null or a node identifier"⟩]

/-- What gates and landings have in common. -/
def validateReplacement (value : Value) (path : JsString) : List Problem :=
  validateReplacementTarget (read value "replaces") (path ++ units ".replaces") ++
    refuse (isNull (read value "replaces") != isNull (read value "replacement")) "ADV-G66" path
      "replaces and replacement must be paired"

def validateGate (value : Value) (path : JsString) : List Problem :=
  if isObject (some value) then
    checkFields value gateFields path ++
      requiredFields value ["id", "kind", "predicate", "authorityAnchor", "sources", "replaces", "replacement"] path ++
      validateNodeId (read value "id") (path ++ units ".id") ++
      refuse (!isText (read value "kind") "gate") "ADV-G66" (path ++ units ".kind") "gate record must have kind gate" ++
      (if isObject (read value "predicate") then
        validId (readIn (read value "predicate") "question") isQuestionId (path ++ units ".predicate.question") "ADV-G12" ++
          validateReplacement value path ++ checks.gate value path
      else requireObject (read value "predicate") (path ++ units ".predicate") "ADV-G11")
  else requireObject (some value) path "ADV-G02"

/-- `validateDelivery`, up to the policies and the terminal envelopes. -/
def validateDelivery (value : Option Value) (path : JsString) : List Problem :=
  match value with
  | some (.object fields) =>
    checkFields (.object fields) deliveryFields path ++ requiredFields (.object fields) deliveryFields path ++
      refuse (!oneOf (readIn value "lifecycle") deliveryLifecycles) "ADV-G18" (path ++ units ".lifecycle")
        "unknown delivery lifecycle" ++
      refuse (oneOf (readIn value "lifecycle") ["Planned", "InProgress"] &&
          (!isNull (readIn value "completion") || !isNull (readIn value "withdrawal"))) "ADV-G18" path
        "non-terminal lifecycle cannot carry terminal evidence"
  | _ => requireObject value path "ADV-G02"

def validateLanding (value : Value) (path : JsString) : List Problem :=
  if isObject (some value) then
    checkFields value landingFields path ++
      requiredFields value ["id", "kind", "requires", "authorityAnchor", "replaces", "replacement", "delivery"] path ++
      validateNodeId (read value "id") (path ++ units ".id") ++
      refuse (!oneOf (read value "kind") landingKinds) "ADV-G66" (path ++ units ".kind") "unknown landing kind" ++
      validateSet (read value "requires") (path ++ units ".requires") validateNodeId ++
      validateReplacement value path ++ validateDelivery (read value "delivery") (path ++ units ".delivery") ++
      checks.landing context value path
  else requireObject (some value) path "ADV-G02"

def validateExternalReference (value : Value) (path : JsString) : List Problem :=
  if isObject (some value) then
    checkFields value externalReferenceFields path ++ requiredFields value externalReferenceFields path ++
      checks.externalReference value path
  else requireObject (some value) path "ADV-G02"

def validator (name : String) : Value → JsString → List Problem :=
  if name = "adrs" then validateAdr checks context
  else if name = "questions" then validateQuestion checks
  else if name = "gates" then validateGate checks
  else if name = "landings" then validateLanding checks context
  else validateExternalReference checks

/-- The entries of a collection, with the identifiers seen before. -/
def validateEntries (name : String) : Nat → List JsString → List Value → List Problem
  | _, _, [] => []
  | index, ids, value :: rest =>
    let path := units "$." ++ units name ++ units "[" ++ units index.repr ++ units "]"
    validator checks context name value path ++
      (match textAt value "id" with
      | some id => refuse (ids.contains id) "ADV-G38" (path ++ units ".id") "duplicate entity identifier" ++
        validateEntries name (index + 1) (id :: ids) rest
      | none => validateEntries name (index + 1) ids rest)

def validateCollection (state : Value) (name : String) : List Problem :=
  match read state name with
  | some (.array items) => validateEntries checks context name 0 [] items
  | _ => [⟨"ADV-G02", units "$." ++ units name, units "must be an array"⟩]

/-- Gates and landings share one space of identifiers. -/
def distinctNodes : List JsString → List Value → List Problem
  | _, [] => []
  | ids, node :: rest =>
    match textAt node "id" with
    | some id => refuse (ids.contains id) "ADV-G38" (units "$.nodes") "gate and landing identifiers must be unique" ++
      distinctNodes (id :: ids) rest
    | none => distinctNodes ids rest

def topLevelFields : List String := ObjectKind.root.order

def validateTopLevel (state : Value) : List Problem :=
  if isObject (some state) then
    checkFields state topLevelFields (units "$") ++ requiredFields state topLevelFields (units "$") ++
      refuse (!(match read state "schemaVersion" with | some (.number version) => version.text = units "1" | _ => false))
        "ADV-G02" (units "$.schemaVersion") "only schema version 1 is supported" ++
      collections.flatMap (validateCollection checks context state) ++
      distinctNodes [] (nodesOf state) ++ checks.attestations (read state "attestations") (units "$.attestations")
  else requireObject (some state) (units "$") "ADV-G02"

def checkCanonical (text : JsString) (state : Value) : List Problem :=
  let bytesDiffer := match checks.stateBytes context with
    | some bytes => bytes ≠ encode (canonicalSerialize state)
    | none => false
  refuse (bytesDiffer || text ≠ canonicalSerialize state) "ADV-G03" (units "$")
    "state bytes are not the deterministic canonical serialization"

end Entities

section Questions

structure Question where
  id : JsString
  resolved : Bool
  resolver : Option JsString
  resolvedOn : Option Value

structure Resolver where
  id : JsString
  decisionDate : Option Value

/-- The questions a decision resolves, one after another. -/
def resolveQuestions (questions : List JsString) (adr : Value) :
    List JsString → List (JsString × Resolver) → List Problem × List (JsString × Resolver)
  | [], resolvers => ([], resolvers)
  | question :: rest, resolvers =>
    let id := textOf (read adr "id")
    let path := units "$.adrs." ++ id ++ units ".resolves"
    if question ∈ questions then
      let (problems, final) := resolveQuestions questions adr rest
        (put resolvers question ⟨id, orElse (readIn (read adr "acceptance") "decisionDate") (some .null)⟩)
      ((if (resolvers.lookup question).isSome then
          [⟨"ADV-G06", path, units "multiple current accepted resolvers exist for " ++ question⟩] else []) ++ problems, final)
    else
      let (problems, final) := resolveQuestions questions adr rest resolvers
      (⟨"ADV-G12", path, units "references a missing question"⟩ :: problems, final)

def resolveAll (questions : List JsString) :
    List Value → List (JsString × Resolver) → List Problem × List (JsString × Resolver)
  | [], resolvers => ([], resolvers)
  | adr :: rest, resolvers =>
    if isText (read adr "lifecycle") "Accepted" then
      let (problems, next) := resolveQuestions questions adr ((members adr "resolves").map fun member => stringOf member) resolvers
      let (others, final) := resolveAll questions rest next
      (problems ++ others, final)
    else resolveAll questions rest resolvers

/-- The questions, as their resolvers leave them. -/
def deriveQuestions (state : Value) : List Problem × List (JsString × Question) :=
  let ids := (members state "questions").map fun question => textOf (read question "id")
  let (problems, resolvers) := resolveAll ids (members state "adrs") []
  (problems, ids.foldl (fun questions id => put questions id
    (match resolvers.lookup id with
    | some resolver => ⟨id, true, some resolver.id, resolver.decisionDate⟩
    | none => ⟨id, false, none, some .null⟩)) [])

end Questions

section Nodes

variable {Context : Type} (checks : OtherChecks Context)

def nodePath (id : JsString) (rest : String) : JsString := units "$.nodes." ++ id ++ units rest

def landingPath (id : JsString) : JsString := units "$.landings." ++ id ++ units ".requires"

/-- What a node that names an existing node is refused for, on its own. -/
def linkProblems (id : JsString) (node oldNode : Value) : List Problem :=
  let expected := replacementDigest checks.sha256Text oldNode node
  let bound (digest : Option Value) : Bool := same digest (some (.string expected))
  refuse (!same (read oldNode "kind") (read node "kind")) "ADV-G66" (nodePath id "") "replacement must preserve node kind" ++
    (if truthy (read node "replacement") then
      refuse (!bound (readIn (read node "replacement") "digest")) "ADV-G66" (nodePath id ".replacement.digest")
          "replacement digest does not bind complete old/new semantic identities" ++
        refuse (!bound (readIn (readIn (read node "replacement") "attestation") "digest")) "ADV-G66"
          (nodePath id ".replacement.attestation.digest") "replacement attestation is not bound to replacement digest"
    else [])

/-- Which node replaces which, one node after another. -/
def linkNodes (nodes : List (JsString × Value)) :
    List (JsString × Value) → List (JsString × JsString) → List Problem × List (JsString × JsString)
  | [], replacedBy => ([], replacedBy)
  | (id, node) :: rest, replacedBy =>
    if isNull (read node "replaces") then linkNodes nodes rest replacedBy
    else
      match (textAt node "replaces").bind fun target => (nodes.lookup target).map (target, ·) with
      | none =>
        let (problems, final) := linkNodes nodes rest replacedBy
        (⟨"ADV-G66", nodePath id ".replaces", units "replacement target does not exist"⟩ :: problems, final)
      | some (target, oldNode) =>
        let (problems, final) := linkNodes nodes rest (put replacedBy target id)
        (refuse (replacedBy.lookup target).isSome "ADV-G66" (nodePath id ".replaces")
            "two distinct nodes directly name the same replacement target" ++
          linkProblems checks id node oldNode ++ problems, final)

/-- Whether the targets from here on meet one seen before, over at most `fuel` of them. -/
def meetsCycle (nodes : List (JsString × Value)) : Nat → List JsString → Option JsString → Bool
  | 0, _, _ => false
  | _ + 1, _, none => false
  | fuel + 1, seen, some target =>
    if target ∈ seen then true
    else meetsCycle nodes fuel (target :: seen) ((nodes.lookup target).bind (textAt · "replaces"))

structure Visit where
  visiting : List JsString
  visited : List JsString
  problems : List Problem

/-- Depth first, and no deeper than there are nodes. -/
def visitPrerequisites (nodes : List (JsString × Value)) : Nat → Visit → JsString → Visit
  | 0, visit, _ => visit
  | fuel + 1, visit, id =>
    if id ∈ visit.visiting then
      { visit with problems := visit.problems ++ [⟨"ADV-G10", landingPath id, units "prerequisite graph contains a cycle"⟩] }
    else if id ∈ visit.visited then visit
    else
      let prerequisites := ((nodes.lookup id).map requiresOf).getD []
      let walked := (prerequisites.filter fun prerequisite => (nodes.lookup prerequisite).isSome).foldl
        (visitPrerequisites nodes fuel) { visit with visiting := id :: visit.visiting }
      { walked with visiting := walked.visiting.erase id, visited := id :: walked.visited }

/-- Whoever requires a node, in the order of the registry. -/
def dependentsOf (nodes : List (JsString × Value)) (landings : List Value) (prerequisite : JsString) : List JsString :=
  if (nodes.lookup prerequisite).isSome then
    ((landings.filter fun landing => (requiresOf landing).contains prerequisite).map fun landing =>
      textOf (read landing "id")).dedup
  else []

/-- Breadth first over dependents, each expanded once. -/
def closureProblems (dependents : JsString → List JsString) (replacedBy : List (JsString × JsString)) :
    Nat → List JsString → List JsString → List Problem
  | 0, _, _ => []
  | _ + 1, _, [] => []
  | fuel + 1, visited, prerequisite :: queue =>
    if prerequisite ∈ visited then closureProblems dependents replacedBy fuel visited queue
    else
      (dependents prerequisite).flatMap (fun dependent => refuse (replacedBy.lookup dependent).isNone "ADV-G66"
          (nodePath dependent "") "replacement dependent closure is incomplete") ++
        closureProblems dependents replacedBy fuel (prerequisite :: visited) (queue ++ dependents prerequisite)

/-- What a replacement landing requires is what the replaced one did, repointed. -/
def repointProblems (nodes : List (JsString × Value)) (replacedBy : List (JsString × JsString)) (id : JsString) (node : Value) :
    List Problem :=
  if isNull (read node "replaces") || isText (read node "kind") "gate" then []
  else
    match (textAt node "replaces").bind fun target => nodes.lookup target with
    | none => []
    | some oldNode =>
      if isText (read oldNode "kind") "gate" then []
      else
        let expected := (requiresOf oldNode).map fun prerequisite => (replacedBy.lookup prerequisite).getD prerequisite
        let actual := requiresOf node
        refuse (expected.dedup.length ≠ actual.dedup.length || expected.any fun prerequisite => !actual.contains prerequisite)
          "ADV-G66" (nodePath id ".requires") "replacement must preserve prerequisites while repointing replaced identities"

def startProblems (id : JsString) (node : Value) : List Problem :=
  if isNull (read node "replaces") then []
  else if isText (read node "kind") "gate" then
    refuse (read node "delivery").isSome "ADV-G66" (nodePath id ".delivery") "gate replacement cannot carry delivery state"
  else
    let delivery := read node "delivery"
    refuse (!isText (readIn delivery "lifecycle") "Planned" || !isNull (readIn delivery "completion") ||
        !isNull (readIn delivery "withdrawal")) "ADV-G66" (nodePath id ".delivery")
      "replacement landing must start Planned without terminal evidence"

structure NodeInfo where
  nodes : List (JsString × Value)
  currentIds : List JsString
  replacedBy : List (JsString × JsString)

def deriveNodes (state : Value) : List Problem × NodeInfo :=
  let nodes := byId (nodesOf state)
  let landings := members state "landings"
  let (links, replacedBy) := linkNodes checks nodes nodes []
  let cycles := nodes.flatMap fun (id, node) =>
    refuse (meetsCycle nodes (nodes.length + 2) [id] (textAt node "replaces")) "ADV-G66" (nodePath id ".replaces")
      "replacement graph contains a cycle"
  let currentIds := (nodes.map Prod.fst).filter fun id => (replacedBy.lookup id).isNone
  let missing := landings.flatMap fun landing => (requiresOf landing).flatMap fun prerequisite =>
    refuse (nodes.lookup prerequisite).isNone "ADV-G12" (landingPath (textOf (read landing "id"))) "references a missing node"
  let visit := (landings.map fun landing => textOf (read landing "id")).foldl (visitPrerequisites nodes (nodes.length + 2)) ⟨[], [], []⟩
  let stale := landings.flatMap fun landing =>
    let id := textOf (read landing "id")
    if id ∈ currentIds then
      (requiresOf landing).flatMap fun prerequisite => refuse (!currentIds.contains prerequisite) "ADV-G66" (landingPath id)
        "current node references a non-current prerequisite"
    else []
  let edges := (landings.map fun landing => (requiresOf landing).length).sum
  let closure := replacedBy.flatMap fun (target, _) =>
    closureProblems (dependentsOf nodes landings) replacedBy (edges + 2) [] [target]
  (links ++ cycles ++ missing ++ visit.problems ++ stale ++ closure ++
    nodes.flatMap (fun (id, node) => repointProblems nodes replacedBy id node) ++
    nodes.flatMap (fun (id, node) => startProblems id node),
    { nodes, currentIds, replacedBy })

end Nodes

section Answers

structure Gate where
  satisfied : Bool
  evaluable : Bool

def deriveGates (state : Value) (questions : List (JsString × Question)) : List Problem × List (JsString × Gate) :=
  (members state "gates").foldl (fun (problems, gates) gate =>
    let id := textOf (read gate "id")
    let predicate := read gate "predicate"
    let path := units "$.gates." ++ id ++ units ".predicate"
    match questions.lookup (textOf (readIn predicate "question")) with
    | none =>
      (problems ++ [⟨"ADV-G09", path ++ units ".question", units "predicate cannot be evaluated"⟩], put gates id ⟨false, false⟩)
    | some question =>
      if isText (readIn predicate "name") "exactly-one-current-accepted-resolver" then
        (problems, put gates id ⟨question.resolved, true⟩)
      else
        (problems ++ [⟨"ADV-G09", path ++ units ".name", units "predicate cannot be evaluated"⟩], put gates id ⟨false, false⟩))
    ([], [])

inductive Assessment where
  | authorizationRequiresExternalVerification
  | prerequisitesNotReady
  deriving DecidableEq, Repr

structure Readiness where
  ready : Bool
  unsatisfied : List JsString
  deliveryState : Option Value
  authorizationAssessment : Option Assessment
  current : Bool

def deriveReadiness (state : Value) (info : NodeInfo) (gates : List (JsString × Gate)) : List (JsString × Readiness) :=
  let landings := members state "landings"
  let lifecycle (landing : Value) := readIn (read landing "delivery") "lifecycle"
  let satisfied := ((gates.filter fun gate => gate.2.satisfied).map Prod.fst) ++
    (landings.filter fun landing => isText (lifecycle landing) "Complete").map fun landing => textOf (read landing "id")
  landings.foldl (fun readiness landing =>
    let unsatisfied := (requiresOf landing).filter fun id => !satisfied.contains id
    put readiness (textOf (read landing "id"))
      { ready := unsatisfied.isEmpty, unsatisfied, deliveryState := lifecycle landing
        authorizationAssessment :=
          if oneOf (lifecycle landing) ["Complete", "Withdrawn"] then none
          else if unsatisfied.isEmpty then some .authorizationRequiresExternalVerification
          else some .prerequisitesNotReady
        current := info.currentIds.contains (textOf (read landing "id")) }) []

end Answers

section Evaluation

structure Derived where
  questions : List (JsString × Question)
  gates : List (JsString × Gate)
  nodes : NodeInfo
  readiness : List (JsString × Readiness)

/-- A verdict, and what the comparison of two revisions reads of it. -/
structure Evaluation (Context : Type) where
  ok : Bool
  problems : List Problem
  state : Option Value
  sourceManifest : Option Value
  context : Option Context
  derived : Option Derived

variable {Context : Type} (checks : OtherChecks Context)

/-- A refusal, with what it keeps of the input. -/
def refused (problems : List Problem) (state sourceManifest : Option Value) (context : Option Context) : Evaluation Context :=
  { ok := false, problems, state, sourceManifest, context, derived := none }

/-- Everything that is checked before anything is derived. -/
def shapeProblems (text : JsString) (context : Context) (state : Value) : List Problem :=
  checkCanonical checks context text state ++ checks.manifestProblems context ++ validateTopLevel checks context state ++
    (if isObject (some state) then
      checks.historicalCorrespondence context state ++ checks.genesisBindings context state ++ checks.adrRelationships state
    else [])

/-- Seeded completions whose prerequisites are not satisfied. -/
def seedProblems (state : Value) (readiness : List (JsString × Readiness)) : List Problem :=
  (members state "landings").flatMap fun landing =>
    let id := textOf (read landing "id")
    refuse (isText (readIn (readIn (read landing "delivery") "completion") "type") historicalCompletionType &&
        ((readiness.lookup id).map Readiness.ready) ≠ some true) "ADV-G56" (units "$.landings." ++ id)
      "a seeded Complete landing has unsatisfied prerequisites"

def evaluateState (text : JsString) (context : Context) : Evaluation Context :=
  match checks.parseStrictJson text with
  | .error message =>
    refused (⟨"ADV-G01", units "$", units "strict JSON parse failed: " ++ message⟩ ::
      refuse (checks.looksTruncated text message) "ADV-G23" (units "$") "state appears truncated; no derived answer is produced")
      none none none
  | .ok state =>
    let manifest := checks.sourceManifest context
    let shape := shapeProblems checks text context state
    if shape ≠ [] then refused shape (some state) manifest (some context)
    else
      let (unanswered, questions) := deriveQuestions state
      if unanswered ≠ [] then refused unanswered (some state) none none
      else
        let (unlinked, nodes) := deriveNodes checks state
        if unlinked ≠ [] then refused unlinked (some state) none none
        else
          let (unevaluated, gates) := deriveGates state questions
          if unevaluated ≠ [] then refused unevaluated (some state) none none
          else
            let readiness := deriveReadiness state nodes gates
            let seeded := seedProblems state readiness
            if seeded ≠ [] then refused seeded (some state) manifest none
            else
              { ok := true, problems := [], state := some state, sourceManifest := manifest, context := some context
                derived := some { questions, gates, nodes, readiness } }

end Evaluation

end SecureHome.Governance
