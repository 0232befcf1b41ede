import SecureHome.Governance.Validate

/-! Pairwise governance rules: what one revision of the registry may make of the one
before it. -/

namespace SecureHome.Governance
open Lib

def legalAdrTransitions : List (String × List String) :=
  [("Proposed", ["Proposed", "Accepted", "Rejected"]), ("Accepted", ["Accepted", "Superseded"]), ("Rejected", ["Rejected"]),
    ("Superseded", ["Superseded"])]

def legalDeliveryTransitions : List (String × List String) :=
  [("Planned", ["Planned", "InProgress", "Complete", "Withdrawn"]), ("InProgress", ["InProgress", "Complete", "Withdrawn"]),
    ("Complete", ["Complete"]), ("Withdrawn", ["Withdrawn"])]

def legalWithdrawalSources : List String := ["Planned", "InProgress"]

/-- The row of a table of transitions. -/
def successors (table : List (String × List String)) (lifecycle : Option Value) : Option (List String) :=
  (table.find? fun row => isText lifecycle row.1).map Prod.snd

def ruleInputCodes : List (String × String) :=
  [("predicate", "ADV-G11"), ("requires", "ADV-G13"), ("authorityAnchor", "ADV-G14"), ("kind", "ADV-G15"),
    ("completionPolicy", "ADV-G15"), ("sources", "ADV-G15"), ("reviewedOrderingIntent", "ADV-G15")]

/-- Whether two properties have different canonical texts. -/
def changed (before after : Option Value) : Bool := canonicalText before ≠ canonicalText after

structure TransitionFields where
  schemaVersion : Option Value
  priorStateDigest : JsString
  targetPrimitiveDigest : JsString
  subject : JsString
  lifecycle : Option Value
  contentDigest : Option Value
  relationshipDigest : JsString

inductive Presence where
  | present
  | absent
  deriving DecidableEq, Repr

structure Ancestry where
  status : Presence
  commits : List JsString

/-- What `evaluateHistory` runs that is not embedded here. -/
structure OtherComparisons (Context : Type) where
  consumerInventory : Evaluation Context → Option Value
  consumerDiscoveries : Evaluation Context → List Value
  primitiveDigest : Value → JsString
  relationshipDigest : Value → JsString
  transitionDigest : TransitionFields → JsString
  genesisException : JsString → Option (Evaluation Context) → Ancestry → Bool × List Problem

section Records

/-- `/^authoriz/iu`. -/
def isAuthorizationKey (key : JsString) : Bool :=
  let lower (unit : UInt16) : UInt16 := if 0x41 ≤ unit.toNat && unit.toNat ≤ 0x5a then unit + 0x20 else unit
  (key.take 8).map lower = units "authoriz"

mutual

/-- Every key path whose last segment asserts authorization. -/
def authorizationClaims (path : JsString) (found : List (JsString × JsString)) : Value → List (JsString × JsString)
  | .array items => itemClaims path 0 found items
  | .object fields => fieldClaims path found fields
  | _ => found

def itemClaims (path : JsString) (index : Nat) (found : List (JsString × JsString)) : List Value → List (JsString × JsString)
  | [] => found
  | item :: rest =>
    itemClaims path (index + 1) (authorizationClaims (path ++ units "[" ++ units index.repr ++ units "]") found item) rest

def fieldClaims (path : JsString) (found : List (JsString × JsString)) : List (JsString × Value) → List (JsString × JsString)
  | [] => found
  | (key, member) :: rest =>
    let here := path ++ units "." ++ key
    let noted := if isAuthorizationKey key then put found here (canonicalText (some member)) else found
    fieldClaims path (authorizationClaims here noted member) rest

end

def compareAuthorizationRecords (baseState targetState : Value) : List Problem :=
  let before := authorizationClaims (units "$") [] baseState
  let after := authorizationClaims (units "$") [] targetState
  after.flatMap (fun (path, text) =>
      match before.lookup path with
      | none => refuse true "ADV-G18" path
          "an authorization-evidence record was introduced; version one defines none and authorization is never local"
      | some held => refuse (held ≠ text) "ADV-G18" path "an authorization-evidence record was mutated") ++
    before.flatMap fun (path, _) => refuse (after.lookup path).isNone "ADV-G18" path "an authorization-evidence record was removed"

def compareRecordSurvival (baseState targetState : Value) : List Problem :=
  collections.flatMap fun collection =>
    (byId (members baseState collection)).flatMap fun (id, _) =>
      refuse ((byId (members targetState collection)).lookup id).isNone "ADV-G34" (units "$." ++ units collection ++ units "." ++ id)
        "an existing record was deleted or renumbered; identifiers are permanent"

variable {Context : Type}

/-- The state of a verdict, `null` where it has none. -/
def stateOf (evaluation : Option (Evaluation Context)) : Value := (evaluation.bind (·.state)).getD .null

def isHistorical (node : Value) : Bool :=
  isText (readIn (readIn (read node "delivery") "completion") "type") historicalCompletionType

def compareGenesisPreservation (base target : Option (Evaluation Context)) : List Problem :=
  let before := stateOf base
  let after := stateOf target
  let historical := ((members before "landings").filter isHistorical).map fun node => textOf (read node "id")
  ["genesis", "genesisCompletion"].flatMap (fun key =>
      refuse (changed (readIn (read before "attestations") key) (readIn (read after "attestations") key)) "ADV-G89"
        (units "$.attestations." ++ units key) "genesis envelopes are immutable after introduction") ++
    refuse (changed (base.bind (·.sourceManifest)) (target.bind (·.sourceManifest))) "ADV-G89" (units "$.sourceManifest")
      "genesis source rows, dispositions and historical evidence are immutable" ++
    (members after "landings").flatMap fun node =>
      let id := textOf (read node "id")
      refuse (isHistorical node && !historical.contains id) "ADV-G83" (units "$.landings." ++ id)
        "an ordinary transition or replacement cannot introduce historical genesis completion"

end Records

section Consumers

variable {Context : Type} (others : OtherComparisons Context)

def consumerPath (row : Value) : JsString := units "$.consumers." ++ textOf (read row "path")

/-- The last record of a path. -/
def atPath (records : List Value) (path : Option Value) : Option Value :=
  records.reverse.find? fun record => same (read record "path") path

def preserveConsumerRows (before after : Value) : List Problem :=
  (members before "rows").flatMap fun row =>
    refuse (isObject (some row) && canonicalSerialize row ≠
        canonicalSerialize ((atPath (members after "rows") (read row "path")).getD .null)) "ADV-G46" (consumerPath row)
      "existing consumer rows cannot be removed or reclassified"

/-- What a consumer row is refused for that the base does not have. -/
def newConsumer (base target : Evaluation Context) (row : Value) : List Problem :=
  let adr := atPath (members (target.state.getD .null) "adrs") (read row "path")
  let known (adr : Value) : Bool :=
    ((textAt adr "id").bind fun id => (byId (members (base.state.getD .null) "adrs")).lookup id).isSome
  refuse (!adr.any fun adr => !known adr && isText (read adr "lifecycle") "Proposed") "ADV-G46" (consumerPath row)
      "a new consumer row must arrive atomically with a new Proposed decision" ++
    refuse (changed (read row "factClasses") (readIn (atPath (others.consumerDiscoveries target) (read row "path")) "factClasses"))
      "ADV-G46" (consumerPath row) "new consumer fact classes must equal complete target discovery"

def compareConsumers (base target : Evaluation Context) : List Problem :=
  match others.consumerInventory base, others.consumerInventory target with
  | some before, some after =>
    preserveConsumerRows before after ++ (members after "rows").flatMap fun row =>
      if isObject (some row) && !(members before "rows").any fun prior => same (read prior "path") (read row "path") then
        newConsumer others base target row
      else []
  | _, _ => []

end Consumers

section Decisions

variable {Context : Type} (others : OtherComparisons Context)

def adrPath (id : JsString) (rest : String) : JsString := units "$.adrs." ++ id ++ units rest

/-- A decision is bound to the state it was taken in. -/
def boundDecision (baseState targetState : Value) (id : JsString) (baseAdr targetAdr : Value) : List Problem :=
  let acceptance := read targetAdr "acceptance"
  if isText (read baseAdr "lifecycle") "Proposed" && oneOf (read targetAdr "lifecycle") ["Accepted", "Rejected"] &&
      truthy acceptance then
    let expected := others.transitionDigest
      { schemaVersion := read targetState "schemaVersion", priorStateDigest := others.primitiveDigest baseState
        targetPrimitiveDigest := others.primitiveDigest targetState, subject := id, lifecycle := read targetAdr "lifecycle"
        contentDigest := readIn acceptance "contentDigest", relationshipDigest := others.relationshipDigest targetState }
    refuse (!same (readIn acceptance "transitionDigest") (some (.string expected))) "ADV-G19"
      (adrPath id ".acceptance.transitionDigest")
      "ordinary ADR transition must bind the evaluated predecessor, never a genesis or bridge digest"
  else []

/-- What a decided record keeps. -/
def decidedProblems (id : JsString) (baseAdr targetAdr : Value) : List Problem :=
  if isText (read baseAdr "lifecycle") "Proposed" then []
  else
    refuse (changed (read baseAdr "acceptance") (read targetAdr "acceptance")) "ADV-G40" (adrPath id ".acceptance")
        "acceptance evidence of a decided ADR was mutated; the recorded digest and the accepted bytes are both pinned" ++
      refuse (!same (read baseAdr "path") (read targetAdr "path")) "ADV-G04h" (adrPath id ".path")
        "accepted decision bytes were repointed" ++
      refuse (changed (read baseAdr "resolves") (read targetAdr "resolves")) "ADV-G40" (adrPath id ".resolves")
        "a decided ADR's relationships were mutated" ++
      refuse (changed (read baseAdr "supersedes") (read targetAdr "supersedes")) "ADV-G40" (adrPath id ".supersedes")
        "a decided ADR's supersession was mutated"

/-- A move that its table has a row for, and does not list. -/
def illegalMove (table : List (String × List String)) (source target : Option Value) : Bool :=
  match successors table source with
  | some legal => !oneOf target legal
  | none => false

def compareDecision (baseState targetState : Value) (id : JsString) (baseAdr targetAdr : Value) : List Problem :=
  let source := read baseAdr "lifecycle"
  let target := read targetAdr "lifecycle"
  (if illegalMove legalAdrTransitions source target then
    [⟨"ADV-G08", adrPath id ".lifecycle", textOf source ++ units " -> " ++ textOf target ++ units " is not a legal decision transition"⟩]
  else []) ++ boundDecision others baseState targetState id baseAdr targetAdr ++ decidedProblems id baseAdr targetAdr

def compareDecisions (baseState targetState : Value) : List Problem :=
  let before := byId (members baseState "adrs")
  let after := byId (members targetState "adrs")
  after.flatMap (fun (id, targetAdr) =>
      refuse ((before.lookup id).isNone && !isText (read targetAdr "lifecycle") "Proposed") "ADV-G08" (adrPath id ".lifecycle")
        "a new ADR must first appear as Proposed; a terminal decision requires its prior lifecycle") ++
    before.flatMap fun (id, baseAdr) =>
      match after.lookup id with
      | none => []
      | some targetAdr => compareDecision others baseState targetState id baseAdr targetAdr

/-- A resolved question's current resolver may not quietly disappear. -/
def compareResolvers (base target : Option (Evaluation Context)) : List Problem :=
  let questionsOf (evaluation : Option (Evaluation Context)) :=
    ((evaluation.bind (·.derived)).map Derived.questions).getD []
  let resolvers (state : Value) (question : JsString) : List JsString :=
    sortByText id (((members state "adrs").filter fun adr => (members adr "resolves").any fun member =>
      same (some member) (some (.string question))).map fun adr => textOf (read adr "id"))
  (questionsOf base).flatMap fun (id, question) =>
    if question.resolved then
      let after := resolvers (stateOf target) id
      let lost := (resolvers (stateOf base) id).filter fun adr => !after.contains adr
      if lost ≠ [] then
        [⟨"ADV-G35", units "$.questions." ++ id,
          units "the current resolver relationship of a resolved question disappeared: " ++ (units ", ").intercalate lost⟩]
      else
        refuse (((questionsOf target).lookup id).map Question.resolved ≠ some true) "ADV-G35" (units "$.questions." ++ id)
          "a resolved question became unresolved"
    else []

end Decisions

section Nodes

def compareIdentity (id : JsString) (baseNode targetNode : Value) : List Problem :=
  (semanticIdentity baseNode).flatMap fun (field, value) =>
    if field = "id" ∨ field = "schemaVersion" then []
    else
      refuse (changed value (((semanticIdentity targetNode).lookup field).getD none)) ((ruleInputCodes.lookup field).getD "ADV-G15")
        (nodePath id "." ++ units field)
        "an identity-bearing rule input was mutated in place; a rule input changes only through the replacement protocol"

def compareRuleInputs (baseState targetState : Value) : List Problem :=
  let after := byId (nodesOf targetState)
  (byId (nodesOf baseState)).flatMap fun (id, baseNode) =>
    match after.lookup id with
    | none => []
    | some targetNode => compareIdentity id baseNode targetNode

def deliveryPath (id : JsString) (rest : String) : JsString := units "$.landings." ++ id ++ units ".delivery" ++ units rest

/-- A move into `Complete` or `Withdrawn`, by the envelope that records it. -/
def envelopeProblems (code missing : String) (path : JsString) (envelope source : Option Value) : List Problem :=
  if isObject envelope then
    if same (readIn envelope "from") source then []
    else [⟨code, path ++ units ".from", units "the envelope records " ++ textOf (readIn envelope "from") ++
      units " but the base lifecycle was " ++ textOf source⟩]
  else refuse true code path missing

def compareLanding (id : JsString) (baseLanding targetLanding : Value) : List Problem :=
  let before := read baseLanding "delivery"
  let after := read targetLanding "delivery"
  let source := readIn before "lifecycle"
  let target := readIn after "lifecycle"
  (if illegalMove legalDeliveryTransitions source target then
    [⟨"ADV-G29", deliveryPath id ".lifecycle", textOf source ++ units " -> " ++ textOf target ++
      units " is not a legal delivery transition; Complete and Withdrawn are terminal"⟩]
  else []) ++
    refuse (isText source "Complete" && changed (readIn before "completion") (readIn after "completion")) "ADV-G29"
      (deliveryPath id ".completion") "terminal delivery evidence was mutated or removed after completion" ++
    refuse (isText source "Withdrawn" && changed (readIn before "withdrawal") (readIn after "withdrawal")) "ADV-G29"
      (deliveryPath id ".withdrawal") "terminal withdrawal evidence was mutated or removed after withdrawal" ++
    (if isText target "Complete" && !isText source "Complete" then
      envelopeProblems "ADV-G29" "a completion transition carries no envelope" (deliveryPath id ".completion")
        (readIn after "completion") source
    else []) ++
    if isText target "Withdrawn" && !isText source "Withdrawn" then
      (if oneOf source legalWithdrawalSources then []
      else [⟨"ADV-G75", deliveryPath id ".lifecycle",
        units "a Withdrawn target requires a Planned or InProgress base, not " ++ textOf source⟩]) ++
        envelopeProblems "ADV-G75" "a withdrawal transition carries no envelope" (deliveryPath id ".withdrawal")
          (readIn after "withdrawal") source
    else []

def compareDelivery (baseState targetState : Value) : List Problem :=
  let after := byId (members targetState "landings")
  (byId (members baseState "landings")).flatMap fun (id, baseLanding) =>
    match after.lookup id with
    | none => []
    | some targetLanding => compareLanding id baseLanding targetLanding

/-- An existing replacement relationship is itself a rule input. -/
def keptReplacement (id : JsString) (baseNode targetNode : Value) : List Problem :=
  refuse (changed (read baseNode "replaces") (read targetNode "replaces")) "ADV-G16" (nodePath id ".replaces")
      "an existing replacement relationship was removed, repointed, or reassociated" ++
    refuse (changed (read baseNode "replacement") (read targetNode "replacement")) "ADV-G16" (nodePath id ".replacement")
      "an existing replacement digest or attestation was edited"

/-- A first appearance after genesis. -/
def introducedNode (before : List (JsString × Value)) (id : JsString) (targetNode : Value) : List Problem :=
  match textAt targetNode "replaces" with
  | none => refuse true "ADV-G16" (nodePath id "")
      "a gate or landing identity first appears after genesis without a replacement relationship; version one has no unlinked node-introduction path"
  | some replaces =>
    match before.lookup replaces with
    | none => [⟨"ADV-G16", nodePath id ".replaces",
        units "the replaced identity " ++ replaces ++ units " does not exist in the base revision"⟩]
    | some replacedNode =>
      let replacedInBase := before.filterMap fun (_, node) => textAt node "replaces"
      let replacement := read targetNode "replacement"
      (if replacedInBase.contains replaces then
        [⟨"ADV-G16", nodePath id ".replaces", units "the replacement target " ++ replaces ++
          units " was already non-current in the base revision; target-state currentness cannot substitute for base-state currentness"⟩]
      else []) ++
        refuse (!same (read replacedNode "kind") (read targetNode "kind")) "ADV-G16" (nodePath id ".kind")
          "a replacement identity must preserve the replaced node kind" ++
        refuse (!isObject replacement || !isObject (readIn replacement "attestation") ||
            !(match readIn replacement "digest" with | some (.string _) => true | _ => false)) "ADV-G16" (nodePath id ".replacement")
          "a replacement identity, its relationship, digest and attestation must arrive in the same revision"

def compareReplacement (baseState targetState : Value) : List Problem :=
  let before := byId (nodesOf baseState)
  (byId (nodesOf targetState)).flatMap fun (id, targetNode) =>
    match before.lookup id with
    | some baseNode => keptReplacement id baseNode targetNode
    | none => introducedNode before id targetNode

end Nodes

section Comparison

inductive Comparison where
  | refused
  | genesis
  | pairwise
  deriving DecidableEq, Repr

structure CommitMetadata where
  gitAuthorAt : JsString
  gitCommitterAt : JsString

structure DecisionObservation where
  subject : JsString
  evaluatedRevision : JsString
  decisionDate : Option Value
  metadata : CommitMetadata

structure Verdict where
  ok : Bool
  problems : List Problem
  comparison : Comparison
  decisionObservations : List DecisionObservation

/-- A revision as the adapter found it. -/
structure Observation (Context : Type) where
  resolved : Bool
  present : Bool
  evaluation : Option (Evaluation Context)

variable {Context : Type} (others : OtherComparisons Context)

def stateProblems (revision : Observation Context) : List Problem :=
  match revision.evaluation with
  | some evaluation => if revision.present && !evaluation.ok then evaluation.problems else []
  | none => []

def comparePair (base target : Option (Evaluation Context)) : List Problem :=
  let baseState := stateOf base
  let targetState := stateOf target
  compareAuthorizationRecords baseState targetState ++ compareRecordSurvival baseState targetState ++
    compareGenesisPreservation base target ++
    (match base, target with
    | some base, some target => compareConsumers others base target
    | _, _ => []) ++
    compareDecisions others baseState targetState ++ compareResolvers base target ++ compareRuleInputs baseState targetState ++
    compareDelivery baseState targetState ++ compareReplacement baseState targetState

/-- What git records of the commit that took a decision. -/
def observeDecision (observeCommit : JsString → Except JsString CommitMetadata) (targetCommit : JsString) (adr : Value) :
    Except JsString DecisionObservation := do
  let metadata ← observeCommit targetCommit
  match read adr "acceptance" with
  | none => .error (units "Cannot read properties of undefined (reading 'decisionDate')")
  | some .null => .error (units "Cannot read properties of null (reading 'decisionDate')")
  | some acceptance =>
    .ok { subject := textOf (read adr "id"), evaluatedRevision := targetCommit, decisionDate := read acceptance "decisionDate", metadata }

/-- The decisions taken between two revisions. -/
def decidedNow (baseState targetState : Value) : List Value :=
  let before := byId (members baseState "adrs")
  (members targetState "adrs").filter fun adr =>
    isText (((textAt adr "id").bind fun id => before.lookup id).bind fun prior => read prior "lifecycle") "Proposed" &&
      !isText (read adr "lifecycle") "Proposed"

def comparePresent (base target : Observation Context) (targetCommit : JsString)
    (observeCommit : JsString → Except JsString CommitMetadata) : Verdict :=
  let problems := comparePair others base.evaluation target.evaluation ++ stateProblems base ++ stateProblems target
  if problems = [] then
    let observed := (decidedNow (stateOf base.evaluation) (stateOf target.evaluation)).map (observeDecision observeCommit targetCommit)
    let failed := observed.filterMap fun result => match result with
      | .error message => some ⟨"ADV-G112", units "$.history", units "committed transition metadata unavailable: " ++ message⟩
      | .ok _ => none
    { ok := failed.isEmpty, problems := failed, comparison := .pairwise, decisionObservations := observed.filterMap Except.toOption }
  else { ok := false, problems, comparison := .pairwise, decisionObservations := [] }

def evaluateHistory (base target : Observation Context) (baseCommit targetCommit : JsString) (ancestry : Ancestry)
    (observeCommit : JsString → Except JsString CommitMetadata) : Verdict :=
  let refusal (problems : List Problem) : Verdict := { ok := false, problems, comparison := .refused, decisionObservations := [] }
  if !base.resolved then
    refusal (refuse true "ADV-G21" (units "$.base")
      "the explicit base did not resolve to a commit; history validation has no fallback to merge-base, HEAD~1, or any inferred revision")
  else if !target.resolved then
    refusal (refuse true "ADV-G21" (units "$.target") "the target revision did not resolve to a commit")
  else if baseCommit = targetCommit then
    refusal (refuse true "ADV-G21" (units "$.base")
      "the explicit base selects the target revision itself; a comparison window that contains no change proves nothing and is refused rather than passed")
  else if !target.present then
    refusal (refuse true "ADV-G34" (units "$")
      "the registry is absent from the target revision; a registry that once existed cannot disappear" ++
      stateProblems base ++ stateProblems target)
  else if !base.present then
    let (admitted, found) := others.genesisException baseCommit target.evaluation ancestry
    let problems := found ++ stateProblems base ++ stateProblems target
    { ok := admitted && problems.isEmpty, problems, comparison := if admitted then .genesis else .refused, decisionObservations := [] }
  else comparePresent others base target targetCommit observeCommit

end Comparison

end SecureHome.Governance
