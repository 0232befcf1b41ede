import SecureHome.Governance.Projections

/-! The state document, rendered from the registry and from what is derived of it: its
decisions, its questions, the program, and the consumer inventories. -/

namespace SecureHome.Governance
open Lib

section Projected

variable (derived : Derived) (state : Value)

def projectedAdr (adr : Value) : ProjectedAdr where
  id := textOf (read adr "id")
  lifecycle := textOf (read adr "lifecycle")
  decisionDate := (orElse (readIn (read adr "acceptance") "decisionDate") none).map stringOf
  resolves := (members adr "resolves").map stringOf

def projectedQuestion (question : Value) : ProjectedQuestion where
  id := textOf (read question "id")
  title := textOf (read question "title")
  severity := textOf (read question "severity")

def answerOf (question : Question) : DerivedAnswer where
  resolved := question.resolved
  resolver := question.resolver
  resolvedOn := (orElse question.resolvedOn none).map stringOf

structure ProjectedGate where
  id : JsString
  satisfied : Bool
  deriving DecidableEq, Repr

structure ProjectedLanding where
  id : JsString
  kind : JsString
  lifecycle : JsString
  readiness : Option (Bool × List JsString)
  deriving DecidableEq, Repr

def projectedGate (gate : Value) : ProjectedGate where
  id := textOf (read gate "id")
  satisfied := (derived.gates.lookup (textOf (read gate "id"))).any (·.satisfied)

def projectedLanding (landing : Value) : ProjectedLanding where
  id := textOf (read landing "id")
  kind := textOf (read landing "kind")
  lifecycle := textOf (readIn (read landing "delivery") "lifecycle")
  readiness := (derived.readiness.lookup (textOf (read landing "id"))).map fun readiness => (readiness.ready, readiness.unsatisfied)

structure HistoricalContext where
  programMaterialization : JsString
  originalRatifiedDag : JsString
  sourceConflictDisposition : JsString
  deriving DecidableEq, Repr

/-- What the evaluation takes over from its context. -/
structure Annex where
  historicalContext : Option HistoricalContext
  consumerCounts : Option (List (JsString × Nat))
  genesisConsumerCounts : Option (List (JsString × Nat))
  deriving DecidableEq, Repr

structure ProjectedProgram where
  gates : List ProjectedGate
  landings : List ProjectedLanding
  annex : Annex

def projectedState (stateDocument : JsString) : ProjectedState where
  adrs := (members state "adrs").map projectedAdr
  questions := (members state "questions").map projectedQuestion
  answers := fun id => (derived.questions.lookup id).map answerOf
  stateDocument := stateDocument

def projectedProgram (annex : Annex) : ProjectedProgram where
  gates := (members state "gates").map (projectedGate derived)
  landings := (members state "landings").map (projectedLanding derived)
  annex := annex

end Projected

section Document

def gateRow (gate : ProjectedGate) : JsString :=
  units "| " ++ cell gate.id ++ units " | gate | — | " ++ units (if gate.satisfied then "Satisfied" else "Unsatisfied") ++ units " | — |"

def readinessText (ready : Bool) : JsString := units (if ready then "Ready" else "NotReady")

def landingRow (landing : ProjectedLanding) : JsString :=
  let unsatisfied := sortedByText id ((landing.readiness.map Prod.snd).getD [])
  units "| " ++ cell landing.id ++ units " | " ++ cell landing.kind ++ units " | " ++ cell landing.lifecycle ++ units " | " ++
    cell ((landing.readiness.map fun readiness => readinessText readiness.1).getD dash) ++ units " | " ++
    (if unsatisfied = [] then dash else cell (joinedBy ", " unsatisfied)) ++ units " |"

def programRows (program : ProjectedProgram) : List JsString :=
  [units "| Node | Kind | Delivery | Readiness | Unsatisfied |", units "| --- | --- | --- | --- | --- |"] ++
    (sortedByText (·.id) program.gates).map gateRow ++ (sortedByText (·.id) program.landings).map landingRow

def contextLines (annex : Annex) : List JsString :=
  match annex.historicalContext with
  | none => []
  | some context => [[], units "## Historical program context", [], context.programMaterialization, [], context.originalRatifiedDag, [],
      context.sourceConflictDisposition]

def countRow (entry : JsString × Nat) : JsString := units "| " ++ cell entry.1 ++ units " | " ++ units (toString entry.2) ++ units " |"

def inventoryRows (counts : List (JsString × Nat)) : List JsString :=
  [units "| Disposition | Count |", units "| --- | --- |"] ++ counts.map countRow

/-- The frozen inventory, and the current one where they differ. -/
def inventories (annex : Annex) : List (String × List (JsString × Nat)) :=
  match annex.consumerCounts with
  | none => []
  | some counts =>
    match annex.genesisConsumerCounts with
    | none => [("## Frozen migration inventory", counts)]
    | some genesis =>
      ("## Frozen migration inventory", genesis) ::
        if counts.any fun entry => genesis.lookup entry.1 ≠ some entry.2 then [("## Current consumer inventory", counts)] else []

def renderStateDocument (state : ProjectedState) (program : ProjectedProgram) : JsString :=
  joinedBy "\n" ([units "# Governance state", [], units "Generated from `governance/state.json`. Do not edit by hand.", [],
      units "## Decisions", [], renderDecisionLifecycle state, [], units "## Questions", [], renderQuestionSummary state, [],
      units "## Program", []] ++ programRows program ++ contextLines program.annex ++
    ((inventories program.annex).flatMap fun (heading, counts) => [[], units heading, []] ++ inventoryRows counts) ++ [[]])

end Document

end SecureHome.Governance
