import SecureHome.Orchestration.Acquisition

/-! What a run emits and runs: its events, the provider's calls, the scheduled
gates, and the apply-back the core authorizes. -/

namespace SecureHome.Orchestration
open Lifecycle Ports RunState Contracts Core

variable {World : Type} (env : RunEnvironment World)

inductive EmitReason where
  | contractInvalid
  | sinkFailed
  | staleFence
  deriving DecidableEq, Repr

def EmitReason.label : EmitReason → String
  | contractInvalid => "contract_invalid"
  | sinkFailed => "sink_failed"
  | staleFence => "stale_fence"

inductive EmitOutcome where
  | ok (event : RunEvent)
  | refused (reason : EmitReason) (detail : String)
  deriving DecidableEq, Repr

def emissionFailure (reason : EmitReason) (detail : String) : String :=
  s!"run event could not be emitted ({reason.label}): {detail}"

/-- The emitter's loop. The sequence is allocated before the sink is asked; only a
stale fence gives it back, and an identity another event occupies is walked past. -/
def emitFrom (emitter : RunEventEmitter) (body : EventBody) : Nat → Procedure World EmitOutcome
  | 0 => do
    let error ← modifyGet fun attempt => expire env.outside emitter.ports attempt []
    throw (.control error)
  | patience + 1 => do
    let timestamp ← clockNow env.outside emitter.identity.runId
    let sequence := (← get).sequence
    let event : RunEvent := ⟨emitter.identity.runId, sequence, timestamp, emitter.identity.adapter, body⟩
    match env.core.runEventIssues event with
    | some issues => return .refused .contractInvalid issues
    | none =>
      modify fun attempt => { attempt with sequence := sequence + 1 }
      let emitted : Except String FenceOutcome ← tryCatch (Except.ok <$> cross env.outside emitter.ports
          (.emit ⟨emitter.identity.runId, emitter.identity.generation⟩ event)) fun failure =>
        match failure with
        | .control _ => throw failure
        | .fault message => return Except.error message
      match emitted with
      | .error message => return .refused .sinkFailed message
      | .ok .ok => return .ok event
      | .ok (.refused .conflictingReplay _) => emitFrom emitter body patience
      | .ok (.refused .staleFence detail) =>
        modify fun attempt => { attempt with sequence := sequence }
        return .refused .staleFence detail

/-- Emit one run event, registered with the ledger while it is outstanding. -/
def emit (authority : Authority) (body : EventBody) : Procedure World EmitOutcome := do
  modify fun attempt => { attempt with ledger := attempt.ledger.openWrite }
  tryFinally
    (do
      let outcome ← emitFrom env authority.emitter body (env.outside.patience + 1)
      match outcome with
      | .refused .staleFence detail => modifyScope (·.loseFence detail)
      | _ => pure ()
      return outcome)
    (modify fun attempt => { attempt with ledger := attempt.ledger.close })

/-- `String(index + 1).padStart(4, '0')`, under its prefix. -/
def callId (index : Nat) : String :=
  let digits := toString (index + 1)
  "call-" ++ String.ofList (List.replicate (4 - digits.length) '0') ++ digits

def account (operations : EvidenceOperations) : Procedure World Unit :=
  modifyScope fun scope => { scope with terminalEvidence := { scope.terminalEvidence with operations } }

/-- Record what the provider did. A fact is accounted before its event is
acknowledged; a failure keeps what was recorded. -/
def recordCalls (authority : Authority) :
    Nat → EvidenceOperations → List AdapterCall → Procedure World (Except String Unit × EvidenceOperations)
  | _, operations, [] => return (.ok (), operations)
  | index, operations, call :: rest => do
    let operation : EvidenceOperation := ⟨callId index, call.tool⟩
    let attempted := operations.attempt operation
    account attempted
    match ← emit env authority (.callAttempted (callId index) call.tool) with
    | .refused reason detail => return (.error (emissionFailure reason detail), attempted)
    | .ok _ =>
      let disposed := attempted.dispose operation call.disposition
      account disposed
      match ← emit env authority (.callDisposition (callId index) call.disposition) with
      | .refused reason detail => return (.error (emissionFailure reason detail), disposed)
      | .ok _ => recordCalls authority (index + 1) disposed rest

/-- The plan names only declared gates, or the names that are not. -/
def buildPlan (registry : GateRegistry) (requested : List String) : Except (List String) (List (String × GateEntry)) :=
  let unknown := requested.filter fun gate => (registry.read gate).isNone
  if unknown.isEmpty then .ok (requested.filterMap fun gate => (registry.read gate).map (gate, ·))
  else .error unknown

/-- The single place a report becomes a disposition. -/
def toDisposition : GateReport → Option GateOutcome
  | .passed => some ⟨.pass, false, none⟩
  | .failed reason truncated => some ⟨.fail, truncated, some reason⟩
  | .declaredSkip reason => some ⟨.skipOk, false, some reason⟩
  | .toolchainUnavailable reason => some ⟨.skipEnv, false, some reason⟩
  | .environmentalFault _ => none
  | .staleFence _ => none

structure DispositionRecorder where
  scheduled : List String
  results : GateResults := []

/-- A second disposition for one gate fails closed; the first is preserved. -/
def DispositionRecorder.record (recorder : DispositionRecorder) (gateId : String) (outcome : GateOutcome) :
    Except String DispositionRecorder :=
  if gateId ∉ recorder.scheduled then
    .error s!"{gateId} was not scheduled for this run; an unscheduled result is never recorded"
  else
    match recorder.results.lookup gateId with
    | some existing =>
      .error s!"{gateId} already has the terminal disposition {existing.disposition.label}; the first is preserved"
    | none => .ok { recorder with results := recorder.results ++ [(gateId, outcome)] }

inductive GateRun where
  | passed (results : GateResults)
  | unknownGates (detail : String)
  | faulted (detail : String) (results : GateResults)
  | staleFence (detail : String)

def runPlan (sessionRef : String) : DispositionRecorder → List (String × GateEntry) → Procedure World GateRun
  | recorder, [] => return .passed recorder.results
  | recorder, (gateId, spec) :: rest => do
    match ← cross env.outside env.ports (.runGate (← get).scope.fence gateId spec sessionRef) with
    | .staleFence detail => return .staleFence detail
    | report =>
      match toDisposition report with
      | none =>
        let why := match report with
          | .environmentalFault detail => detail
          | _ => "environmental fault"
        return .faulted s!"gate {gateId} could not be run: {why}" recorder.results
      | some disposition =>
        match recorder.record gateId disposition with
        | .error detail => return .faulted detail recorder.results
        | .ok recorder =>
          modifyScope fun scope =>
            { scope with terminalEvidence := { scope.terminalEvidence with gateResults := recorder.results } }
          runPlan sessionRef recorder rest

def runGates (registry : GateRegistry) (sessionRef : String) : Procedure World GateRun :=
  match buildPlan registry env.request.gates with
  | .error unknown => return .unknownGates ("unknown gate identities: " ++ String.intercalate ", " unknown)
  | .ok plan => runPlan env sessionRef ⟨plan.map (·.1), []⟩ plan

/-- Let the changes leave isolation, or stop. Nothing to apply is no apply-back. -/
def materialize (authority : Authority) (seen : Observations) : Procedure World (Option RunConclusion) := do
  if seen.observed.changes = [] then return none
  else
    let policy := authority.snapshots.pathPolicy
    match env.core.decideMaterialization policy seen.observed
      [(authority.snapshots.profile.map (·.source)).getD "profile", (policy.map (·.source)).getD "path-policy",
        (authority.snapshots.gateRegistry.map (·.source)).getD "gate-registry"] with
    | .refusal refusal => some <$> finish env authority seen .refuse (describeRefusal refusal) .refused
    | .proceed _ =>
      let scope := (← get).scope
      match scope.workspace, policy with
      | some workspace, some policy =>
        match scope.fenceLost with
        | some lost => some <$> conclude env .none lost
        | none =>
          -- Ownership, asked again immediately before the write that escapes.
          if ← cross env.outside env.ports (.renew scope.fence) then
            match ← cross env.outside env.ports (.applyBack scope.fence workspace.workspaceRef seen.observed.changes
                policy.contract.contractId policy.digest) with
            | .ok _ => return none
            | .refused (some .staleFence) detail =>
              modifyScope (·.loseFence detail)
              some <$> conclude env .none detail
            | .refused _ detail =>
              some <$> finish env authority seen .operationalFault s!"apply-back failed: {detail}" .operationalFailure
          else
            let detail := s!"the run lease was lost at generation {scope.fence.generation}; nothing was materialized"
            modifyScope (·.loseFence detail)
            some <$> conclude env .none detail
      | _, _ => return none

end SecureHome.Orchestration
