import SecureHome.Orchestration.Scope

/-! How a run ends. Every path: the conclusion, the early-terminal record, and the
sealed terminal of a run that has authority. -/

namespace SecureHome.Orchestration
open Lifecycle Ports RunState Contracts Core Adapters

variable {World : Type} (env : RunEnvironment World)

/-- The single mapping from a terminal state to its outcome. -/
def outcomeFor (state : LifecycleState) (detail : String) : RunOutcome :=
  match state with
  | .completed => .completed
  | .refused => .refused detail
  | .operationalFailure => .operationalFailure detail
  | .cancelled => .cancelled detail
  | .timedOut => .timedOut detail
  | .indeterminate => .indeterminate detail
  | _ => .indeterminate s!"the run's terminal state could not be established from {state.label}: {detail}"

/-- sha256 of the empty string: the digest of an argv that never ran. -/
def emptyArgvDigest : String := "sha256:e3b0c44298fc1c149afbf4c8996fb92427ae41e4649b934ca495991b7852b855"

inductive AssemblyResult where
  | ok (bundle : EvidenceBundle) (outcome : RunOutcome)
  | failed (refusal : Bool) (detail : String)

/-- Assemble the bundle through the core, keeping which kind of failure it was. -/
def assembleEvidence (authority : Authority) (terminal : LifecycleState) (detail : String) (seen : Observations)
    (timing : EvidenceTiming) : AssemblyResult :=
  match authority.snapshots.profile with
  | none => .failed false "evidence assembly requires the captured execution profile"
  | some profile =>
    let outcome := outcomeFor terminal detail
    match constructEvidence env.core
      { snapshots := authority.snapshots
        runId := env.request.runId
        imageDigest := profile.value.imageDigest
        argvDigest := emptyArgvDigest
        runtime := profile.value.imageDigest
        provider := profile.value.execution.modelRoute
        adapter := authority.adapter
        principal := authority.principal
        operations := seen.operations
        gateResults := seen.gateResults
        artifacts := seen.artifacts
        observed := seen.observed
        reconciliation := env.core.reconcileClaims seen.observed env.request.claimedChanges
        outcome
        timing } with
    | .operationalFailure failure => .failed false s!"{failure.source}: {failure.detail}"
    | .refusal refusal => .failed true (describeRefusal refusal)
    | .proceed bundle => .ok bundle outcome

/-- The record of a run that terminated before its authority was complete. The
requester is the request's, never a captured profile's. -/
def buildEarlyTerminationRecord (state : LifecycleState) (detail : String) (timing : EvidenceTiming) :
    Except String EarlyTerminationRecord :=
  match outcomeFor state detail with
  | .completed => .error "a successful terminal has no early-termination record; the vocabulary omits it"
  | outcome =>
    let candidate : EarlyTerminationRecord :=
      ⟨env.request.runId, env.request.requester, env.request.profileRef, outcome, timing⟩
    match env.core.earlyTerminationRecordIssues candidate with
    | some issues => .error issues
    | none => .ok candidate

/-- What a conclusion may claim of the state the attempt ended in. -/
def conclusionOf (scope : RunScope) (runId : String) (produced : Produced) (detail : String) : RunConclusion :=
  let state := scope.machine.state
  let base : RunConclusion :=
    { runId, kind := .unterminated, state, produced := .none, detail
      transitions := scope.machine.transitionRecord, rejections := scope.machine.rejections }
  match scope.fenceLost with
  | some lost =>
    { base with
      kind := .ownershipLost
      detail := s!"{lost}; no further write was made (this attempt had reached: {detail})" }
  | none =>
    -- The one outbox knows whether the durable walk actually landed.
    if !scope.outbox.isEmpty then
      let missing := "a required durable journal fact is still pending; the conclusion cannot claim a durable " ++
        "record it does not have"
      if isTerminal state then
        { base with kind := .settlementFailed, intendedTerminal := some state, detail := s!"{detail}; {missing}" }
      else { base with detail := s!"{detail}; {missing}" }
    else if isTerminal state then
      if produced = .none then
        { base with
          kind := .settlementFailed
          intendedTerminal := some state
          detail := s!"{detail}; the lifecycle terminal has no governed durable record" }
      else { base with kind := .terminal, produced }
    else { base with kind := if scope.held.getD "" ≠ "" then .held else .unterminated }

/-- Conclude the run: land the walk, let go, and report. -/
def conclude (produced : Produced) (detail : String) : Procedure World RunConclusion := do
  disarm
  let ports ← settlement env.outside
  flushJournal env.outside ports
  -- One more attempt for anything a failed append left pending.
  flushJournal env.outside ports
  release env.outside ports
  return conclusionOf (← get).scope env.request.runId produced detail

/-- The one early record of this attempt, built once and kept for every retry. -/
def earlyRecordOf (detail : String) : Procedure World (Except String EarlyTerminationRecord) := do
  match (← get).scope.earlyRecord with
  | some record => return .ok record
  | none =>
    let finishedAt ← safeNow env.outside env.request.runId
    let scope := (← get).scope
    return buildEarlyTerminationRecord env scope.machine.state detail ⟨scope.startedAt, finishedAt⟩

/-- Write the one early-terminal record of a machine that is already terminal. -/
def writeEarlyTerminalRecord (detail : String) : Procedure World RunConclusion := do
  if (← get).scope.fenceLost.isSome then conclude env .none detail
  else
    match ← earlyRecordOf env detail with
    | .error issues => conclude env .none issues
    | .ok record =>
      modifyScope fun scope => { scope with earlyRecord := some record }
      let fence := (← get).scope.fence
      match ← cross env.outside env.ports
        (.write fence s!"{env.request.runId}#g{fence.generation}#early_termination_record"
          (.earlyTerminationRecord record)) with
      | .ok =>
        modifyScope fun scope => { scope with recorded := .earlyTerminationRecord }
        conclude env .earlyTerminationRecord detail
      | .refused .conflictingReplay refused => conclude env .none refused
      | .refused .staleFence refused =>
        modifyScope (·.loseFence refused)
        conclude env .none detail

/-- Terminate before authority completed. Ownership is asked before the machine is
touched. -/
def terminateEarly (kind : TransitionKind) (detail : String) : Procedure World RunConclusion := do
  if (← get).scope.fenceLost.isSome then conclude env .none detail
  else
    match ← reachTerminal env.outside kind detail with
    | .error refused => conclude env .none s!"{refused}: {detail}"
    | .ok _ => writeEarlyTerminalRecord env detail

/-- The event this emitter would put on a body, without emitting it. -/
def envelope (emitter : RunEventEmitter) (body : EventBody) : Procedure World RunEvent := do
  let timestamp ← safeNow env.outside emitter.identity.runId
  return ⟨emitter.identity.runId, (← get).sequence, timestamp, emitter.identity.adapter, body⟩

def failClosed (why : String) (kind : TransitionKind) : Procedure World RunConclusion := do
  match ← reachTerminal env.outside kind why with
  | .ok _ => conclude env .none why
  | .error refused => conclude env .none s!"{why}; {refused}"

/-- The terminal sequence a finish projects. A completing run takes both transitions. -/
def terminalSequence (kind : TransitionKind) (detail : String) : List ProjectedStep :=
  if kind = .complete then [⟨.sealEvidence, "evidence sealed"⟩, ⟨.complete, detail⟩] else [⟨kind, detail⟩]

/-- What `finish` does with the answer of its commit. -/
def concludeCommit (kind : TransitionKind) (detail : String) (capability : CommitCapability) (committed : CommitOutcome) :
    Procedure World RunConclusion := do
  match committed with
  | .ok =>
    modify fun attempt => { attempt with ledger := attempt.ledger.markSealed }
    adoptCommitted capability
    modifyScope fun scope => { scope with recorded := .evidenceBundle }
    conclude env .evidenceBundle detail
  | .refused (some .staleFence) refused =>
    modifyScope (·.loseFence refused)
    conclude env .none refused
  -- The intended terminal still stands; only its recording failed.
  | .refused (some .attemptExpired) refused | .refused (some .alreadyCommitted) refused =>
    failClosed env refused kind
  | .refused (some .expired) refused => failClosed env refused .timeout
  | .refused _ refused => failClosed env refused .operationalFault

/-- The part of `finish` behind the seal gate: eligibility, then the commit. -/
def sealAndCommit (authority : Authority) (kind : TransitionKind) (detail : String) (terminal : LifecycleState)
    (bundle : EvidenceBundle) (outcome : RunOutcome) (capability : CommitCapability) : Procedure World RunConclusion := do
  match (← get).ledger.prepareSeal env.core bundle outcome with
  | .error refused => failClosed env refused .operationalFault
  | .ok eligible =>
    let event ← envelope env authority.emitter (.runTerminated outcome)
    let fence := (← get).scope.fence
    let committed ← crossCommit env.outside env.ports env.commitSignal
      { fence
        commitId := s!"{env.request.runId}#g{fence.generation}#{terminal.label}"
        intent := ⟨terminal, capability.entries, event, eligible⟩ }
    concludeCommit env kind detail capability committed

/-- Terminate a run that has authority: assemble, make the walk durable, commit. -/
def finish (authority : Authority) (seen : Observations) (kind : TransitionKind) (detail : String)
    (terminal : LifecycleState) : Procedure World RunConclusion := do
  if (← get).scope.fenceLost.isSome then conclude env .none detail
  else
    let finishedAt ← safeNow env.outside env.request.runId
    match assembleEvidence env authority terminal detail seen ⟨(← get).scope.startedAt, finishedAt⟩ with
    | .failed refusal why => failClosed env why (if refusal then .refuse else .operationalFault)
    | .ok bundle outcome =>
      match ← project env.outside (terminalSequence kind detail) with
      | .refused undeclared source =>
        failClosed env
          s!"the machine declares no {undeclared.label} transition from {source.label}; nothing is committed"
          .operationalFault
      | .projected capability =>
        -- The durable record must be complete before the seal.
        flushJournal env.outside env.ports
        tell (.gated (← get).scope.fenceLost.isSome)
        if !(← get).scope.outbox.isEmpty then
          failClosed env
            ("the run walk could not be made durable; an entry is missing from the journal and the seal would " ++
              "describe an incomplete record") .operationalFault
        else sealAndCommit env authority kind detail terminal bundle outcome capability

/-- Stop the session, if there is one, through a boundary of the caller's. Best
effort: a stop that fails must not cost the record. -/
def stopSession (boundary : Procedure World Boundary) (reason : InterruptReason) : Procedure World Unit := do
  let scope := (← get).scope
  match scope.session with
  | none => return ()
  | some session =>
    let ports ← boundary
    swallow (do let _ ← cross env.outside ports (.interrupt scope.fence session.sessionRef reason))

/-- Terminate a run interrupted while work was in flight; the session is stopped first. -/
def abortRun (authority : Authority) (seen : Observations) (reason : InterruptReason) : Procedure World RunConclusion := do
  stopSession env (pure env.ports) reason
  finish env authority seen reason.kind s!"the run was {reason.past} while work was in flight" reason.terminal

end SecureHome.Orchestration
