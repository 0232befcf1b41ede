import SecureHome.Orchestration.Execution

/-! The six phases. Each is the effects performed in one state and says which
transition they earned, or how the run ended instead. -/

namespace SecureHome.Orchestration
open Lifecycle Ports RunState Contracts Core

variable {World : Type} (env : RunEnvironment World)

/-- What a phase concluded, plus whatever it established. -/
inductive PhaseOutcome (Next : Type) where
  | earned (cause : String) (next : Next)
  | terminate (value : RunConclusion)
  | hold (detail : String)

abbrev PhaseCommand := PhaseOutcome Unit

/-- The execution principal: the profile's agent identity, acting for the requester. -/
def executionPrincipal (profileSub : String) (actorRequired : Bool) (requester : Principal) : Except String Principal :=
  let actor : Option String := match requester.acting with
    | .actor sub => some sub
    | .autonomous => if requester.sub.startsWith "human:" then some requester.sub else none
  match actor with
  | none =>
    if actorRequired then
      .error s!"the profile requires an actor and the request names none: {requester.sub} is autonomous"
    else .ok ⟨profileSub, .autonomous⟩
  | some sub => .ok ⟨profileSub, .actor sub⟩

/-- Whether the spend transition may proceed, or what holds the run. -/
def decideSpendGate (runId : String) (consent : Option ConsentRecord) : Option String :=
  match consent with
  | none => some "no consent record for this run; the run holds at ELIGIBLE without spending"
  | some consent =>
    if consent.runId ≠ runId then
      some (s!"the consent record was granted for run {consent.runId}, not {runId}; consent is not transferable " ++
        "between runs")
    else if !consent.granted then
      some s!"consent was recorded by {consent.grantedBy} and withheld; the run holds at ELIGIBLE"
    else none

def EpochFailure.isCaptureRefusal : EpochFailure → Bool
  | .captureRefused _ _ => true
  | _ => false

/-- REQUESTED: establish the run's authority. -/
def requested : Procedure World (PhaseOutcome Authority) := do
  match ← interrupted env.outside with
  | some signal =>
    .terminate <$> terminateEarly env signal.kind s!"run {signal.label}led before authority was acquired"
  | none =>
    match env.request.profileRef with
    | none => .terminate <$> terminateEarly env .refuse "the run request names no execution profile"
    | some wanted =>
      match ← acquire env .production with
      | .error failure =>
        .terminate <$> terminateEarly env (if failure.isCaptureRefusal then .refuse else .operationalFault)
          (describeEpochFailure failure)
      | .ok acquired =>
        match acquired.snapshots.profile with
        | none => .terminate <$> terminateEarly env .refuse "the execution profile did not resolve"
        | some resolved =>
          modifyScope fun scope => { scope with authorityCaptured := true }
          let captured := resolved.value.identity
          -- Capture proves the bytes are a profile, not which one was asked for.
          if captured ≠ wanted then
            .terminate <$> terminateEarly env .refuse
              (s!"the acquired profile is {captured.name}@{captured.version} but the request named " ++
                s!"{wanted.name}@{wanted.version}; a run never executes under a profile it did not request")
          else
            match executionPrincipal resolved.value.principalSub resolved.value.actorRequired env.request.requester with
            | .error detail => .terminate <$> terminateEarly env .refuse detail
            | .ok principal =>
              let generation := (← get).scope.fence.generation
              modify fun attempt => { attempt with sequence := 0 }
              return .earned s!"profile {captured.name}@{captured.version} resolved"
                { snapshots := acquired.snapshots
                  profile := resolved
                  principal
                  adapter := resolved.value.adapter
                  emitter := ⟨⟨env.request.runId, resolved.value.adapter, generation⟩, env.ports⟩ }

/-- PROFILE_RESOLVED: ask the core whether the run may proceed. -/
def profileResolved (authority : Authority) : Procedure World PhaseCommand := do
  let granted := (authority.profile.value.limits.wallClockSeconds : Int)
  armProfile env.outside (boundedDeadlineMs granted granted env.controls.deadlineMs) none
  match ← interrupted env.outside with
  | some signal =>
    .terminate <$> finish env authority noObservations signal.kind s!"run {signal.label}led before eligibility"
      signal.terminal
  | none =>
    match env.core.decideEligibility authority.snapshots env.request.gates with
    | .refusal refusal => .terminate <$> finish env authority noObservations .refuse (describeRefusal refusal) .refused
    | .proceed _ => return .earned "the core decided the run eligible" ()

/-- A terminal on an environmental fault. -/
def fault (authority : Authority) (seen : Observations) (detail : String) : Procedure World RunConclusion :=
  finish env authority seen .operationalFault detail .operationalFailure

/-- The identities a generation asks for its resources under. -/
def workspaceAttempt (runId : String) (fence : RunFence) : String := s!"workspace:{runId}#g{fence.generation}"

def sessionAttempt (runId : String) (fence : RunFence) : String := s!"session:{runId}#g{fence.generation}"

/-- The session half of the spend: prepare, start, narrow the budget. -/
def openSession (authority : Authority) : Procedure World PhaseCommand := do
  let fence := (← get).scope.fence
  let attempt := sessionAttempt env.request.runId fence
  modifyScope fun scope => { scope with sessionAttempt := some attempt }
  let profile := authority.profile
  match ← cross env.outside env.ports (.prepare fence attempt
      ⟨profile.value.identity.name, profile.value.identity.version, profile.digest⟩ profile.value.limits) with
  | .refused stale detail =>
    modifyScope fun scope => { scope with sessionAttempt := none }
    if stale then
      modifyScope (·.loseFence detail)
      .terminate <$> conclude env .none detail
    else .terminate <$> fault env authority noObservations s!"the execution session could not be prepared: {detail}"
  | .ok handle =>
    modifyScope fun scope => { scope with session := some handle, sessionAttempt := none }
    match ← cross env.outside env.ports (.start fence handle.sessionRef) with
    | .refused true detail =>
      modifyScope (·.loseFence detail)
      .terminate <$> conclude env .none detail
    | .refused false detail =>
      .terminate <$> fault env authority noObservations s!"the execution session could not be started: {detail}"
    | .ok =>
      narrowProfile env.outside
        (boundedDeadlineMs profile.value.limits.wallClockSeconds handle.wallClockSeconds env.controls.deadlineMs)
      return .earned (s!"session {handle.sessionRef} started; consent recorded by " ++
        (env.request.consent.map (·.grantedBy)).getD "unknown") ()

/-- ELIGIBLE: consent, then the spend that causes SANDBOX_STARTED. -/
def eligible (authority : Authority) : Procedure World PhaseCommand := do
  match ← interrupted env.outside with
  | some signal =>
    .terminate <$> finish env authority noObservations signal.kind s!"run {signal.label}led before spend" signal.terminal
  | none =>
    match decideSpendGate env.request.runId env.request.consent with
    | some detail =>
      modifyScope fun scope => { scope with held := some detail }
      return .hold detail
    | none =>
      let fence := (← get).scope.fence
      let attempt := workspaceAttempt env.request.runId fence
      -- The identity is recorded before the call: the workspace may exist before any answer.
      modifyScope fun scope => { scope with workspaceAttempt := some attempt }
      match ← cross env.outside env.ports (.provision fence attempt env.request.workspaceRoot) with
      | .refused stale detail =>
        modifyScope fun scope => { scope with workspaceAttempt := none }
        if stale then
          modifyScope (·.loseFence detail)
          .terminate <$> conclude env .none detail
        else
          .terminate <$> fault env authority noObservations s!"the isolated workspace could not be provisioned: {detail}"
      | .ok handle =>
        modifyScope fun scope => { scope with workspace := some handle, workspaceAttempt := none }
        let granted := (authority.profile.value.limits.wallClockSeconds : Int)
        armProfile env.outside (boundedDeadlineMs granted granted env.controls.deadlineMs) env.controls.cancelAfterMs
        openSession env authority

/-- SANDBOX_STARTED: announce the run, then assert the base before the provider. -/
def sandboxStarted (authority : Authority) : Procedure World PhaseCommand := do
  let profile := authority.profile
  match ← emit env authority
      (.runStarted ⟨profile.value.identity.name, profile.value.identity.version, profile.digest⟩) with
  | .refused reason detail => .terminate <$> fault env authority noObservations (emissionFailure reason detail)
  | .ok _ =>
    match ← emit env authority (.capabilityGranted profile.value.capability) with
    | .refused reason detail => .terminate <$> fault env authority noObservations (emissionFailure reason detail)
    | .ok _ =>
      match ← interrupted env.outside with
      | some signal => .terminate <$> abortRun env authority noObservations signal
      | none =>
        match ← cross env.outside env.ports (.observeBase env.request.runId env.request.workspaceRoot) with
        | .failed failure =>
          .terminate <$> fault env authority noObservations
            s!"the workspace base identity could not be observed: {failure}"
        | .ok digest =>
          match env.core.compareBaseIdentity env.request.pinnedBase digest with
          | .refusal refusal =>
            .terminate <$> finish env authority noObservations .refuse (describeRefusal refusal) .refused
          | .proceed _ => return .earned "the workspace base matches; execution may begin" ()

/-- What RUNNING does once the gates have run: observe, and report what was seen. -/
def observeRun (authority : Authority) (operations : EvidenceOperations) (gateResults : GateResults) :
    Procedure World (PhaseOutcome Observations) := do
  let seen : Observations := { operations, gateResults }
  let observation ← cross env.outside env.ports (.observe env.request.runId env.request.workspaceRoot)
  match env.core.deriveAuthoritativeChangeSet observation with
  | .operationalFailure failure => .terminate <$> fault env authority seen failure.detail
  | .refusal refusal => .terminate <$> finish env authority seen .refuse (describeRefusal refusal) .refused
  | .proceed observed =>
    modifyScope fun scope => { scope with terminalEvidence := { scope.terminalEvidence with observed } }
    let artifacts ← cross env.outside env.ports (.observeArtifacts env.request.runId env.request.artifactPaths)
    modifyScope fun scope => { scope with terminalEvidence := { scope.terminalEvidence with artifacts } }
    let observations : Observations := ⟨gateResults, observed, artifacts, operations⟩
    match ← interrupted env.outside with
    | some signal => .terminate <$> abortRun env authority observations signal
    | none => return .earned "independent verification begins" observations

/-- What RUNNING does with an adapter's observation. -/
def recordObservation (authority : Authority) (sessionRef : String) (observation : AdapterObservation) :
    Procedure World (PhaseOutcome Observations) := do
  match env.core.classifyTerminalObservations observation.terminal with
  | .unestablished detail => .terminate <$> finish env authority {} .indeterminate detail .indeterminate
  | .established =>
    match ← recordCalls env authority 0 {} observation.calls with
    | (.error detail, operations) => .terminate <$> fault env authority { operations } detail
    | (.ok (), operations) =>
      match ← emit env authority .adapterCompleted with
      | .refused reason detail => .terminate <$> fault env authority { operations } (emissionFailure reason detail)
      | .ok _ =>
        match authority.snapshots.gateRegistry with
        | none =>
          .terminate <$> fault env authority { operations } "the gate registry snapshot is unavailable at scheduling"
        | some registry =>
          match ← runGates env registry.value sessionRef with
          | .unknownGates detail => .terminate <$> finish env authority { operations } .refuse detail .refused
          | .staleFence detail =>
            modifyScope (·.loseFence detail)
            .terminate <$> conclude env .none detail
          | .faulted detail gateResults => .terminate <$> fault env authority { operations, gateResults } detail
          | .passed gateResults => observeRun env authority operations gateResults

/-- RUNNING: invoke the provider, then observe what happened. -/
def running (authority : Authority) : Procedure World (PhaseOutcome Observations) := do
  let scope := (← get).scope
  let sessionRef := (scope.session.map (·.sessionRef)).getD s!"session:{env.request.runId}"
  match ← emit env authority .adapterStarted with
  | .refused reason detail => .terminate <$> fault env authority {} (emissionFailure reason detail)
  | .ok _ =>
    let profile := authority.profile
    match ← cross env.outside env.ports (.invoke
      { fence := scope.fence
        adapter := authority.adapter
        profile := ⟨profile.value.identity.name, profile.value.identity.version, profile.digest⟩
        input := env.request.input
        grant := profile.value.capability
        routing := profile.value.execution
        limits := profile.value.limits
        credentials := profile.value.capability.credentials
        sessionRef
        rootRef := s!"workspace:{env.request.runId}" }) with
    | .staleFence detail =>
      modifyScope (·.loseFence detail)
      .terminate <$> conclude env .none detail
    | .environmentalFault detail => .terminate <$> fault env authority {} s!"adapter invocation faulted: {detail}"
    | .observed observation => recordObservation env authority sessionRef observation

/-- Abort when the run should stop now, else go on. -/
def unlessInterrupted (authority : Authority) (seen : Observations) (next : Procedure World PhaseCommand) :
    Procedure World PhaseCommand := do
  match ← interrupted env.outside with
  | some signal => .terminate <$> abortRun env authority seen signal
  | none => next

/-- The last effects of a run: apply back, then commit its completion. -/
def completeRun (authority : Authority) (seen : Observations) : Procedure World PhaseCommand :=
  unlessInterrupted env authority seen do
    match ← materialize env authority seen with
    | some ended => return .terminate ended
    | none =>
      unlessInterrupted env authority seen
        (.terminate <$> finish env authority seen .complete "the run completed" .completed)

/-- VERIFYING: re-derive independently, then materialize. -/
def verifying (authority : Authority) (seen : Observations) : Procedure World PhaseCommand :=
  unlessInterrupted env authority seen do
    match ← acquire env .verification with
    | .error failure =>
      .terminate <$> fault env authority seen s!"verification re-acquisition failed: {describeEpochFailure failure}"
    | .ok reacquired =>
      let finishedAt ← clockNow env.outside env.request.runId
      let startedAt := (← get).scope.startedAt
      match assembleEvidence env authority .completed "the run completed" seen ⟨startedAt, finishedAt⟩ with
      | .failed true detail => .terminate <$> finish env authority seen .refuse detail .refused
      | .failed false detail => .terminate <$> fault env authority seen detail
      | .ok candidate _ =>
        let artifacts ← cross env.outside env.ports (.observeArtifacts env.request.runId env.request.artifactPaths)
        unlessInterrupted env authority seen
          (match env.core.verifyEvidence candidate
            ⟨reacquired.valueOf .profile, reacquired.valueOf .pathPolicy, reacquired.valueOf .gateRegistry, artifacts⟩ with
          | .operationalFailure failure => .terminate <$> fault env authority seen failure.detail
          | .failed failures =>
            .terminate <$> finish env authority seen .refuse
              ("verification failed: " ++ String.intercalate "; " failures) .refused
          | .verified _ => completeRun env authority seen)

end SecureHome.Orchestration
