import SecureHome.Orchestration.Settle

/-! The run engine: claim, walk, conclude. -/

namespace SecureHome.Orchestration
open Lifecycle Ports RunState Core

variable {World : Type} (env : RunEnvironment World)

/-- A phase as data: its effects, and the transition they earn. -/
structure Phase (World : Type) where
  name : String
  earns : TransitionKind
  run : Procedure World PhaseCommand

inductive WalkOutcome where
  | walked
  | terminated (value : RunConclusion)
  | held (detail : String)
  | halted (phase : String) (rejection : RejectionEntry)
  | lost (phase reason : String)

/-- Asked before each phase's effects: what the run already knows, then the lease. -/
def beforePhase (phase : String) : Procedure World (Option String) := do
  let scope := (← get).scope
  match scope.fenceLost with
  | some lost => return some lost
  | none =>
    if ← cross env.outside env.ports (.renew scope.fence) then return none
    else return some s!"the run lease was lost at generation {scope.fence.generation} before {phase}"

/-- The walk engine. A refused transition halts the walk: no later phase runs. -/
def walkPhases : List (Phase World) → Procedure World WalkOutcome
  | [] => return .walked
  | phase :: rest => do
    match ← beforePhase env phase.name with
    | some reason => return .lost phase.name reason
    | none =>
      match ← phase.run with
      | .terminate value => return .terminated value
      | .hold detail =>
        hold env.outside phase.earns detail
        flushJournal env.outside env.ports
        return .held detail
      | .earned cause _ =>
        let applied ← advance env.outside phase.earns cause
        flushJournal env.outside env.ports
        match applied with
        | .rejected _ entry => return .halted phase.name entry
        | .advanced _ _ => walkPhases rest

def establish (established : EstablishedRun) : Procedure World Unit :=
  modifyScope fun scope => { scope with established }

/-- Keep what a phase established where every terminal owner can read it. -/
def establishing {Next : Type} (phase : Procedure World (PhaseOutcome Next)) (established : Next → EstablishedRun) :
    Procedure World PhaseCommand := do
  match ← phase with
  | .terminate value => return .terminate value
  | .hold detail => return .hold detail
  | .earned cause next =>
    establish (established next)
    return .earned cause ()

def outOfOrder (phase : String) : Procedure World PhaseCommand :=
  .terminate <$> terminateEarly env .indeterminate
    s!"the {phase} phase ran before the state it requires was established"

/-- A phase that needs authority receives it, or fails closed. -/
def withAuthority (phase : String) (run : Authority → Procedure World PhaseCommand) : Procedure World PhaseCommand := do
  match (← get).scope.established with
  | .requested => outOfOrder env phase
  | .authorized authority | .observed authority _ => run authority

def phases : List (Phase World) :=
  [⟨"requested", .resolveProfile, establishing (requested env) .authorized⟩,
    ⟨"profile-resolved", .decideEligibility, withAuthority env "profile-resolved" (profileResolved env)⟩,
    ⟨"eligible", .commitSpend, withAuthority env "eligible" (eligible env)⟩,
    ⟨"sandbox-started", .beginExecution, withAuthority env "sandbox-started" (sandboxStarted env)⟩,
    ⟨"running", .beginVerification, withAuthority env "running" fun authority =>
      establishing (running env authority) (.observed authority)⟩,
    ⟨"verifying", .sealEvidence, do
      match (← get).scope.established with
      | .observed authority observations => verifying env authority observations
      | _ => outOfOrder env "verifying"⟩]

/-- The machine refused a transition a phase earned. -/
def terminateFromRejection (phase : String) (rejection : RejectionEntry) : Procedure World RunConclusion := do
  let why := s!"the {phase} phase earned {rejection.attempted.label}, which the machine refused from " ++
    s!"{rejection.state.label}: {rejection.detail}"
  let scope := (← get).scope
  if canConstructEvidence scope.machine.state then
    match scope.established with
    | .requested => terminateEarly env .operationalFault why
    | .authorized authority => finish env authority noObservations .operationalFault why .operationalFailure
    | .observed authority observations => finish env authority observations .operationalFault why .operationalFailure
  else terminateEarly env .operationalFault why

/-- What a walk's outcome makes of the run. -/
def concludeWalk (outcome : WalkOutcome) : Procedure World RunConclusion := do
  match outcome with
  | .terminated value => return value
  | .held detail =>
    let instant ← clockNow env.outside env.request.runId
    modifyScope fun scope => scope.record (.hold ⟨scope.machine.state, "commit_spend", detail, instant⟩)
    flushJournal env.outside env.ports
    conclude env .none detail
  | .lost phase reason =>
    modifyScope (·.loseFence reason)
    release env.outside env.ports
    disarm
    let scope := (← get).scope
    return {
      runId := env.request.runId
      kind := .ownershipLost
      state := scope.machine.state
      produced := .none
      detail := s!"{reason}; the {phase} phase did not run, and no further write was made"
      transitions := scope.machine.transitionRecord
      rejections := scope.machine.rejections }
  | .halted phase rejection => terminateFromRejection env phase rejection
  | .walked => conclude env .none "the walk ended without a terminal commit"

/-- The declared walk. Only an interrupt during the phases is settled here. -/
def walk : Procedure World RunConclusion := do
  let outcome ← tryCatch (Sum.inl <$> walkPhases env (phases env)) fun failure =>
    match failure with
    | .control (.interrupted reason) => return Sum.inr reason
    | failure => throw failure
  match outcome with
  | .inl outcome => concludeWalk env outcome
  | .inr reason => settleInterrupt env reason

def transitionKinds : List TransitionKind :=
  [.resolveProfile, .decideEligibility, .commitSpend, .beginExecution, .beginVerification, .sealEvidence, .complete,
    .refuse, .operationalFault, .cancel, .timeout, .indeterminate]

/-- The states the canonical table has a row for. -/
def declaredStates : List LifecycleState :=
  [.requested, .profileResolved, .eligible, .sandboxStarted, .running, .verifying, .evidenceSealed, .completed]

/-- Check one row: every pair must exist in the canonical table and lead to the same
state. -/
def narrowRow (state : LifecycleState) : List (String × String) → Except String Unit
  | [] => .ok ()
  | (kind, target) :: rest =>
    match (transitionKinds.find? (·.label == kind)).bind (transitions state) with
    | none =>
      .error s!"the table adds transition {kind} from {state.label}, which the lifecycle does not declare"
    | some declared =>
      if declared.label = target then narrowRow state rest
      else .error s!"the table redirects {state.label}.{kind} to {target}; the lifecycle declares {declared.label}"

def narrowRows : SuppliedTable → Except String Unit
  | [] => .ok ()
  | (state, row) :: rest =>
    match declaredStates.find? (·.label == state) with
    | none => .error s!"the table declares state {state}, which the lifecycle does not"
    | some declared => do
      narrowRow declared row
      narrowRows rest

/-- Accept a table only if it is a subset of the canonical one, and materialize it. -/
def narrowingOnly : Option SuppliedTable → Except String TransitionTable
  | none => .ok transitions
  | some supplied => do
    narrowRows supplied
    return fun state kind =>
      if ((supplied.lookup state.label).bind (·.lookup kind.label)).isSome then transitions state kind else none

theorem narrowingOnly_narrows {supplied : Option SuppliedTable} {table : TransitionTable}
    (accepted : narrowingOnly supplied = .ok table) : Narrows table := by
  unfold narrowingOnly at accepted
  split at accepted
  · cases accepted
    exact Narrows.canonical
  next rows =>
    cases checked : narrowRows rows with
    | error detail => rw [checked] at accepted; cases accepted
    | ok _ =>
      rw [checked] at accepted
      cases accepted
      intro state kind next declared
      dsimp only at declared
      split at declared
      · exact declared
      · cases declared

/-- The run of an attempt that owns its run. -/
def walkOwned (generation : Nat) : Procedure World RunConclusion := do
  let runId := env.request.runId
  let table := narrowingOnly env.controls.transitions
  let startedAt ← safeNow env.outside runId
  modifyScope fun _ =>
    { fence := ⟨runId, generation⟩
      machine := { runId, table := match table with | .ok table => table | .error _ => transitions }
      startedAt
      outbox := ⟨s!"{runId}#g{generation}", [], 0⟩ }
  match table with
  | .error detail => recoverRun env s!"the supplied transition table widens lifecycle authority: {detail}"
  | .ok _ =>
    tryCatch (walk env) fun failure =>
      recoverRun env s!"the run's terminal state could not be established: {failure.describe}"

/-- A run that never started: no state, no record, no walk. -/
def unstarted (runId detail : String) : RunConclusion :=
  { runId, kind := .notStarted, state := .requested, produced := .none, detail, transitions := [], rejections := [] }

/-- The lease's answer, or how asking for it failed. -/
def claiming (attemptId : String) : Procedure World (Except Failure LeaseClaim) :=
  tryCatch (Except.ok <$> cross env.outside .run (.claim env.request.runId attemptId)) fun failure =>
    return Except.error failure

/-- Tell the lease that an attempt this caller can no longer await is over. -/
def abandonClaim (attemptId : String) : Procedure World Unit := do
  let ports ← settlement env.outside
  swallow (do let _ ← cross env.outside ports (.abandon env.request.runId attemptId))

def releaseLease (generation : Nat) : Procedure World Unit :=
  swallow do
    let ports ← settlement env.outside
    let _ ← cross env.outside ports (.release ⟨env.request.runId, generation⟩)

/-- Orchestrate one run: one owner before anything else, and its lease given back
however the walk ends. -/
def run : Procedure World RunConclusion := do
  let runId := env.request.runId
  let startedAt ← consult env.outside.dateNow
  modifyDeadline fun deadline => { deadline with startedAt }
  armAcquisition env.outside (min (env.controls.deadlineMs.getD acquisitionBudgetMs) acquisitionBudgetMs)
  let attemptId := s!"{runId}:{← consult env.outside.randomUUID}"
  match ← claiming env attemptId with
  | .error failure =>
    disarm
    abandonClaim env attemptId
    match failure with
    | .control (.interrupted reason) =>
      return unstarted runId s!"the run was {reason.past} before the lease could be claimed"
    | failure => return unstarted runId s!"the run lease could not be claimed: {failure.describe}"
  | .ok (.refused detail) =>
    disarm
    return unstarted runId s!"this run is owned elsewhere: {detail} (lease not acquired)"
  | .ok (.ok generation) => tryFinally (walkOwned env generation) (releaseLease env generation)

/-- The environment of a run: its ports are guarded by the run's own deadline. -/
def environment (outside : Surroundings World) (core : TrustedCore) (request : RunRequest) (controls : RunControls) :
    RunEnvironment World :=
  ⟨outside, core, request, controls, .run, .run⟩

/-- An attempt before its claim: there is no scope yet, so a blank one stands for it. -/
def unclaimed (request : RunRequest) (world : World) : Attempt World :=
  { world
    scope :=
      { fence := ⟨request.runId, 0⟩
        machine := { runId := request.runId }
        startedAt := ""
        outbox := ⟨"", [], 0⟩ }
    ledger := { runId := request.runId }
    deadline := { startedAt := 0 } }

end SecureHome.Orchestration
