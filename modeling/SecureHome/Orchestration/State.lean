import SecureHome.Core.Evidence
import SecureHome.Ports.Calls
import SecureHome.RunState.Outbox

/-! What one attempt at a run owns: the request, the typestate of what it has
established, the scope every terminal owner reads, and the log of what it did. -/

namespace SecureHome.Orchestration
open Lifecycle Ports RunState Contracts Core Adapters

structure ConsentRecord where
  runId : String
  granted : Bool
  grantedBy : String
  deriving DecidableEq, Repr

structure RunRequest where
  runId : String
  requester : Principal
  profileRef : Option ProfileRef
  input : RunInput
  gates : List String
  workspaceRoot : String
  pinnedBase : String
  artifactPaths : List String
  claimedChanges : List FileChange
  consent : Option ConsentRecord
  deriving DecidableEq, Repr

/-- A supplied table as its reachable keys: states, then kinds, then targets. -/
abbrev SuppliedTable := List (String × List (String × String))

/-- Composition-time narrowings, never part of a request. -/
structure RunControls where
  transitions : Option SuppliedTable := none
  deadlineMs : Option Int := none
  cancelAfterMs : Option Int := none

structure EventIdentity where
  runId : String
  adapter : String
  generation : Nat
  deriving DecidableEq, Repr

/-- The run's emitter, with the boundary its sink was guarded by. Its sequence is
the attempt's. -/
structure RunEventEmitter where
  identity : EventIdentity
  ports : Boundary
  deriving DecidableEq, Repr

/-- What REQUESTED establishes. Every field is there because the phase earned its
transition. -/
structure Authority where
  snapshots : AuthoritySnapshots
  profile : Captured ExecutionProfile
  principal : Principal
  adapter : String
  emitter : RunEventEmitter

/-- What the run observed. Total: a terminal cannot leave a field out. -/
structure Observations where
  gateResults : GateResults := []
  observed : AuthoritativeChangeSet := {}
  artifacts : ArtifactObservation := .ok []
  operations : EvidenceOperations := {}

/-- Nothing observed yet, which is the true record of a run that changed nothing. -/
def noObservations : Observations := {}

inductive EstablishedRun where
  | requested
  | authorized (authority : Authority)
  | observed (authority : Authority) (observations : Observations)

inductive Produced where
  | none
  | evidenceBundle
  | earlyTerminationRecord
  deriving DecidableEq, Repr

inductive ConclusionKind where
  | terminal
  | settlementFailed
  | held
  | ownershipLost
  | notStarted
  | unterminated
  deriving DecidableEq, Repr

structure RunConclusion where
  runId : String
  kind : ConclusionKind
  state : LifecycleState
  produced : Produced
  /-- The terminal a failed settlement intended. -/
  intendedTerminal : Option LifecycleState := none
  detail : String
  transitions : List TransitionEntry
  rejections : List RejectionEntry
  deriving DecidableEq, Repr

structure RunScope where
  fence : RunFence
  machine : RunMachine
  startedAt : String
  outbox : JournalOutbox
  session : Option SessionHandle := none
  workspace : Option WorkspaceHandle := none
  /-- An acquisition whose outcome is unknown, by the identity it was asked under. -/
  sessionAttempt : Option String := none
  workspaceAttempt : Option String := none
  held : Option String := none
  fenceLost : Option String := none
  authorityCaptured : Bool := false
  established : EstablishedRun := .requested
  terminalEvidence : Observations := {}
  recorded : Produced := .none
  earlyRecord : Option EarlyTerminationRecord := none

namespace RunScope

def loseFence (scope : RunScope) (detail : String) : RunScope :=
  { scope with fenceLost := scope.fenceLost <|> some detail }

/-- A handle is the definitive name of a resource; the attempt's identity is the
fallback while no acknowledgement named it. -/
def workspaceRef (scope : RunScope) : Option String := (scope.workspace.map (·.workspaceRef)) <|> scope.workspaceAttempt

def sessionRef (scope : RunScope) : Option String := (scope.session.map (·.sessionRef)) <|> scope.sessionAttempt

def letGo (scope : RunScope) : RunScope :=
  { scope with workspace := none, session := none, workspaceAttempt := none, sessionAttempt := none }

def drain (scope : RunScope) : RunScope :=
  let drained := scope.outbox.drainMachine scope.machine
  { scope with outbox := drained.1, machine := drained.2 }

def record (scope : RunScope) (fact : JournalFact) : RunScope := { scope with outbox := scope.outbox.record fact }

def landed (scope : RunScope) : RunScope := { scope with outbox := scope.outbox.landed }

end RunScope

structure FinalizationLedger where
  runId : String
  outstanding : Nat := 0
  sealed : Bool := false

namespace FinalizationLedger

def openWrite (ledger : FinalizationLedger) : FinalizationLedger :=
  { ledger with outstanding := ledger.outstanding + 1 }

def close (ledger : FinalizationLedger) : FinalizationLedger := { ledger with outstanding := ledger.outstanding - 1 }

def markSealed (ledger : FinalizationLedger) : FinalizationLedger := { ledger with sealed := true }

/-- Seal order, then seal eligibility. Nothing is written. -/
def prepareSeal (core : TrustedCore) (ledger : FinalizationLedger) (bundle : EvidenceBundle) (outcome : RunOutcome) :
    Except String EvidenceBundle :=
  if ledger.sealed then
    .error s!"already_sealed: run {ledger.runId} is already sealed; a second seal is never written"
  else if 0 < ledger.outstanding then
    .error (s!"outstanding_writes: {ledger.outstanding} write(s) of run {ledger.runId} are still outstanding; " ++
      "the seal is not the final write")
  else
    match decideSealEligibility core bundle outcome with
    | .refusal refusal => .error s!"not_eligible: {refusal.code.label}: {refusal.detail}"
    | .proceed eligible => .ok eligible

end FinalizationLedger

structure RunDeadline where
  startedAt : Nat
  armedUntil : Option Nat := none
  wallClock : Bool := false
  cancelClock : Bool := false
  reason : Option InterruptReason := none

namespace RunDeadline

/-- The first reason wins. -/
def raise (deadline : RunDeadline) (reason : InterruptReason) : RunDeadline :=
  { deadline with reason := deadline.reason <|> some reason }

def disarm (deadline : RunDeadline) : RunDeadline :=
  { deadline with wallClock := false, cancelClock := false, armedUntil := none }

end RunDeadline

/-- What an attempt did, in order. `lost` says whether it already knew then that it
had lost the run, and `ending` what the port did whether or not anyone heard it. -/
inductive Happening where
  | issued (call : Call) (lost : Bool) (ending : Ending (Answer call))
  /-- The boundary was already spent, so the port was never asked. -/
  | barred (call : Call)
  | answered (call : Call) (answer : Answer call)
  | entered (transition : TransitionEntry) (lost : Bool)
  /-- The seal gate was asked whether the walk is durable. -/
  | gated (lost : Bool)
  /-- The attempt was reported as it stood, its settlement unfinished. -/
  | incomplete (scope : RunScope)

/-- How an attempt stood where it made a call. -/
structure Standing (World : Type) where
  call : Call
  world : World
  scope : RunScope
  deadline : RunDeadline
  log : List Happening

/-- Everything an attempt reads and writes. -/
structure Attempt (World : Type) where
  world : World
  scope : RunScope
  ledger : FinalizationLedger
  sequence : Nat := 0
  deadline : RunDeadline
  windows : Nat := 0
  /-- The windows whose own timer has fired. -/
  elapsed : List Nat := []
  log : List Happening := []
  made : List (Standing World) := []

namespace Attempt

variable {World : Type}

/-- Take one transition, or record why not. -/
def advance (kind : TransitionKind) (cause instant : String) (attempt : Attempt World) :
    TransitionResult × Attempt World :=
  let (result, machine) := attempt.scope.machine.advance kind cause instant
  (result,
    { attempt with
      scope := { attempt.scope with machine }
      log := match result with
        | .advanced _ entry => attempt.log ++ [.entered entry attempt.scope.fenceLost.isSome]
        | .rejected _ _ => attempt.log })

def hold (kind : TransitionKind) (detail instant : String) (attempt : Attempt World) : Attempt World :=
  { attempt with scope := { attempt.scope with machine := (attempt.scope.machine.hold kind detail instant).2 } }

def project (steps : List ProjectedStep) (instants : List String) (attempt : Attempt World) :
    Projection × Attempt World :=
  let (projection, machine) := attempt.scope.machine.project steps instants
  (projection, { attempt with scope := { attempt.scope with machine } })

/-- Adopt committed entries verbatim. -/
def adopt (capability : CommitCapability) (attempt : Attempt World) : Except String Unit × Attempt World :=
  let (adopted, machine) := attempt.scope.machine.commitProjected capability
  (adopted,
    { attempt with
      scope := { attempt.scope with machine }
      log := match adopted with
        | .ok () => attempt.log ++ capability.entries.map (.entered · attempt.scope.fenceLost.isSome)
        | .error _ => attempt.log })

/-- Make one call: the port acts on the world, and the log keeps what it did, beside how
the attempt stood. -/
def issue (outside : Surroundings World) (call : Call) (attempt : Attempt World) : Attempt World :=
  { attempt with
    world := (outside.perform call attempt.world).2
    log := attempt.log ++
      [.issued call attempt.scope.fenceLost.isSome (outside.perform call attempt.world).1.ending]
    made := attempt.made ++ [⟨call, attempt.world, attempt.scope, attempt.deadline, attempt.log⟩] }

end Attempt

inductive ControlError where
  | interrupted (reason : InterruptReason)
  | settlementExpired
  deriving DecidableEq, Repr

/-- What unwinds a continuation: the run's own control flow, or a port's fault. -/
inductive Failure where
  | control (error : ControlError)
  | fault (message : String)
  deriving DecidableEq, Repr

def Failure.describe : Failure → String
  | .control (.interrupted reason) => s!"the run was {reason.past}"
  | .control .settlementExpired => "the bounded terminal-settlement window elapsed"
  | .fault message => message

abbrev Procedure (World : Type) := EStateM Failure (Attempt World)

/-- The same for the whole run, except for the boundary the ports are guarded by. -/
structure RunEnvironment (World : Type) where
  outside : Surroundings World
  core : TrustedCore
  request : RunRequest
  controls : RunControls
  ports : Boundary
  commitSignal : Boundary

end SecureHome.Orchestration
