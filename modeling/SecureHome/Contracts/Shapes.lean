import SecureHome.Ports.Values

/-! The authored shapes a run reads and writes: what authority grants, what a run
event says, and the two records a run can leave. -/

namespace SecureHome.Contracts
open Lifecycle

structure ProfileRef where
  name : String
  version : String
  deriving DecidableEq, Repr

structure ProfileIdentity where
  name : String
  version : String
  digest : String
  deriving DecidableEq, Repr

structure AuthorityIdentity where
  contractId : String
  contractVersion : String
  digest : String
  deriving DecidableEq, Repr

inductive MountPosture where
  | readOnly
  | readWrite
  deriving DecidableEq, Repr

structure Mount where
  path : String
  posture : MountPosture
  deriving DecidableEq, Repr

/-- The default posture admits only `deny`, so the grants are all there is. -/
structure Destination where
  host : String
  port : Nat
  deriving DecidableEq, Repr

structure CapabilityGrant where
  tools : List String
  mounts : List Mount
  network : List Destination
  /-- Environment-variable names, never values. -/
  credentials : List String
  deriving DecidableEq, Repr

structure RoutingGroup where
  routingClass : String
  modelRoute : String
  fallback : String
  deriving DecidableEq, Repr

structure SessionLimits where
  wallClockSeconds : Nat
  cpuCores : Rat
  memoryBytes : Nat
  pids : Nat
  outputBytes : Nat
  deriving DecidableEq, Repr

structure ExecutionProfile where
  identity : ProfileRef
  imageDigest : String
  adapter : String
  capability : CapabilityGrant
  execution : RoutingGroup
  limits : SessionLimits
  principalSub : String
  actorRequired : Bool
  deriving DecidableEq, Repr

structure PathPolicy where
  allowedWriteRoots : List String
  /-- The prefixes of the `path_prefix` rules, the one kind there is. -/
  prohibitedPrefixes : List String
  maxFiles : Nat
  maxTotalBytes : Nat
  maxFileBytes : Nat
  deriving DecidableEq, Repr

structure GateSpec where
  executable : String
  args : List String
  timeoutSeconds : Nat
  maxOutputBytes : Nat
  environmentNames : List String
  deriving DecidableEq, Repr

structure GateRegistry where
  gates : List (String × GateSpec)
  deriving DecidableEq, Repr

/-- What a plain object answers to beyond its own keys. -/
def objectPrototypeNames : List String :=
  ["constructor", "hasOwnProperty", "isPrototypeOf", "propertyIsEnumerable", "toLocaleString", "toString", "valueOf",
    "__defineGetter__", "__defineSetter__", "__lookupGetter__", "__lookupSetter__", "__proto__"]

/-- What bracket access finds under a gate's name. -/
inductive GateEntry where
  | declared (spec : GateSpec)
  | inherited (property : String)
  deriving DecidableEq, Repr

def GateRegistry.read (registry : GateRegistry) (gate : String) : Option GateEntry :=
  match registry.gates.lookup gate with
  | some spec => some (.declared spec)
  | none => if gate ∈ objectPrototypeNames then some (.inherited gate) else none

inductive GateDisposition where
  | pass
  | fail
  | skipOk
  | skipEnv
  deriving DecidableEq, Repr

def GateDisposition.label : GateDisposition → String
  | pass => "PASS"
  | fail => "FAIL"
  | skipOk => "SKIP_OK"
  | skipEnv => "SKIP_ENV"

structure GateOutcome where
  disposition : GateDisposition
  truncated : Bool
  reason : Option String
  deriving DecidableEq, Repr

abbrev GateResults := List (String × GateOutcome)

inductive Acting where
  | actor (sub : String)
  | autonomous
  deriving DecidableEq, Repr

structure Principal where
  sub : String
  acting : Acting
  deriving DecidableEq, Repr

/-- The one outcome shape. A completed run carries no failure; every other
outcome carries its detail. -/
inductive RunOutcome where
  | completed
  | refused (detail : String)
  | operationalFailure (detail : String)
  | cancelled (detail : String)
  | timedOut (detail : String)
  | indeterminate (detail : String)
  deriving DecidableEq, Repr

def RunOutcome.terminalState : RunOutcome → LifecycleState
  | completed => .completed
  | refused _ => .refused
  | operationalFailure _ => .operationalFailure
  | cancelled _ => .cancelled
  | timedOut _ => .timedOut
  | indeterminate _ => .indeterminate

inductive CallDisposition where
  | permitted
  | denied
  deriving DecidableEq, Repr

/-- The closed event vocabulary with its payloads. -/
inductive EventBody where
  | runStarted (profile : ProfileIdentity)
  | capabilityGranted (grant : CapabilityGrant)
  | callAttempted (callId name : String)
  | callDisposition (callId : String) (disposition : CallDisposition)
  | adapterStarted
  | adapterCompleted
  | runTerminated (outcome : RunOutcome)
  deriving DecidableEq, Repr

def EventBody.eventType : EventBody → String
  | runStarted _ => "run.started"
  | capabilityGranted _ => "capability.granted"
  | callAttempted _ _ => "call.attempted"
  | callDisposition _ _ => "call.disposition"
  | adapterStarted => "adapter.started"
  | adapterCompleted => "adapter.completed"
  | runTerminated _ => "run.terminated"

structure RunEvent where
  runId : String
  sequence : Nat
  timestamp : String
  adapter : String
  body : EventBody
  deriving DecidableEq, Repr

instance : Ports.Sequenced RunEvent := ⟨RunEvent.sequence⟩

structure EvidenceOperation where
  callId : String
  name : String
  deriving DecidableEq, Repr

structure EvidenceOperations where
  attempted : List EvidenceOperation := []
  permitted : List EvidenceOperation := []
  denied : List EvidenceOperation := []
  deriving DecidableEq, Repr

namespace EvidenceOperations

def attempt (operations : EvidenceOperations) (operation : EvidenceOperation) : EvidenceOperations :=
  { operations with attempted := operations.attempted ++ [operation] }

def dispose (operations : EvidenceOperations) (operation : EvidenceOperation) : CallDisposition → EvidenceOperations
  | .permitted => { operations with permitted := operations.permitted ++ [operation] }
  | .denied => { operations with denied := operations.denied ++ [operation] }

end EvidenceOperations

structure ArtifactEntry where
  path : String
  digest : String
  bytes : Nat
  deriving DecidableEq, Repr

inductive ChangeKind where
  | created
  | modified
  | deleted
  deriving DecidableEq, Repr

structure FileChange where
  path : String
  kind : ChangeKind
  deriving DecidableEq, Repr

structure Disagreement where
  path : String
  detail : String
  deriving DecidableEq, Repr

structure EvidenceTiming where
  startedAt : String
  finishedAt : String
  deriving DecidableEq, Repr

structure EvidenceIdentities where
  runId : String
  profile : ProfileIdentity
  imageDigest : String
  argvDigest : String
  pathPolicy : AuthorityIdentity
  gateRegistry : AuthorityIdentity
  runtime : String
  provider : String
  adapter : String
  deriving DecidableEq, Repr

/-- The sealed record of a run past REQUESTED. -/
structure EvidenceBundle where
  identities : EvidenceIdentities
  principal : Principal
  grantedCapabilities : CapabilityGrant
  operations : EvidenceOperations
  gateResults : GateResults
  artifacts : List ArtifactEntry
  observed : List FileChange
  claimed : List FileChange
  agreement : Bool
  disagreements : List Disagreement
  outcome : RunOutcome
  timing : EvidenceTiming
  deriving DecidableEq, Repr

/-- The record of a run that terminated before its authority was complete. -/
structure EarlyTerminationRecord where
  runId : String
  requester : Principal
  requestedProfile : Option ProfileRef
  outcome : RunOutcome
  timing : EvidenceTiming
  deriving DecidableEq, Repr

end SecureHome.Contracts
