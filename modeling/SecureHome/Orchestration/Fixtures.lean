import SecureHome.Core.Terminal
import SecureHome.Orchestration.Runner

/-! A setting a run can be given: the fixture documents, a core that decides over
them, and ports that accept everything but for the faults chosen. -/

namespace SecureHome.Orchestration
open Lifecycle Ports RunState Contracts Core Adapters

def profileDocument : ExecutionProfile :=
  { identity := ⟨"home-status-read", "1.0.0"⟩
    imageDigest := "sha256:aaaaaaaaaaaaaaaaaaaaaaaaaaaaaaaaaaaaaaaaaaaaaaaaaaaaaaaaaaaaaaaa"
    adapter := "copilot-cli"
    capability := ⟨["household.read"], [⟨"/workspace", .readWrite⟩], [], ["RUN_TOKEN"]⟩
    execution := ⟨"R1", "local-default", "refuse"⟩
    limits := ⟨600, 1, 536870912, 128, 1048576⟩
    principalSub := "agent:home-status"
    actorRequired := false }

def policyDocument : PathPolicy := ⟨["packages", "docs"], [".git"], 8, 4096, 1024⟩

def registryDocument : GateRegistry :=
  ⟨[("lint", ⟨"pnpm", ["lint"], 600, 262144, ["PATH"]⟩), ("unit-tests", ⟨"pnpm", ["test"], 900, 262144, ["PATH"]⟩)]⟩

/-- What capturing each document gives, with the digest of its bytes. -/
def documents : (source : AuthoritySourceName) → Captured source.Document
  | .profile =>
    let digest := "sha256:692f876854af554447488f06e4632f7dca18fe6a5ca57e721572cf980860848d"
    ⟨"profile", digest, ⟨"execution-profile", "1.0.0", digest⟩, profileDocument⟩
  | .pathPolicy =>
    let digest := "sha256:6ee7016a280a94ad67c618737bea28ab132da75fd1250e94baeadb6870785b6c"
    ⟨"path_policy", digest, ⟨"path-policy", "2.0.0", digest⟩, policyDocument⟩
  | .gateRegistry =>
    let digest := "sha256:e3dbd3c6e540310c8fd397dec4c8e647e0898db2102d8b0913bfb6b02d3d7c4e"
    ⟨"gate_registry", digest, ⟨"gate-registry", "1.0.0", digest⟩, registryDocument⟩

/-- The core over the fixture documents. Every value put to a contract meets it. -/
def fixtureCore : TrustedCore where
  captureAuthority source
    | .ok _ _ => .captured (documents source)
    | .failed source failure => .faulted ⟨source, s!"acquisition reported failed: {failure}"⟩
  decideEligibility _ gates :=
    match gates.find? fun gate => (registryDocument.read gate).isNone with
    | some gate => .refusal ⟨.undeclaredGate, gate, none, "requested gate identity is absent from the captured registry"⟩
    | none => .proceed ()
  compareBaseIdentity pinned observed :=
    if pinned = observed then .proceed ()
    else .refusal ⟨.baseIdentityMismatch, pinned, some observed,
      "the observed base identity does not match the pinned identity — the workspace is not the declared base"⟩
  classifyTerminalObservations := Core.classifyTerminalObservations
  deriveAuthoritativeChangeSet
    | .ok changes => .proceed ⟨changes⟩
    | .failed failure => .operationalFailure ⟨"workspace", failure⟩
  decideMaterialization _ _ _ := .proceed ()
  reconcileClaims _ claimed := ⟨true, .present, claimed, []⟩
  verifyEvidence _ _ := .verified []
  digestOf _ := emptyArgvDigest
  runEventIssues _ := none
  evidenceBundleIssues _ := none
  earlyTerminationRecordIssues _ := none

def fixtureBase : String := "sha256:bbbbbbbbbbbbbbbbbbbbbbbbbbbbbbbbbbbbbbbbbbbbbbbbbbbbbbbbbbbbbbbb"

def fixtureRequest : RunRequest where
  runId := "run-1"
  requester := ⟨"human:owner", .autonomous⟩
  profileRef := some profileDocument.identity
  input := ⟨"report the household status", []⟩
  gates := []
  workspaceRoot := "/workspace"
  pinnedBase := fixtureBase
  artifactPaths := []
  claimedChanges := []
  consent := some ⟨"run-1", true, "human:owner"⟩

/-- What a port answers when it accepts. A document's bytes are named by its source:
only the core reads them. -/
def accepted : (call : Call) → Answer call
  | .claim .. => .ok 1
  | .abandon .. => ()
  | .renew .. => true
  | .release .. => ()
  | .read _ _ source => .ok source s!"bytes of {source}"
  | .append .. => .ok
  | .emit .. => .ok
  | .write .. => .ok
  | .commit .. => .ok
  | .prepare _ sessionRef _ limits => .ok ⟨sessionRef, limits.wallClockSeconds⟩
  | .start .. => .ok
  | .interrupt .. => .ok
  | .close .. => ⟨true, false⟩
  | .provision _ workspaceRef sourceRef => .ok ⟨workspaceRef, sourceRef⟩
  | .applyBack _ _ changes _ _ => .ok changes.length
  | .discard .. => .ok
  | .observeBase .. => .ok fixtureBase
  | .observe .. => .ok []
  | .observeArtifacts .. => .ok []
  | .runGate .. => .passed
  | .invoke .. => .observed ⟨[], { exitCode := some 0 }⟩

/-- Ports that accept every call, but for what a fault makes of it. Time stands still
and nobody interrupts. -/
def portsWith {World : Type} (fault : (call : Call) → World → Option (Ending (Answer call) × World)) :
    Surroundings World where
  perform call world :=
    match fault call world with
    | some (ending, world) => (⟨[], ending⟩, world)
    | none => (⟨[], .settled (accepted call)⟩, world)
  clockNow _ world := (.ok "2026-01-01T00:00:00.000Z", world)
  dateNow world := (0, world)
  interrupt := none
  randomUUID world := ("00000000-0000-4000-8000-000000000000", world)
  patience := 4

/-- A check of where a run ends. -/
def endsWith {World : Type} (env : RunEnvironment World) (world : World)
    (check : RunConclusion → Attempt World → Bool) : Bool :=
  match run env (unclaimed env.request world) with
  | .ok conclusion last => check conclusion last
  | .error _ _ => false

theorem endsWith_iff {World : Type} {env : RunEnvironment World} {world : World}
    {check : RunConclusion → Attempt World → Bool} :
    endsWith env world check = true ↔
      ∃ conclusion last, run env (unclaimed env.request world) = .ok conclusion last ∧ check conclusion last = true := by
  unfold endsWith
  split
  next conclusion last ran =>
    refine ⟨fun checked => ⟨conclusion, last, ran, checked⟩, ?_⟩
    rintro ⟨_, _, same, checked⟩
    rw [ran] at same
    cases same
    exact checked
  next ran =>
    refine ⟨(fun failed => nomatch failed), ?_⟩
    rintro ⟨_, _, same, _⟩
    rw [ran] at same
    cases same

/-- A run that was computed up to its end, where it meets a check. -/
structure Ended {World : Type} (env : RunEnvironment World) (world : World) (check : RunConclusion → Attempt World → Bool) : Type where
  ends : endsWith env world check = true

end SecureHome.Orchestration
