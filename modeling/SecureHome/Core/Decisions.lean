import SecureHome.Contracts.Shapes

/-! The trusted core's decision algebra and the values it decides from. The
decisions themselves are a parameter of the orchestration: it asks and obeys. -/

namespace SecureHome.Core
open Contracts

inductive RefusalCode where
  | missingAuthority
  | invalidAuthority
  | contractMismatch
  | undecidable
  | undeclaredGate
  | duplicateGate
  | baseIdentityMismatch
  | pathOutsideRoots
  | protectedPath
  | pathUndecidable
  | overBound
  | unrecognizedRule
  | claimParse
  | incompleteEvidence
  | inconsistentEvidence
  | sealPrerequisite
  | consumptionDigestMismatch
  deriving DecidableEq, Repr

def RefusalCode.label : RefusalCode → String
  | missingAuthority => "missing_authority"
  | invalidAuthority => "invalid_authority"
  | contractMismatch => "contract_mismatch"
  | undecidable => "undecidable"
  | undeclaredGate => "undeclared_gate"
  | duplicateGate => "duplicate_gate"
  | baseIdentityMismatch => "base_identity_mismatch"
  | pathOutsideRoots => "path_outside_roots"
  | protectedPath => "protected_path"
  | pathUndecidable => "path_undecidable"
  | overBound => "over_bound"
  | unrecognizedRule => "unrecognized_rule"
  | claimParse => "claim_parse"
  | incompleteEvidence => "incomplete_evidence"
  | inconsistentEvidence => "inconsistent_evidence"
  | sealPrerequisite => "seal_prerequisite"
  | consumptionDigestMismatch => "consumption_digest_mismatch"

/-- A refusal names the element it violates, and what was observed of it. -/
structure Refusal where
  code : RefusalCode
  element : String
  observed : Option String
  detail : String
  deriving DecidableEq, Repr

structure OperationalFailure where
  source : String
  detail : String
  deriving DecidableEq, Repr

inductive Decision (Value : Type) where
  | proceed (value : Value)
  | refusal (refusal : Refusal)

/-- A decision over inputs that may carry a reported environmental fault. -/
inductive ObservedDecision (Value : Type) where
  | proceed (value : Value)
  | refusal (refusal : Refusal)
  | operationalFailure (failure : OperationalFailure)

/-- Authority bytes as acquired, or the report that they could not be. -/
inductive AuthorityBytes where
  | ok (source bytes : String)
  | failed (source failure : String)
  deriving DecidableEq, Repr

structure Captured (Document : Type) where
  source : String
  digest : String
  contract : AuthorityIdentity
  value : Document
  deriving DecidableEq, Repr

inductive Capture (Document : Type) where
  | captured (snapshot : Captured Document)
  | refused (refusal : Refusal)
  | faulted (failure : OperationalFailure)

inductive AuthoritySourceName where
  | profile
  | pathPolicy
  | gateRegistry
  deriving DecidableEq, Repr

namespace AuthoritySourceName

def label : AuthoritySourceName → String
  | profile => "profile"
  | pathPolicy => "path_policy"
  | gateRegistry => "gate_registry"

/-- The contract a source is bound to. -/
abbrev Document : AuthoritySourceName → Type
  | profile => ExecutionProfile
  | pathPolicy => PathPolicy
  | gateRegistry => GateRegistry

end AuthoritySourceName

/-- An epoch fails on a refused capture, so a snapshot in here is a captured one. -/
structure AuthoritySnapshots where
  profile : Option (Captured ExecutionProfile) := none
  pathPolicy : Option (Captured PathPolicy) := none
  gateRegistry : Option (Captured GateRegistry) := none
  deriving DecidableEq, Repr

def AuthoritySnapshots.set (snapshots : AuthoritySnapshots) :
    (source : AuthoritySourceName) → Captured source.Document → AuthoritySnapshots
  | .profile, snapshot => { snapshots with profile := some snapshot }
  | .pathPolicy, snapshot => { snapshots with pathPolicy := some snapshot }
  | .gateRegistry, snapshot => { snapshots with gateRegistry := some snapshot }

structure ObservedChange where
  path : String
  kind : ChangeKind
  bytes : Nat
  linkTarget : Option String
  deriving DecidableEq, Repr

inductive WorkspaceObservation where
  | ok (changes : List ObservedChange)
  | failed (failure : String)
  deriving DecidableEq, Repr

structure ObservedArtifact where
  path : String
  content : String
  deriving DecidableEq, Repr

inductive ArtifactObservation where
  | ok (artifacts : List ObservedArtifact)
  | failed (failure : String)
  deriving DecidableEq, Repr

structure AuthoritativeChangeSet where
  changes : List ObservedChange := []
  deriving DecidableEq, Repr

/-- What became of the claim set. An absent one is recorded as absent. -/
inductive ClaimsRecord where
  | present
  | absent
  | malformed
  deriving DecidableEq, Repr

structure Reconciliation where
  agreement : Bool
  claims : ClaimsRecord
  claimed : List FileChange
  disagreements : List Disagreement
  deriving DecidableEq, Repr

/-- What the provider was observed to do at the end, in fields that may disagree. -/
structure TerminalObservations where
  exitCode : Option Int := none
  reportedOutcome : Option String := none
  transcriptTerminal : Option String := none
  signalled : Option String := none
  deriving DecidableEq, Repr

inductive TerminalClassification where
  | established
  | unestablished (detail : String)
  deriving DecidableEq, Repr

structure ConsumedArtifact where
  path : String
  digest : String
  deriving DecidableEq, Repr

inductive VerificationResult where
  | verified (consumed : List ConsumedArtifact)
  | failed (failures : List String)
  | operationalFailure (failure : OperationalFailure)

structure IndependentInputs where
  profile : AuthorityBytes
  pathPolicy : AuthorityBytes
  gateRegistry : AuthorityBytes
  artifacts : ArtifactObservation

structure EvidenceInputs where
  snapshots : AuthoritySnapshots
  runId : String
  imageDigest : String
  argvDigest : String
  runtime : String
  provider : String
  adapter : String
  principal : Principal
  operations : EvidenceOperations
  gateResults : GateResults
  artifacts : ArtifactObservation
  observed : AuthoritativeChangeSet
  reconciliation : Reconciliation
  outcome : RunOutcome
  timing : EvidenceTiming

/-- The decisions the orchestration asks for, the digest, and the three contracts
it validates its own writes against. -/
structure TrustedCore where
  captureAuthority : (source : AuthoritySourceName) → AuthorityBytes → Capture source.Document
  decideEligibility : AuthoritySnapshots → List String → Decision Unit
  compareBaseIdentity : String → String → Decision Unit
  classifyTerminalObservations : TerminalObservations → TerminalClassification
  deriveAuthoritativeChangeSet : WorkspaceObservation → ObservedDecision AuthoritativeChangeSet
  decideMaterialization : Option (Captured PathPolicy) → AuthoritativeChangeSet → List String → Decision Unit
  reconcileClaims : AuthoritativeChangeSet → List FileChange → Reconciliation
  verifyEvidence : EvidenceBundle → IndependentInputs → VerificationResult
  digestOf : String → String
  /-- The issues of a value that fails its contract, as one text. -/
  runEventIssues : RunEvent → Option String
  evidenceBundleIssues : EvidenceBundle → Option String
  earlyTerminationRecordIssues : EarlyTerminationRecord → Option String

/-- Formatting only: a refusal is described as the core returned it. -/
def describeRefusal (refusal : Refusal) : String :=
  s!"{refusal.code.label} on {refusal.element}: {refusal.detail}"

end SecureHome.Core
