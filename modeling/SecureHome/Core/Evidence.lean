import SecureHome.Core.Decisions
import SecureHome.Core.Primitives

/-! Evidence construction and seal eligibility: the bundle is made of authoritative
inputs, and what is sealed says the outcome the run ended with. -/

namespace SecureHome.Core
open Contracts

/-- The artifact entries, or the path that has no normal form and why. -/
def artifactEntries (core : TrustedCore) : List ObservedArtifact → Except (String × String) (List ArtifactEntry)
  | [] => .ok []
  | artifact :: rest =>
    match normalizePath artifact.path with
    | .error reason => .error (artifact.path, reason)
    | .ok path => do
      let entries ← artifactEntries core rest
      return ⟨path, core.digestOf artifact.content, artifact.content.utf8ByteSize⟩ :: entries

/-- Whether a success would be claimed over a change set the policy refuses. -/
def boundRefusal (core : TrustedCore) (inputs : EvidenceInputs) (sources : List String) : Option Refusal :=
  if inputs.outcome.terminalState = .completed then
    match core.decideMaterialization inputs.snapshots.pathPolicy inputs.observed sources with
    | .refusal refusal => some refusal
    | .proceed _ => none
  else none

def bundleOf (inputs : EvidenceInputs) (profile : Captured ExecutionProfile) (policy : Captured PathPolicy)
    (registry : Captured GateRegistry) (artifacts : List ArtifactEntry) : EvidenceBundle :=
  { identities :=
      { runId := inputs.runId
        profile := ⟨profile.value.identity.name, profile.value.identity.version, profile.digest⟩
        imageDigest := inputs.imageDigest
        argvDigest := inputs.argvDigest
        pathPolicy := policy.contract
        gateRegistry := registry.contract
        runtime := inputs.runtime
        provider := inputs.provider
        adapter := inputs.adapter }
    principal := inputs.principal
    grantedCapabilities := profile.value.capability
    operations := inputs.operations
    gateResults := inputs.gateResults
    artifacts := canonicalSort artifacts (·.path)
    observed := inputs.observed.changes.map fun change => ⟨change.path, change.kind⟩
    claimed := inputs.reconciliation.claimed
    agreement := inputs.reconciliation.agreement
    disagreements := inputs.reconciliation.disagreements
    outcome := inputs.outcome
    timing := inputs.timing }

/-- Construct the bundle, or refuse without a partial one. -/
def constructEvidence (core : TrustedCore) (inputs : EvidenceInputs) : ObservedDecision EvidenceBundle :=
  let missing (element : String) : ObservedDecision EvidenceBundle := .refusal ⟨.missingAuthority, element, none,
    s!"evidence construction requires the captured {element}; no partial bundle is returned"⟩
  match inputs.snapshots.profile, inputs.snapshots.pathPolicy, inputs.snapshots.gateRegistry with
  | none, _, _ => missing "execution-profile"
  | some _, none, _ => missing "path-policy"
  | some _, some _, none => missing "gate-registry"
  | some profile, some policy, some registry =>
    match inputs.artifacts with
    | .failed failure => .operationalFailure ⟨"artifact surface",
        s!"observation reported failed: {failure} — evidence cannot claim an artifact set it could not observe"⟩
    | .ok artifacts =>
      match boundRefusal core inputs [profile.source, policy.source, registry.source] with
      | some refusal => .refusal refusal
      | none =>
        match artifactEntries core artifacts with
        | .error (path, reason) =>
          .refusal ⟨.pathUndecidable, path, none, s!"artifact path cannot be normalized: {reason}"⟩
        | .ok entries =>
          let bundle := bundleOf inputs profile policy registry entries
          match core.evidenceBundleIssues bundle with
          | some issues => .refusal ⟨.incompleteEvidence, "evidence-bundle", none,
              s!"constructed evidence fails its own contract: {issues} — no partial bundle is returned"⟩
          | none => .proceed bundle

/-- A constructed bundle is made of its inputs, under a complete capture. -/
theorem constructEvidence_proceed {core : TrustedCore} {inputs : EvidenceInputs} {bundle : EvidenceBundle}
    (proceeds : constructEvidence core inputs = .proceed bundle) :
    ∃ profile policy registry entries, inputs.snapshots.profile = some profile ∧
      inputs.snapshots.pathPolicy = some policy ∧ inputs.snapshots.gateRegistry = some registry ∧
      bundle = bundleOf inputs profile policy registry entries ∧ core.evidenceBundleIssues bundle = none := by
  unfold constructEvidence at proceeds
  dsimp only at proceeds
  split at proceeds
  · cases proceeds
  · cases proceeds
  · cases proceeds
  next profile policy registry captured allowed declared =>
    split at proceeds
    · cases proceeds
    · split at proceeds
      · cases proceeds
      · split at proceeds
        · cases proceeds
        next entries _ =>
          split at proceeds
          · cases proceeds
          next valid =>
            cases proceeds
            exact ⟨profile, policy, registry, entries, captured, allowed, declared, rfl, valid⟩

/-- Whether a bundle may be sealed for an outcome. A decision only. -/
def decideSealEligibility (core : TrustedCore) (bundle : EvidenceBundle) (outcome : RunOutcome) :
    Decision EvidenceBundle :=
  match core.evidenceBundleIssues bundle with
  | some _ => .refusal ⟨.sealPrerequisite, "evidence_bundle", none,
      "the evidence bundle fails contract validation; an invalid bundle is never seal-eligible"⟩
  | none =>
    if bundle.outcome = outcome then .proceed bundle
    else .refusal ⟨.inconsistentEvidence, "outcome_consistency", some (outcome.terminalState.label),
      s!"the bundle records terminal state \"{bundle.outcome.terminalState.label}\" but the run outcome is " ++
        s!"\"{outcome.terminalState.label}\" — irreconcilable"⟩

/-- A sealed bundle says the outcome it was sealed for, and is the bundle offered. -/
theorem decideSealEligibility_proceed {core : TrustedCore} {bundle eligible : EvidenceBundle} {outcome : RunOutcome}
    (proceeds : decideSealEligibility core bundle outcome = .proceed eligible) :
    eligible = bundle ∧ bundle.outcome = outcome ∧ core.evidenceBundleIssues bundle = none := by
  unfold decideSealEligibility at proceeds
  split at proceeds
  · cases proceeds
  next valid =>
    split at proceeds
    next same => exact ⟨by cases proceeds; rfl, same, valid⟩
    · cases proceeds

end SecureHome.Core
