import SecureHome.Core.Capture
import SecureHome.Core.Primitives

/-! Independent verification. The expectation is derived from authority bytes and an
artifact observation of the verifier's own, and the bundle is the thing under test. -/

namespace SecureHome.Core
open Contracts

/-- One character of a JSON string text. -/
def jsonEscape (character : Char) : List Char :=
  let hexDigits (number : Nat) : List Char := [Nat.digitChar (number / 16), Nat.digitChar (number % 16)]
  if character = '"' then ['\\', '"']
  else if character = '\\' then ['\\', '\\']
  else if character.toNat = 8 then ['\\', 'b']
  else if character.toNat = 9 then ['\\', 't']
  else if character.toNat = 10 then ['\\', 'n']
  else if character.toNat = 12 then ['\\', 'f']
  else if character.toNat = 13 then ['\\', 'r']
  else if character.toNat < 32 then ['\\', 'u', '0', '0'] ++ hexDigits character.toNat
  else [character]

/-- `JSON.stringify` of a text. -/
def stringify (text : String) : String := String.ofList ('"' :: text.toList.flatMap jsonEscape ++ ['"'])

/-- The fields of an identity that diverge, each recorded and derived. -/
def identityDiverges (name : String) (fields : List (String × String × String)) : List String :=
  fields.filterMap fun (field, recorded, expected) =>
    if recorded ≠ expected then
      some (s!"{name} identity diverges on {field}: bundle records {stringify recorded}, " ++
        s!"independent capture derives {stringify expected}")
    else none

/-- The digest a bundle records for a path. -/
def recordedDigest (bundle : EvidenceBundle) (path : String) : Option String :=
  (bundle.artifacts.reverse.find? (·.path = path)).map (·.digest)

/-- The first artifact whose digest contradicts an earlier one of its path. -/
def contradiction (byPath : String → Option String) : List ArtifactEntry → Option String
  | [] => none
  | artifact :: rest =>
    match byPath artifact.path with
    | some previous =>
      if previous ≠ artifact.digest then
        some s!"bundle carries two irreconcilable digests for \"{artifact.path}\": {previous} and {artifact.digest}"
      else contradiction (Function.update byPath artifact.path (some artifact.digest)) rest
    | none => contradiction (Function.update byPath artifact.path (some artifact.digest)) rest

section Verify

variable {Json : Type} (core : TrustedCore) (schemas : AuthoritySchemas Json)

/-- What an independent capture finds wrong with the recorded identity of its source. -/
def recapture (name : String) (source : AuthoritySourceName) (input : AuthorityBytes)
    (fields : Captured source.Document → List (String × String × String)) : Except OperationalFailure (List String) :=
  match captureAuthority core.digestOf schemas source input with
  | .faulted fault => .error fault
  | .refused refusal =>
    .ok [s!"independent capture of {name} refused: {refusal.detail} — expectation cannot be derived"]
  | .captured snapshot => .ok (identityDiverges name (fields snapshot))

def profileFields (recorded : ProfileIdentity) (captured : Captured ExecutionProfile) : List (String × String × String) :=
  [("name", recorded.name, captured.value.identity.name), ("version", recorded.version, captured.value.identity.version),
    ("digest", recorded.digest, captured.digest)]

def contractFields {Document : Type} (recorded : AuthorityIdentity) (captured : Captured Document) :
    List (String × String × String) :=
  [("contract_id", recorded.contractId, captured.contract.contractId),
    ("contract_version", recorded.contractVersion, captured.contract.contractVersion),
    ("digest", recorded.digest, captured.contract.digest)]

/-- The identities, profile first. A fault ends the comparison. -/
def recaptured (identities : EvidenceIdentities) (independent : IndependentInputs) :
    Except OperationalFailure (List String) := do
  let profile ← recapture core schemas "profile" .profile independent.profile (profileFields identities.profile)
  let policy ← recapture core schemas "path-policy" .pathPolicy independent.pathPolicy (contractFields identities.pathPolicy)
  let registry ← recapture core schemas "gate-registry" .gateRegistry independent.gateRegistry
    (contractFields identities.gateRegistry)
  return profile ++ policy ++ registry

/-- An observed artifact as the bundle accounts for it, or what fails about it. -/
def accounted (bundle : EvidenceBundle) (artifact : ObservedArtifact) : Except String ConsumedArtifact :=
  match normalizePath artifact.path with
  | .error reason => .error s!"observed artifact path cannot be normalized: \"{artifact.path}\" ({reason})"
  | .ok path =>
    let recomputed := core.digestOf artifact.content
    match recordedDigest bundle path with
    | none => .error (s!"unaccounted artifact on the observed surface: \"{path}\" is absent from the bundle " ++
        "— never ignored as immaterial")
    | some recorded =>
      if recorded ≠ recomputed then
        .error (s!"artifact digest diverges for \"{path}\": bundle records {recorded}, " ++
          s!"recomputation derives {recomputed}")
      else .ok ⟨path, recomputed⟩

/-- A path of the bundle that no observed artifact normalizes to. -/
def missingArtifact (observed : List ObservedArtifact) (path : String) : Option String :=
  if observed.any fun artifact => normalizePath artifact.path = .ok path then none
  else some s!"bundle names artifact \"{path}\" but it is missing from the observed surface"

def surfaceFailures (bundle : EvidenceBundle) (observed : List ObservedArtifact) : List String :=
  observed.filterMap (fun artifact =>
      match accounted core bundle artifact with
      | .error failure => some failure
      | .ok _ => none) ++
    (bundle.artifacts.map (·.path)).eraseDups.filterMap (missingArtifact observed)

def verifyEvidence (claimedBundle : Option EvidenceBundle) (independent : IndependentInputs) : VerificationResult :=
  match independent.artifacts with
  | .failed failure => .operationalFailure ⟨"artifact surface",
      s!"observation reported failed: {failure} — not verified, and no contract decision is claimed"⟩
  | .ok observed =>
    match claimedBundle with
    | none => .failed ["evidence bundle is absent"]
    | some bundle =>
      match core.evidenceBundleIssues bundle with
      | some issues => .failed [s!"evidence bundle fails contract validation: {issues}"]
      | none =>
        match contradiction (fun _ => none) bundle.artifacts with
        | some failure => .failed [failure]
        | none =>
          match recaptured core schemas bundle.identities independent with
          | .error fault => .operationalFailure fault
          | .ok (failure :: failures) => .failed (failure :: failures)
          | .ok [] =>
            match surfaceFailures core bundle observed with
            | failure :: failures => .failed (failure :: failures)
            | [] => .verified (observed.filterMap fun artifact => (accounted core bundle artifact).toOption)

end Verify

end SecureHome.Core
