import SecureHome.Core.Evidence
import SecureHome.Core.Verify
import SecureHome.Orchestration.Fixtures
import Mathlib.Logic.Equiv.Basic

/-! What a verifier accepts: bundles whose identities and artifacts are those it derives
itself, and no others. -/

namespace SecureHome.Core
open Contracts

/-- A normalized path and the content observed under it. -/
def Carries (artifacts : List ObservedArtifact) (path content : String) : Prop :=
  ∃ artifact ∈ artifacts, normalizePath artifact.path = .ok path ∧ artifact.content = content

/-- Equal normalized paths carry equal contents. -/
def SingleContent (artifacts : List ObservedArtifact) : Prop :=
  ∀ path one other, Carries artifacts path one → Carries artifacts path other → one = other

/-- Every observed artifact has its pair, and the pairs are the produced ones. -/
structure SameArtifacts (produced observed : List ObservedArtifact) : Prop where
  normal : ∀ artifact ∈ observed, ∃ path, normalizePath artifact.path = .ok path
  pairs : ∀ path content, Carries observed path content ↔ Carries produced path content

section Untampered

variable {Json : Type} (core : TrustedCore) (schemas : AuthoritySchemas Json)

/-- The independent captures are of the identities the producer's snapshots have. -/
structure SameIdentities (snapshots : AuthoritySnapshots) (independent : IndependentInputs) : Prop where
  profile : ∃ captured produced, captureAuthority core.digestOf schemas .profile independent.profile = .captured captured ∧
    snapshots.profile = some produced ∧ captured.value.identity = produced.value.identity ∧ captured.digest = produced.digest
  policy : ∃ captured produced, captureAuthority core.digestOf schemas .pathPolicy independent.pathPolicy = .captured captured ∧
    snapshots.pathPolicy = some produced ∧ captured.contract = produced.contract
  registry : ∃ captured produced,
    captureAuthority core.digestOf schemas .gateRegistry independent.gateRegistry = .captured captured ∧
      snapshots.gateRegistry = some produced ∧ captured.contract = produced.contract

/-- What was produced is what is derived independently. -/
def Untampered (inputs : EvidenceInputs) (independent : IndependentInputs) : Prop :=
  SameIdentities core schemas inputs.snapshots independent ∧
    ∃ produced observed, inputs.artifacts = .ok produced ∧ independent.artifacts = .ok observed ∧
      SameArtifacts produced observed

end Untampered

/-- One digest a path. -/
def SingleDigest (bundle : EvidenceBundle) : Prop :=
  ∀ one ∈ bundle.artifacts, ∀ other ∈ bundle.artifacts, one.path = other.path → one.digest = other.digest

section Bundle

variable {core : TrustedCore} {bundle : EvidenceBundle}

theorem contradiction_none {byPath : String → Option String} {artifacts : List ArtifactEntry} :
    contradiction byPath artifacts = none ↔
      (∀ entry ∈ artifacts, ∀ digest, byPath entry.path = some digest → digest = entry.digest) ∧
        ∀ one ∈ artifacts, ∀ other ∈ artifacts, one.path = other.path → one.digest = other.digest := by
  induction artifacts generalizing byPath with
  | nil => simp [contradiction]
  | cons first rest ih =>
    have onward : contradiction (Function.update byPath first.path (some first.digest)) rest = none ↔
        (∀ entry ∈ rest, entry.path = first.path → entry.digest = first.digest) ∧
          (∀ entry ∈ rest, entry.path ≠ first.path → ∀ digest, byPath entry.path = some digest → digest = entry.digest) ∧
          ∀ one ∈ rest, ∀ other ∈ rest, one.path = other.path → one.digest = other.digest := by
      rw [ih, ← and_assoc]
      refine and_congr_left fun _ => ⟨fun held => ⟨fun entry member same => ?_, fun entry member differs digest found => ?_⟩,
        fun held entry member digest found => ?_⟩
      · exact (held entry member first.digest (by rw [same, Function.update_self])).symm
      · exact held entry member digest (by rw [Function.update_of_ne differs, found])
      · by_cases same : entry.path = first.path
        · rw [same, Function.update_self] at found
          cases found
          exact (held.1 entry member same).symm
        · rw [Function.update_of_ne same] at found
          exact held.2 entry member same digest found
    have heads : contradiction byPath (first :: rest) = none ↔
        (∀ digest, byPath first.path = some digest → digest = first.digest) ∧
          contradiction (Function.update byPath first.path (some first.digest)) rest = none := by
      rw [contradiction]
      cases byPath first.path with
      | none => simp
      | some previous =>
        by_cases same : previous = first.digest <;> simp [same]
    rw [heads, onward]
    refine ⟨fun ⟨before, alike, others, within⟩ => ⟨List.forall_mem_cons.mpr ⟨before, fun entry member digest found => ?_⟩,
      List.forall_mem_cons.mpr ⟨List.forall_mem_cons.mpr ⟨fun _ => rfl, fun entry member same => ?_⟩, fun entry member =>
        List.forall_mem_cons.mpr ⟨fun same => alike entry member same, within entry member⟩⟩⟩,
      fun ⟨before, within⟩ => ⟨before first List.mem_cons_self, fun entry member same => ?_, fun entry member _ => ?_,
        fun entry member other also => ?_⟩⟩
    · by_cases same : entry.path = first.path
      · exact (before digest (same ▸ found)).trans (alike entry member same).symm
      · exact others entry member same digest found
    · exact (alike entry member same.symm).symm
    · exact within entry (List.mem_cons_of_mem _ member) first List.mem_cons_self same
    · exact before entry (List.mem_cons_of_mem _ member)
    · exact within entry (List.mem_cons_of_mem _ member) other (List.mem_cons_of_mem _ also)

/-- A consistent bundle records for a path the digest of any of its entries. -/
theorem recordedDigest_some (single : SingleDigest bundle) {path digest : String} :
    recordedDigest bundle path = some digest ↔ ∃ entry ∈ bundle.artifacts, entry.path = path ∧ entry.digest = digest := by
  refine ⟨fun found => ?_, fun ⟨entry, member, named, same⟩ => ?_⟩
  · obtain ⟨entry, last, rfl⟩ := Option.map_eq_some_iff.mp found
    exact ⟨entry, List.mem_reverse.mp (List.mem_of_find?_eq_some last), by simpa using List.find?_some last, rfl⟩
  · unfold recordedDigest
    cases last : bundle.artifacts.reverse.find? (·.path = path) with
    | none => exact absurd named (by simpa using List.find?_eq_none.mp last entry (List.mem_reverse.mpr member))
    | some other =>
      have also : other.path = path := by simpa using List.find?_some last
      have listed := List.mem_reverse.mp (List.mem_of_find?_eq_some last)
      exact congrArg some ((single other listed entry member (also.trans named.symm)).trans same)

theorem accounted_ok (single : SingleDigest bundle) {artifact : ObservedArtifact} :
    (∃ consumed, accounted core bundle artifact = .ok consumed) ↔ ∃ path, normalizePath artifact.path = .ok path ∧
      ∃ entry ∈ bundle.artifacts, entry.path = path ∧ entry.digest = core.digestOf artifact.content := by
  unfold accounted
  cases normal : normalizePath artifact.path with
  | error reason => simp
  | ok path =>
    simp only [Except.ok.injEq, exists_eq_left', ← recordedDigest_some single]
    cases recordedDigest bundle path with
    | none => simp
    | some recorded => by_cases same : recorded = core.digestOf artifact.content <;> simp [same]

/-- The surface is the bundle's, both ways. -/
theorem surfaceFailures_nil (single : SingleDigest bundle) {observed : List ObservedArtifact} :
    surfaceFailures core bundle observed = [] ↔
      (∀ artifact ∈ observed, ∃ path, normalizePath artifact.path = .ok path ∧
        ∃ entry ∈ bundle.artifacts, entry.path = path ∧ entry.digest = core.digestOf artifact.content) ∧
      ∀ entry ∈ bundle.artifacts, ∃ artifact ∈ observed, normalizePath artifact.path = .ok entry.path := by
  unfold surfaceFailures
  rw [List.append_eq_nil_iff, List.filterMap_eq_nil_iff, List.filterMap_eq_nil_iff]
  refine and_congr (forall₂_congr fun artifact _ => ?_) ?_
  · rw [← accounted_ok single]
    cases accounted core bundle artifact <;> simp
  · simp only [List.mem_eraseDups, List.forall_mem_map, missingArtifact]
    refine forall₂_congr fun entry _ => ?_
    rw [ite_eq_left_iff]
    simp

end Bundle

section Capture

variable {Json : Type} {core : TrustedCore} {schemas : AuthoritySchemas Json}

theorem identityDiverges_nil {name : String} {fields : List (String × String × String)} :
    identityDiverges name fields = [] ↔ ∀ field ∈ fields, field.2.1 = field.2.2 := by
  unfold identityDiverges
  rw [List.filterMap_eq_nil_iff]
  refine forall₂_congr fun field _ => ?_
  simp

theorem recapture_nil {name : String} {source : AuthoritySourceName} {input : AuthorityBytes}
    {fields : Captured source.Document → List (String × String × String)} :
    recapture core schemas name source input fields = .ok [] ↔
      ∃ captured, captureAuthority core.digestOf schemas source input = .captured captured ∧
        ∀ field ∈ fields captured, field.2.1 = field.2.2 := by
  unfold recapture
  cases captureAuthority core.digestOf schemas source input with
  | faulted fault => simp
  | refused refusal => simp
  | captured snapshot => simp only [Except.ok.injEq, identityDiverges_nil, Capture.captured.injEq, exists_eq_left']

theorem recaptured_nil {identities : EvidenceIdentities} {independent : IndependentInputs} :
    recaptured core schemas identities independent = .ok [] ↔
      recapture core schemas "profile" .profile independent.profile (profileFields identities.profile) = .ok [] ∧
      recapture core schemas "path-policy" .pathPolicy independent.pathPolicy (contractFields identities.pathPolicy) = .ok [] ∧
      recapture core schemas "gate-registry" .gateRegistry independent.gateRegistry
        (contractFields identities.gateRegistry) = .ok [] := by
  unfold recaptured
  cases recapture core schemas "profile" .profile independent.profile (profileFields identities.profile) with
  | error fault => simp [bind, Except.bind]
  | ok profile =>
    cases recapture core schemas "path-policy" .pathPolicy independent.pathPolicy (contractFields identities.pathPolicy) with
    | error fault => simp [bind, Except.bind]
    | ok policy =>
      cases recapture core schemas "gate-registry" .gateRegistry independent.gateRegistry
        (contractFields identities.gateRegistry) with
      | error fault => simp [bind, Except.bind]
      | ok registry => simp [bind, Except.bind, pure, Except.pure]

theorem profileFields_agree {recorded : ProfileIdentity} {captured : Captured ExecutionProfile} :
    (∀ field ∈ profileFields recorded captured, field.2.1 = field.2.2) ↔
      recorded = ⟨captured.value.identity.name, captured.value.identity.version, captured.digest⟩ := by
  cases recorded
  simp [profileFields]

theorem contractFields_agree {Document : Type} {recorded : AuthorityIdentity} {captured : Captured Document} :
    (∀ field ∈ contractFields recorded captured, field.2.1 = field.2.2) ↔ recorded = captured.contract := by
  cases recorded
  cases captured with
  | mk source digest contract value =>
    cases contract
    simp [contractFields]

/-- Identities recorded of snapshots are recaptured exactly where the captures are of the snapshots' identities. -/
theorem recaptured_same {identities : EvidenceIdentities} {snapshots : AuthoritySnapshots} {independent : IndependentInputs}
    {profile : Captured ExecutionProfile} {policy : Captured PathPolicy} {registry : Captured GateRegistry}
    (captured : snapshots.profile = some profile) (allowed : snapshots.pathPolicy = some policy)
    (declared : snapshots.gateRegistry = some registry)
    (profiled : identities.profile = ⟨profile.value.identity.name, profile.value.identity.version, profile.digest⟩)
    (policed : identities.pathPolicy = policy.contract) (registered : identities.gateRegistry = registry.contract) :
    recaptured core schemas identities independent = .ok [] ↔ SameIdentities core schemas snapshots independent := by
  rw [recaptured_nil, recapture_nil, recapture_nil, recapture_nil]
  simp only [profileFields_agree, contractFields_agree, profiled, policed, registered]
  refine ⟨fun ⟨⟨one, profile_captured, same⟩, ⟨two, policy_captured, policies⟩, ⟨three, registry_captured, registries⟩⟩ =>
    ⟨⟨one, profile, profile_captured, captured, ?_, (ProfileIdentity.mk.inj same).2.2.symm⟩,
      ⟨two, policy, policy_captured, allowed, policies.symm⟩, ⟨three, registry, registry_captured, declared, registries.symm⟩⟩,
    fun same => ?_⟩
  · obtain ⟨name, version, _⟩ := ProfileIdentity.mk.inj same
    cases identified : profile.value.identity
    cases recorded : one.value.identity
    rw [identified, recorded] at name version
    cases name
    cases version
    rfl
  · obtain ⟨one, produced, profile_captured, snapshot, identified, digest⟩ := same.profile
    obtain ⟨two, limits, policy_captured, limited, policies⟩ := same.policy
    obtain ⟨three, gates, registry_captured, gated, registries⟩ := same.registry
    cases captured.symm.trans snapshot
    cases allowed.symm.trans limited
    cases declared.symm.trans gated
    exact ⟨⟨one, profile_captured, by rw [identified, digest]⟩, ⟨two, policy_captured, policies.symm⟩,
      ⟨three, registry_captured, registries.symm⟩⟩

theorem verifyEvidence_verified {bundle : EvidenceBundle} {independent : IndependentInputs} :
    (∃ consumed, verifyEvidence core schemas (some bundle) independent = .verified consumed) ↔
      ∃ observed, independent.artifacts = .ok observed ∧ core.evidenceBundleIssues bundle = none ∧ SingleDigest bundle ∧
        recaptured core schemas bundle.identities independent = .ok [] ∧ surfaceFailures core bundle observed = [] := by
  have consistent : contradiction (fun _ => none) bundle.artifacts = none ↔ SingleDigest bundle := by
    rw [contradiction_none]
    simp [SingleDigest]
  rw [← consistent]
  unfold verifyEvidence
  cases independent.artifacts with
  | failed failure => simp
  | ok observed =>
    dsimp only
    cases core.evidenceBundleIssues bundle with
    | some issues => simp
    | none =>
      dsimp only
      cases contradiction (fun _ => none) bundle.artifacts with
      | some failure => simp
      | none =>
        dsimp only
        cases recaptured core schemas bundle.identities independent with
        | error fault => simp
        | ok failures =>
          cases failures with
          | cons failure failures => simp
          | nil => cases surface : surfaceFailures core bundle observed <;> simp [surface]

end Capture

section Produced

variable {core : TrustedCore}

theorem artifactEntries_ok {artifacts : List ObservedArtifact} {entries : List ArtifactEntry} (ended : artifactEntries core artifacts = .ok entries) :
    ∀ path digest, (∃ entry ∈ entries, entry.path = path ∧ entry.digest = digest) ↔
      ∃ content, Carries artifacts path content ∧ core.digestOf content = digest := by
  induction artifacts generalizing entries with
  | nil =>
    cases ended
    simp [Carries]
  | cons artifact rest ih =>
    unfold artifactEntries at ended
    split at ended
    · cases ended
    next path normal =>
      cases others : artifactEntries core rest with
      | error refused => rw [others] at ended; cases ended
      | ok later =>
        rw [others] at ended
        cases ended
        intro other digest
        have rest_pairs := ih others other digest
        refine ⟨fun ⟨entry, member, named, digested⟩ => ?_, fun ⟨content, ⟨found, member, normalized, same⟩, digested⟩ => ?_⟩
        · rcases List.mem_cons.mp member with rfl | member
          · exact ⟨artifact.content, ⟨artifact, List.mem_cons_self, named ▸ normal, rfl⟩, digested⟩
          · obtain ⟨content, ⟨found, listed, pair⟩, digested⟩ := rest_pairs.mp ⟨entry, member, named, digested⟩
            exact ⟨content, ⟨found, List.mem_cons_of_mem _ listed, pair⟩, digested⟩
        · rcases List.mem_cons.mp member with rfl | member
          · cases normal.symm.trans normalized
            exact ⟨_, List.mem_cons_self, rfl, by rw [same]; exact digested⟩
          · obtain ⟨entry, listed, pair⟩ := rest_pairs.mpr ⟨content, ⟨found, member, normalized, same⟩, digested⟩
            exact ⟨entry, List.mem_cons_of_mem _ listed, pair⟩

/-- A constructed bundle records the identities of its snapshots and the pairs of its artifacts. -/
theorem constructEvidence_records {inputs : EvidenceInputs} {bundle : EvidenceBundle}
    (proceeds : constructEvidence core inputs = .proceed bundle) :
    ∃ profile policy registry produced, inputs.snapshots.profile = some profile ∧
      inputs.snapshots.pathPolicy = some policy ∧ inputs.snapshots.gateRegistry = some registry ∧
      inputs.artifacts = .ok produced ∧ core.evidenceBundleIssues bundle = none ∧
      bundle.identities.profile = ⟨profile.value.identity.name, profile.value.identity.version, profile.digest⟩ ∧
      bundle.identities.pathPolicy = policy.contract ∧ bundle.identities.gateRegistry = registry.contract ∧
      ∀ path digest, (∃ entry ∈ bundle.artifacts, entry.path = path ∧ entry.digest = digest) ↔
        ∃ content, Carries produced path content ∧ core.digestOf content = digest := by
  unfold constructEvidence at proceeds
  dsimp only at proceeds
  split at proceeds
  · cases proceeds
  · cases proceeds
  · cases proceeds
  next profile policy registry captured allowed declared =>
    split at proceeds
    · cases proceeds
    next produced surface =>
      split at proceeds
      · cases proceeds
      · split at proceeds
        · cases proceeds
        next entries ended =>
          split at proceeds
          · cases proceeds
          next valid =>
            cases proceeds
            refine ⟨profile, policy, registry, produced, captured, allowed, declared, surface, valid, rfl, rfl, rfl,
              fun path digest => ?_⟩
            rw [← artifactEntries_ok ended]
            exact exists_congr fun entry => and_congr_left fun _ => canonicalSort_perm.mem_iff

/-- Both memberships hold exactly where the pairs are the same. -/
theorem surface_same {bundle : EvidenceBundle} {produced observed : List ObservedArtifact}
    (collisionFree : Function.Injective core.digestOf) (single : SingleContent produced)
    (records : ∀ path digest, (∃ entry ∈ bundle.artifacts, entry.path = path ∧ entry.digest = digest) ↔
      ∃ content, Carries produced path content ∧ core.digestOf content = digest) :
    ((∀ artifact ∈ observed, ∃ path, normalizePath artifact.path = .ok path ∧
        ∃ content, Carries produced path content ∧ core.digestOf content = core.digestOf artifact.content) ∧
      ∀ entry ∈ bundle.artifacts, ∃ artifact ∈ observed, normalizePath artifact.path = .ok entry.path) ↔
      SameArtifacts produced observed := by
  refine ⟨fun ⟨accounts, present⟩ => ?_, fun same => ⟨fun artifact member => ?_, fun entry member => ?_⟩⟩
  · have carried {artifact : ObservedArtifact} (member : artifact ∈ observed) {path : String}
        (normal : normalizePath artifact.path = .ok path) : Carries produced path artifact.content := by
      obtain ⟨also, named, content, carries, digests⟩ := accounts artifact member
      cases normal.symm.trans named
      exact collisionFree digests ▸ carries
    refine ⟨fun artifact member => (accounts artifact member).imp fun _ held => held.1, fun path content =>
      ⟨fun ⟨artifact, member, normal, same⟩ => same ▸ carried member normal, fun carries => ?_⟩⟩
    obtain ⟨entry, listed, rfl, _⟩ := (records path _).mpr ⟨content, carries, rfl⟩
    obtain ⟨artifact, member, normal⟩ := present entry listed
    exact ⟨artifact, member, normal, single entry.path _ _ (carried member normal) carries⟩
  · obtain ⟨path, normal⟩ := same.normal artifact member
    exact ⟨path, normal, artifact.content, (same.pairs path _).mp ⟨artifact, member, normal, rfl⟩, rfl⟩
  · obtain ⟨content, carries, _⟩ := (records entry.path entry.digest).mp ⟨entry, member, rfl, rfl⟩
    obtain ⟨artifact, listed, normal, _⟩ := (same.pairs entry.path content).mpr carries
    exact ⟨artifact, listed, normal⟩

end Produced

/-- The verifier accepts a constructed bundle exactly where nothing was tampered with, and
never one that contradicts itself. -/
theorem verifies_iff {Json : Type} (core : TrustedCore) (schemas : AuthoritySchemas Json)
    (collisionFree : Function.Injective core.digestOf) :
    (∀ inputs bundle independent, constructEvidence core inputs = .proceed bundle →
      (∀ produced, inputs.artifacts = .ok produced → SingleContent produced) →
      (∀ observed, independent.artifacts = .ok observed → SingleContent observed) →
        ((∃ consumed, verifyEvidence core schemas (some bundle) independent = .verified consumed) ↔
          Untampered core schemas inputs independent)) ∧
      ∀ bundle independent consumed, verifyEvidence core schemas (some bundle) independent = .verified consumed →
        SingleDigest bundle := by
  refine ⟨fun inputs bundle independent proceeds single _ => ?_, fun bundle independent consumed verified => ?_⟩
  · obtain ⟨profile, policy, registry, produced, captured, allowed, declared, surface, valid, profiled, policed, registered,
      records⟩ := constructEvidence_records proceeds
    have single := single produced surface
    have consistent : SingleDigest bundle := fun one listed other also same => by
      obtain ⟨content, carried, digested⟩ := (records one.path one.digest).mp ⟨one, listed, rfl, rfl⟩
      obtain ⟨second, carries, digests⟩ := (records one.path other.digest).mp ⟨other, also, same.symm, rfl⟩
      rw [← digested, ← digests, single one.path content second carried carries]
    have artifacts (observed : List ObservedArtifact) :
        surfaceFailures core bundle observed = [] ↔ SameArtifacts produced observed := by
      rw [surfaceFailures_nil consistent]
      simp only [records]
      exact surface_same collisionFree single records
    rw [verifyEvidence_verified, Untampered, ← recaptured_same captured allowed declared profiled policed registered]
    refine ⟨fun ⟨observed, seen, _, _, identities, clean⟩ =>
      ⟨identities, produced, observed, surface, seen, (artifacts observed).mp clean⟩,
      fun ⟨identities, made, observed, also, seen, same⟩ => ⟨observed, seen, valid, consistent, identities, ?_⟩⟩
    cases surface.symm.trans also
    exact (artifacts observed).mpr same
  · obtain ⟨_, _, _, single, _⟩ := verifyEvidence_verified.mp ⟨consumed, verified⟩
    exact single

/-- A core whose digest is the platform's on the empty text. -/
def verifyingCore : TrustedCore :=
  { Orchestration.fixtureCore with
    digestOf := Equiv.swap "" "sha256:e3b0c44298fc1c149afbf4c8996fb92427ae41e4649b934ca495991b7852b855" }

/-- A refused run with one empty artifact. -/
def verifyingInputs : EvidenceInputs where
  snapshots :=
    { profile := some (Orchestration.documents .profile)
      pathPolicy := some (Orchestration.documents .pathPolicy)
      gateRegistry := some (Orchestration.documents .gateRegistry) }
  runId := "run-1"
  imageDigest := Orchestration.profileDocument.imageDigest
  argvDigest := Orchestration.fixtureBase
  runtime := "runsc"
  provider := "local"
  adapter := "copilot-cli"
  principal := ⟨"agent:home-status", .autonomous⟩
  operations := {}
  gateResults := []
  artifacts := .ok [⟨"./report.md", ""⟩]
  observed := {}
  reconciliation := ⟨false, .absent, [], []⟩
  outcome := .refused "the workspace is not the declared base"
  timing := ⟨"2026-01-01T00:00:00.000Z", "2026-01-01T00:00:01.000Z"⟩

def verifyingBundle : EvidenceBundle :=
  bundleOf verifyingInputs (Orchestration.documents .profile) (Orchestration.documents .pathPolicy)
    (Orchestration.documents .gateRegistry) [⟨"report.md", verifyingCore.digestOf "", 0⟩]

/-- A verifier that acquires the artifacts and none of the authority. -/
def verifyingIndependent : IndependentInputs :=
  ⟨.failed "profile" "unreadable", .failed "path_policy" "unreadable", .failed "gate_registry" "unreadable",
    .ok [⟨"report.md", ""⟩]⟩

def verifyingSchemas : AuthoritySchemas Unit := ⟨fun _ => .error "Unexpected end of JSON input", fun _ => "(none)", fun _ _ => .error ""⟩

theorem verifyingBundle_constructed : constructEvidence verifyingCore verifyingInputs = .proceed verifyingBundle := by
  have entries : artifactEntries verifyingCore [⟨"./report.md", ""⟩] = .ok [⟨"report.md", verifyingCore.digestOf "", 0⟩] := by
    decide
  have refused : boundRefusal verifyingCore verifyingInputs [(Orchestration.documents .profile).source,
      (Orchestration.documents .pathPolicy).source, (Orchestration.documents .gateRegistry).source] = none := rfl
  unfold constructEvidence
  simp only [verifyingInputs] at refused ⊢
  rw [refused, entries]
  rfl

theorem verifyingBundle_verifies_iff :
    (∃ consumed, verifyEvidence verifyingCore verifyingSchemas (some verifyingBundle) verifyingIndependent = .verified consumed) ↔
      Untampered verifyingCore verifyingSchemas verifyingInputs verifyingIndependent := by
  have single (path : String) : SingleContent [⟨path, ""⟩] := by
    rintro _ one other ⟨first, listed, _, rfl⟩ ⟨second, also, _, rfl⟩
    rw [List.mem_singleton.mp listed, List.mem_singleton.mp also]
  exact (verifies_iff verifyingCore verifyingSchemas (Equiv.injective _)).1 verifyingInputs verifyingBundle
    verifyingIndependent verifyingBundle_constructed (fun _ same => by cases same; exact single _)
    fun _ same => by cases same; exact single _

end SecureHome.Core
