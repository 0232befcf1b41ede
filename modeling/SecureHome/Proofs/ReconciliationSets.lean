import SecureHome.Proofs.ReconciliationOrder

/-! Reconciliation against the sets of claimed and observed changes. A path that is claimed
is not looked at again among the observed changes, whatever it was claimed as. -/

namespace SecureHome.Core
open Lib Contracts

def Claims (claimed : List FileChange) (path : String) (kind : ChangeKind) : Prop :=
  ∃ claim ∈ claimed, claim.path = path ∧ claim.kind = kind

def Observes (observed : List ObservedChange) (path : String) (kind : ChangeKind) : Prop :=
  ∃ change ∈ observed, change.path = path ∧ change.kind = kind

variable {observed : List ObservedChange} {claimed : List FileChange} {path : String}

def DiffersAt (observed : List ObservedChange) (claimed : List FileChange) (path : String) : Prop :=
  ∃ kind, ¬ (Claims claimed path kind ↔ Observes observed path kind)

/-- Agreement of equal sets alone, and of the paths they differ on one disagreement at least, of no other. -/
structure Exact (observed : List ObservedChange) (claimed : List FileChange) (result : Reconciliation) : Prop where
  agreement : result.agreement = true ↔ ∀ path kind, Claims claimed path kind ↔ Observes observed path kind
  named : result.agreement = false → ∀ path, (∃ entry ∈ result.disagreements, entry.path = path) ↔ DiffersAt observed claimed path

/-- A path with nothing claimed of it that was not observed, and something observed that was not claimed beside what was. -/
def Swallows (observed : List ObservedChange) (claimed : List FileChange) (path : String) : Prop :=
  (∃ kind, Claims claimed path kind) ∧ (∀ kind, Claims claimed path kind → Observes observed path kind) ∧
    ∃ kind, Observes observed path kind ∧ ¬ Claims claimed path kind

theorem unmatched_iff {claim : FileChange} : Unmatched observed claim ↔ ¬ Observes observed claim.path claim.kind := by
  constructor
  · intro unmatched ⟨change, member, path, kind⟩
    exact unmatched change member path kind
  · intro unobserved change member path kind
    exact unobserved ⟨change, member, path, kind⟩

/-- The paths of the disagreements: of a claim that was not observed, or of a change whose path was not claimed. -/
theorem disagreement_paths : (∃ entry ∈ disagreementsOf observed claimed, entry.path = path) ↔
    (∃ kind, Claims claimed path kind ∧ ¬ Observes observed path kind) ∨
      (∃ kind, Observes observed path kind) ∧ ∀ kind, ¬ Claims claimed path kind := by
  unfold disagreementsOf
  constructor
  · rintro ⟨entry, member, rfl⟩
    rcases List.mem_append.mp member with first | second
    · obtain ⟨claim, listed, disagrees⟩ := List.mem_filterMap.mp first
      have unmatched : Unmatched observed claim := by
        by_contra matched
        rw [claimDisagreement_unmatched.mpr matched] at disagrees
        cases disagrees
      rw [claimDisagreement_path disagrees]
      exact .inl ⟨claim.kind, ⟨claim, listed, rfl, rfl⟩, unmatched_iff.mp unmatched⟩
    · obtain ⟨change, listed, disagrees⟩ := List.mem_filterMap.mp second
      obtain ⟨unclaimed, rfl⟩ := unclaimedDisagreement_some.mp disagrees
      exact .inr ⟨⟨change.kind, change, listed, rfl, rfl⟩, fun kind ⟨claim, also, path, _⟩ => unclaimed claim also path⟩
  · rintro (⟨kind, ⟨claim, listed, rfl, rfl⟩, unobserved⟩ | ⟨⟨kind, change, listed, rfl, rfl⟩, unclaimed⟩)
    · cases disagrees : claimDisagreement observed claim with
      | none => exact absurd (unmatched_iff.mpr unobserved) (claimDisagreement_unmatched.mp disagrees)
      | some entry =>
        exact ⟨entry, List.mem_append_left _ (List.mem_filterMap.mpr ⟨claim, listed, disagrees⟩), claimDisagreement_path disagrees⟩
    · have disagrees : unclaimedDisagreement claimed change = some ⟨change.path, "observed but not claimed"⟩ :=
        unclaimedDisagreement_some.mpr ⟨fun claim also path => unclaimed claim.kind ⟨claim, also, path, rfl⟩, rfl⟩
      exact ⟨_, List.mem_append_right _ (List.mem_filterMap.mpr ⟨change, listed, disagrees⟩), rfl⟩

/-- A path the sets differ on has a disagreement exactly if it is not swallowed. -/
theorem differs_iff : DiffersAt observed claimed path ↔
    (∃ entry ∈ disagreementsOf observed claimed, entry.path = path) ∨ Swallows observed claimed path := by
  rw [disagreement_paths]
  constructor
  · rintro ⟨kind, differs⟩
    by_cases all : ∀ kind, Claims claimed path kind → Observes observed path kind
    · have extra : Observes observed path kind ∧ ¬ Claims claimed path kind := by
        refine ⟨?_, fun claimed => differs ⟨all kind, fun _ => claimed⟩⟩
        by_contra unobserved
        exact differs ⟨all kind, fun observed => absurd observed unobserved⟩
      by_cases some_claim : ∃ kind, Claims claimed path kind
      · exact .inr ⟨some_claim, all, kind, extra⟩
      · exact .inl (.inr ⟨⟨kind, extra.1⟩, not_exists.mp some_claim⟩)
    · simp only [not_forall] at all
      obtain ⟨kind, claims, unobserved⟩ := all
      exact .inl (.inl ⟨kind, claims, unobserved⟩)
  · rintro ((⟨kind, claims, unobserved⟩ | ⟨⟨kind, observes⟩, unclaimed⟩) | ⟨_, _, kind, observes, unclaimed⟩)
    · exact ⟨kind, fun same => unobserved (same.mp claims)⟩
    · exact ⟨kind, fun same => unclaimed kind (same.mpr observes)⟩
    · exact ⟨kind, fun same => unclaimed (same.mpr observes)⟩

theorem swallowed_unnamed (swallows : Swallows observed claimed path) : ¬ ∃ entry ∈ disagreementsOf observed claimed, entry.path = path := by
  rw [disagreement_paths]
  obtain ⟨⟨kind, claims⟩, all, _⟩ := swallows
  rintro (⟨kind, claims, unobserved⟩ | ⟨_, unclaimed⟩)
  · exact unobserved (all kind claims)
  · exact unclaimed kind claims

/-- Claims reconcile exactly if no path is swallowed. -/
theorem reconciles_exactly_iff {entries : List RawClaim} (parsed : parseClaims entries = some claimed) :
    Exact observed claimed (reconcileClaims ⟨observed⟩ (.listed entries)) ↔ ∀ path, ¬ Swallows observed claimed path := by
  rw [reconcileClaims_listed parsed]
  have listed (path : String) : (∃ entry ∈ canonicalSort (disagreementsOf observed claimed) (·.path), entry.path = path) ↔
      ∃ entry ∈ disagreementsOf observed claimed, entry.path = path :=
    exists_congr fun entry => and_congr_left fun _ => canonicalSort_perm.mem_iff
  constructor
  · intro exact path swallows
    have differs : DiffersAt observed claimed path := differs_iff.mpr (.inr swallows)
    cases agrees : (disagreementsOf observed claimed).isEmpty with
    | true =>
      obtain ⟨kind, differs⟩ := differs
      exact differs (exact.agreement.mp agrees path kind)
    | false => exact swallowed_unnamed swallows ((listed path).mp ((exact.named agrees path).mpr differs))
  · intro clear
    have named (path : String) : (∃ entry ∈ disagreementsOf observed claimed, entry.path = path) ↔ DiffersAt observed claimed path :=
      ⟨fun found => differs_iff.mpr (.inl found), fun differs => (differs_iff.mp differs).resolve_right (clear path)⟩
    refine ⟨?_, fun _ path => (listed path).trans (named path)⟩
    rw [List.isEmpty_iff, List.eq_nil_iff_forall_not_mem]
    constructor
    · intro none_left path kind
      by_contra differs
      obtain ⟨entry, member, _⟩ := (named path).mpr ⟨kind, differs⟩
      exact none_left entry member
    · intro same entry member
      obtain ⟨kind, differs⟩ := (named entry.path).mp ⟨entry, member, rfl⟩
      exact differs (same entry.path kind)

theorem reconciles_exactly_created :
    Exact [⟨"a", .created, 1, none⟩] [⟨"a", .created⟩] (reconcileClaims ⟨[⟨"a", .created, 1, none⟩]⟩ (.listed [.fields "a" "created"])) := by
  refine (reconciles_exactly_iff (by decide)).mpr fun path ⟨_, _, kind, ⟨change, member, path, same⟩, unclaimed⟩ => ?_
  rw [List.mem_singleton.mp member] at path same
  exact unclaimed ⟨⟨"a", .created⟩, List.mem_singleton_self _, path, same⟩

/-- A path observed twice, as created and as deleted, and claimed once agrees. -/
theorem repeated_path_agrees :
    (reconcileClaims ⟨[⟨"a", .created, 1, none⟩, ⟨"a", .deleted, 0, none⟩]⟩ (.listed [.fields "a" "created"])).agreement = true ∧
      Observes [⟨"a", .created, 1, none⟩, ⟨"a", .deleted, 0, none⟩] "a" .deleted ∧ ¬ Claims [⟨"a", .created⟩] "a" .deleted ∧
      ¬ Exact [⟨"a", .created, 1, none⟩, ⟨"a", .deleted, 0, none⟩] [⟨"a", .created⟩]
        (reconcileClaims ⟨[⟨"a", .created, 1, none⟩, ⟨"a", .deleted, 0, none⟩]⟩ (.listed [.fields "a" "created"])) := by
  have agrees : (reconcileClaims ⟨[⟨"a", .created, 1, none⟩, ⟨"a", .deleted, 0, none⟩]⟩ (.listed [.fields "a" "created"])).agreement = true := by
    decide
  have observes : Observes [⟨"a", .created, 1, none⟩, ⟨"a", .deleted, 0, none⟩] "a" .deleted :=
    ⟨⟨"a", .deleted, 0, none⟩, List.mem_cons_of_mem _ (List.mem_singleton_self _), rfl, rfl⟩
  have unclaimed : ¬ Claims [⟨"a", .created⟩] "a" .deleted := by
    rintro ⟨claim, member, _, kind⟩
    rw [List.mem_singleton.mp member] at kind
    cases kind
  exact ⟨agrees, observes, unclaimed, fun exact => unclaimed ((exact.agreement.mp agrees "a" .deleted).mpr observes)⟩

end SecureHome.Core
