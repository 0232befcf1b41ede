import SecureHome.Core.Reconcile
import Mathlib.Data.List.Perm.Basic

/-! Whether a reconciliation depends on the order its inputs are presented in. It is
sorted by path alone, so one path's disagreements show their order. -/

namespace SecureHome.Core
open Lib Contracts

/-- No observed change is the claim. -/
def Unmatched (observed : List ObservedChange) (claim : FileChange) : Prop :=
  ∀ change ∈ observed, change.path = claim.path → change.kind ≠ claim.kind

/-- Where a path was observed and a claim for it was not, its unmatched claims are of
one kind, and so are its observed changes. -/
def Unambiguous (observed : List ObservedChange) (claimed : List FileChange) : Prop :=
  ∀ claim ∈ claimed, Unmatched observed claim → ∀ change ∈ observed, change.path = claim.path →
    (∀ other ∈ claimed, other.path = claim.path → Unmatched observed other → other.kind = claim.kind) ∧
      ∀ other ∈ observed, other.path = claim.path → other.kind = change.kind

/-- The same claims in some order. -/
inductive RawClaims.Permutes : RawClaims → RawClaims → Prop where
  | absent : Permutes .absent .absent
  | unlisted : Permutes .unlisted .unlisted
  | listed {entries others : List RawClaim} (perm : entries.Perm others) : Permutes (.listed entries) (.listed others)

/-- Every order of the claims and of the changes reconciles to one value. -/
def ReconcilesAlike (observed : List ObservedChange) (claims : RawClaims) : Prop :=
  ∀ presented reported, claims.Permutes presented → observed.Perm reported →
    reconcileClaims ⟨reported⟩ presented = reconcileClaims ⟨observed⟩ claims

/-- Absent claims list the changes as they come. -/
def ClearClaims (observed : List ObservedChange) : RawClaims → Prop
  | .absent => ∀ first ∈ observed, ∀ second ∈ observed, first.path = second.path
  | .unlisted => True
  | .listed entries => ∀ claimed, parseClaims entries = some claimed → Unambiguous observed claimed

section Texts

theorem kindLabel_injective {one other : ChangeKind} (same : kindLabel one = kindLabel other) : one = other := by
  cases one <;> cases other <;> first | rfl | exact absurd same (by decide)

theorem keyOf_injective {path other : String} {kind second : ChangeKind} (same : keyOf path kind = keyOf other second) :
    path = other ∧ kind = second := by
  have texts := String.toList_inj.mpr same
  simp only [keyOf, toString, String.toList_append, List.append_assoc] at texts
  have spaceless (kind : ChangeKind) : ' ' ∉ (kindLabel kind).toList := by
    cases kind <;> decide
  obtain ⟨labels, paths⟩ := first_separated (spaceless kind) (spaceless second) texts
  exact ⟨String.toList_inj.mp paths, kindLabel_injective (String.toList_inj.mp labels)⟩

theorem divergence_injective {claimed observed other second : ChangeKind}
    (same : divergence claimed observed = divergence other second) : claimed = other ∧ observed = second := by
  revert same
  cases claimed <;> cases observed <;> cases other <;> cases second <;> decide

theorem claimKey_injective {one other : FileChange}
    (same : s!"{one.path}:{kindLabel one.kind}" = s!"{other.path}:{kindLabel other.kind}") : one = other := by
  have texts := String.toList_inj.mpr same
  simp only [toString, String.toList_append, List.append_assoc] at texts
  have colonless (kind : ChangeKind) : ':' ∉ (kindLabel kind).toList := by
    cases kind <;> decide
  obtain ⟨paths, labels⟩ := last_separated (colonless one.kind) (colonless other.kind) texts
  cases one
  cases other
  cases String.toList_inj.mp paths
  cases kindLabel_injective (String.toList_inj.mp labels)
  rfl

end Texts

section Disagreements

variable {observed reported : List ObservedChange} {claimed presented : List FileChange}

theorem kindOf_mem {path : String} {kind : ChangeKind} (found : kindOf observed path = some kind) :
    ∃ change ∈ observed, change.path = path ∧ change.kind = kind := by
  obtain ⟨change, last, rfl⟩ := Option.map_eq_some_iff.mp found
  exact ⟨change, List.mem_reverse.mp (List.mem_of_find?_eq_some last), by simpa using List.find?_some last, rfl⟩

theorem kindOf_none {path : String} : kindOf observed path = none ↔ ∀ change ∈ observed, change.path ≠ path := by
  simp [kindOf, List.find?_eq_none]

/-- A claim disagrees where it is unmatched, in the words its path's last kind gives. -/
theorem claimDisagreement_unmatched {claim : FileChange} : claimDisagreement observed claim = none ↔
    ¬ Unmatched observed claim := by
  have matched : (observed.any fun change => keyOf change.path change.kind = keyOf claim.path claim.kind) = true ↔
      ¬ Unmatched observed claim := by
    simp only [List.any_eq_true, decide_eq_true_eq, Unmatched, not_forall, not_not]
    refine ⟨fun ⟨change, member, same⟩ => ?_, fun ⟨change, member, path, kind⟩ => ⟨change, member, by rw [path, kind]⟩⟩
    obtain ⟨path, kind⟩ := keyOf_injective same
    exact ⟨change, member, path, kind⟩
  unfold claimDisagreement
  rw [← matched]
  split
  next same => exact ⟨fun _ => same, fun _ => rfl⟩
  next differs =>
    refine ⟨fun none => ?_, fun same => absurd same differs⟩
    split at none <;> cases none

theorem claimDisagreement_path {claim : FileChange} {entry : Disagreement}
    (disagrees : claimDisagreement observed claim = some entry) : entry.path = claim.path := by
  unfold claimDisagreement at disagrees
  split at disagrees
  · cases disagrees
  · split at disagrees <;> cases disagrees <;> rfl

theorem claimDisagreement_observed {claim : FileChange} {kind : ChangeKind} (unmatched : Unmatched observed claim)
    (last : kindOf observed claim.path = some kind) :
    claimDisagreement observed claim = some ⟨claim.path, divergence claim.kind kind⟩ := by
  have disagrees : claimDisagreement observed claim ≠ none := fun none => claimDisagreement_unmatched.mp none unmatched
  unfold claimDisagreement at disagrees ⊢
  split
  next matched => simp [matched] at disagrees
  next => rw [last]

theorem unclaimedDisagreement_some {change : ObservedChange} {entry : Disagreement} :
    unclaimedDisagreement claimed change = some entry ↔
      (∀ claim ∈ claimed, claim.path ≠ change.path) ∧ entry = ⟨change.path, "observed but not claimed"⟩ := by
  unfold unclaimedDisagreement
  split
  next matched =>
    obtain ⟨claim, member, same⟩ := List.any_eq_true.mp matched
    have path := (keyOf_injective (of_decide_eq_true same)).1
    exact ⟨fun none => (nomatch none), fun held => absurd path (held.1 claim member)⟩
  next =>
    split
    next listed =>
      obtain ⟨claim, member, path⟩ := List.any_eq_true.mp listed
      exact ⟨fun none => (nomatch none), fun held => absurd (of_decide_eq_true path) (held.1 claim member)⟩
    next unlisted =>
      simp only [List.any_eq_true, decide_eq_true_eq, not_exists, not_and] at unlisted
      exact ⟨fun same => ⟨unlisted, by cases same; rfl⟩, fun held => by rw [held.2]⟩

theorem claimDisagreement_unobserved {claim : FileChange} (unobserved : kindOf observed claim.path = none) :
    claimDisagreement observed claim = some ⟨claim.path, "claimed but not observed"⟩ := by
  have disagrees : claimDisagreement observed claim ≠ none := fun none =>
    claimDisagreement_unmatched.mp none fun change member path => absurd path (kindOf_none.mp unobserved change member)
  unfold claimDisagreement at disagrees ⊢
  split
  next matched => simp [matched] at disagrees
  next => rw [unobserved]

theorem Unmatched.perm {claim : FileChange} (perm : observed.Perm reported) : Unmatched observed claim ↔ Unmatched reported claim :=
  forall_congr' fun _ => imp_congr_left perm.mem_iff

/-- Disagreements about one path are one disagreement. -/
theorem Unambiguous.single (clear : Unambiguous observed claimed) {entry other : Disagreement}
    (listed : entry ∈ disagreementsOf observed claimed) (also : other ∈ disagreementsOf observed claimed)
    (path : entry.path = other.path) : entry = other := by
  have unmatched {claim : FileChange} {entry : Disagreement} (disagrees : claimDisagreement observed claim = some entry) :
      Unmatched observed claim := by
    by_contra matched
    rw [claimDisagreement_unmatched.mpr matched] at disagrees
    cases disagrees
  rcases List.mem_append.mp listed with listed | listed <;> rcases List.mem_append.mp also with also | also <;>
    obtain ⟨source, member, disagrees⟩ := List.mem_filterMap.mp listed <;>
    obtain ⟨second, named, differs⟩ := List.mem_filterMap.mp also
  · have paths : second.path = source.path :=
      (claimDisagreement_path differs).symm.trans (path.symm.trans (claimDisagreement_path disagrees))
    cases last : kindOf observed source.path with
    | none =>
      rw [claimDisagreement_unobserved last] at disagrees
      rw [claimDisagreement_unobserved (paths ▸ last)] at differs
      cases disagrees
      cases differs
      rw [paths]
    | some kind =>
      obtain ⟨change, seen, at_path, _⟩ := kindOf_mem last
      have kinds := (clear source member (unmatched disagrees) change seen at_path).1 second named paths (unmatched differs)
      rw [claimDisagreement_observed (unmatched disagrees) last] at disagrees
      rw [claimDisagreement_observed (unmatched differs) (paths ▸ last)] at differs
      cases disagrees
      cases differs
      rw [paths, kinds]
  · obtain ⟨unclaimed, rfl⟩ := unclaimedDisagreement_some.mp differs
    exact absurd ((claimDisagreement_path disagrees).symm.trans path) (unclaimed source member)
  · obtain ⟨unclaimed, rfl⟩ := unclaimedDisagreement_some.mp disagrees
    exact absurd ((claimDisagreement_path differs).symm.trans path.symm) (unclaimed second named)
  · rw [(unclaimedDisagreement_some.mp disagrees).2] at path ⊢
    rw [(unclaimedDisagreement_some.mp differs).2] at path ⊢
    exact congrArg (Disagreement.mk · _) path

/-- The disagreements are the same ones, in any order. -/
theorem Unambiguous.perm (clear : Unambiguous observed claimed) (changes : observed.Perm reported)
    (claims : claimed.Perm presented) : (disagreementsOf observed claimed).Perm (disagreementsOf reported presented) := by
  have same (claim : FileChange) (member : claim ∈ claimed) :
      claimDisagreement observed claim = claimDisagreement reported claim := by
    by_cases unmatched : Unmatched observed claim
    · cases last : kindOf observed claim.path with
      | none =>
        have unseen : kindOf reported claim.path = none :=
          kindOf_none.mpr fun change seen => kindOf_none.mp last change (changes.mem_iff.mpr seen)
        rw [claimDisagreement_unobserved last, claimDisagreement_unobserved unseen]
      | some kind =>
        obtain ⟨change, seen, path, rfl⟩ := kindOf_mem last
        obtain ⟨other, reported_last⟩ := Option.ne_none_iff_exists'.mp fun none =>
          kindOf_none.mp none change (changes.mem_iff.mp seen) path
        obtain ⟨second, also, at_path, rfl⟩ := kindOf_mem reported_last
        have kinds := (clear claim member unmatched change seen path).2 second (changes.mem_iff.mpr also) at_path
        rw [claimDisagreement_observed unmatched last,
          claimDisagreement_observed ((Unmatched.perm changes).mp unmatched) reported_last, kinds]
    · rw [claimDisagreement_unmatched.mpr unmatched,
        claimDisagreement_unmatched.mpr fun other => unmatched ((Unmatched.perm changes).mpr other)]
  have also (change : ObservedChange) : unclaimedDisagreement claimed change = unclaimedDisagreement presented change := by
    refine Option.ext fun entry => ?_
    rw [unclaimedDisagreement_some, unclaimedDisagreement_some]
    exact and_congr_left fun _ => forall_congr' fun _ => imp_congr_left claims.mem_iff
  unfold disagreementsOf
  rw [List.filterMap_congr same, funext also]
  exact (claims.filterMap _).append (changes.filterMap _)

end Disagreements

section Parse

theorem parseClaims_some {entries : List RawClaim} {claims : List FileChange} :
    parseClaims entries = some claims ↔ List.Forall₂ (fun entry claim => parseClaim entry = some claim) entries claims := by
  induction entries generalizing claims with
  | nil =>
    refine ⟨fun parsed => ?_, fun paired => ?_⟩
    · cases parsed
      exact .nil
    · cases paired
      rfl
  | cons entry rest ih =>
    unfold parseClaims
    refine ⟨fun parsed => ?_, fun paired => ?_⟩
    · split at parsed
      next claim others first later =>
        cases parsed
        exact .cons first (ih.mp later)
      · cases parsed
    · cases paired with
      | cons first later => rw [first, ih.mpr later]

/-- Reordered claims parse to the reordered claims. -/
theorem parseClaims_reordered {entries others : List RawClaim} {claims : List FileChange} (perm : others.Perm entries)
    (parsed : parseClaims entries = some claims) : ∃ presented, parseClaims others = some presented ∧ presented.Perm claims := by
  obtain ⟨presented, paired, reordered⟩ := List.perm_comp_forall₂ perm (parseClaims_some.mp parsed)
  exact ⟨presented, parseClaims_some.mpr paired, reordered⟩

/-- Every order of the parsed claims is parsed of some order of the entries. -/
theorem parseClaims_presentable {entries : List RawClaim} {claims presented : List FileChange}
    (parsed : parseClaims entries = some claims) (perm : presented.Perm claims) :
    ∃ others, entries.Perm others ∧ parseClaims others = some presented := by
  obtain ⟨others, paired, reordered⟩ := List.perm_comp_forall₂ perm (parseClaims_some.mp parsed).flip
  exact ⟨others, reordered.symm, parseClaims_some.mpr paired.flip⟩

end Parse

section Reconciled

variable {observed : List ObservedChange} {claimed : List FileChange}

/-- A claim presented first leads its path's disagreements. -/
theorem leading_disagreement {claim : FileChange} {rest : List FileChange} {kind : ChangeKind}
    (unmatched : Unmatched observed claim) (last : kindOf observed claim.path = some kind) :
    ((disagreementsOf observed (claim :: rest)).filter (·.path = claim.path)).head? =
      some ⟨claim.path, divergence claim.kind kind⟩ := by
  unfold disagreementsOf
  rw [List.filterMap_cons_some (claimDisagreement_observed unmatched last), List.cons_append,
    List.filter_cons_of_pos (by simp)]
  rfl

theorem kindOf_last {change : ObservedChange} {path : String} (named : change.path = path) (rest : List ObservedChange) :
    kindOf (rest ++ [change]) path = some change.kind := by
  simp [kindOf, named]

/-- Where all orders reconcile to one value, they leave every path one order. -/
theorem unambiguous_of_alike
    (alike : ∀ presented reported, presented.Perm claimed → reported.Perm observed → ∀ path,
      (disagreementsOf reported presented).filter (·.path = path) = (disagreementsOf observed claimed).filter (·.path = path)) :
    Unambiguous observed claimed := by
  intro claim member unmatched change seen path
  have leads {claim : FileChange} (member : claim ∈ claimed) (unmatched : Unmatched observed claim)
      {change : ObservedChange} (seen : change ∈ observed) (path : change.path = claim.path) :
      ((disagreementsOf observed claimed).filter (·.path = claim.path)).head? =
        some ⟨claim.path, divergence claim.kind change.kind⟩ := by
    have claims := List.perm_cons_erase member
    have changes : (observed.erase change ++ [change]).Perm observed :=
      (List.perm_append_singleton change _).trans (List.perm_cons_erase seen).symm
    rw [← alike _ _ claims.symm changes]
    exact leading_disagreement ((Unmatched.perm changes.symm).mp unmatched) (kindOf_last path _)
  have first := leads member unmatched seen path
  refine ⟨fun other named other_path apart => ?_, fun other named other_path => ?_⟩
  · have second := leads named apart seen (path.trans other_path.symm)
    rw [other_path, first] at second
    exact (divergence_injective (Disagreement.mk.inj (Option.some.inj second)).2).1.symm
  · have second := leads member unmatched named other_path
    rw [first] at second
    exact (divergence_injective (Disagreement.mk.inj (Option.some.inj second)).2).2.symm

theorem absent_alike {reported : List ObservedChange} (one : ∀ first ∈ observed, ∀ second ∈ observed, first.path = second.path)
    (perm : observed.Perm reported) : (reported.map fun change => Disagreement.mk change.path
        "observed but not claimed (claim set absent)") =
      observed.map fun change => Disagreement.mk change.path "observed but not claimed (claim set absent)" := by
  have mapped := perm.map fun change => Disagreement.mk change.path "observed but not claimed (claim set absent)"
  cases observed with
  | nil => rw [perm.nil_eq]
  | cons first rest =>
    have named (entry : Disagreement) (member : entry ∈ (first :: rest).map fun change =>
        Disagreement.mk change.path "observed but not claimed (claim set absent)") :
        entry = ⟨first.path, "observed but not claimed (claim set absent)"⟩ := by
      obtain ⟨change, listed, rfl⟩ := List.mem_map.mp member
      rw [one change listed first List.mem_cons_self]
    rw [List.eq_replicate_of_mem named, List.eq_replicate_of_mem fun entry member => named entry (mapped.mem_iff.mpr member),
      mapped.length_eq]

theorem reconcileClaims_listed {entries : List RawClaim} (parsed : parseClaims entries = some claimed) :
    reconcileClaims ⟨observed⟩ (.listed entries) =
      ⟨(disagreementsOf observed claimed).isEmpty, .present,
        canonicalSort claimed fun claim => s!"{claim.path}:{kindLabel claim.kind}",
        canonicalSort (disagreementsOf observed claimed) (·.path)⟩ := by
  simp only [reconcileClaims, parsed]

/-- Changes reconcile alike in every order exactly where the claims are clear. -/
theorem reconciles_alike_iff (claims : RawClaims) : ReconcilesAlike observed claims ↔ ClearClaims observed claims := by
  cases claims with
  | absent =>
    refine ⟨fun alike first member second named => ?_, fun clear presented reported permutes perm => ?_⟩
    · have same := alike .absent (first :: observed.erase first) .absent (List.perm_cons_erase member)
      have again := alike .absent (second :: observed.erase second) .absent (List.perm_cons_erase named)
      simp only [reconcileClaims, Reconciliation.mk.injEq] at same again
      have heads := same.2.2.2.trans again.2.2.2.symm
      exact (Disagreement.mk.inj (List.cons.inj heads).1).1
    · cases permutes
      refine congrArg (Reconciliation.mk false .absent []) (absent_alike clear perm)
  | unlisted =>
    refine ⟨fun _ => trivial, fun _ presented reported permutes _ => ?_⟩
    cases permutes
    rfl
  | listed entries =>
    cases parsed : parseClaims entries with
    | none =>
      refine ⟨fun _ claimed other => absurd (parsed.symm.trans other) nofun, fun _ presented reported permutes _ => ?_⟩
      cases permutes with
      | @listed _ others perm =>
        have malformed : parseClaims others = none := by
          cases other : parseClaims others with
          | none => rfl
          | some presented =>
            obtain ⟨claimed, some, _⟩ := parseClaims_reordered perm other
            cases parsed.symm.trans some
        simp only [reconcileClaims, parsed, malformed]
    | some claimed =>
      refine ⟨fun alike other some => ?_, fun clear presented reported permutes changes => ?_⟩
      · cases parsed.symm.trans some
        refine unambiguous_of_alike fun presented reported claims changes path => ?_
        obtain ⟨others, perm, presents⟩ := parseClaims_presentable parsed claims
        have same := alike (.listed others) reported (.listed perm) changes.symm
        rw [reconcileClaims_listed presents, reconcileClaims_listed parsed] at same
        exact canonicalSort_eq_iff.mp (Reconciliation.mk.inj same).2.2.2 path
      · cases permutes with
        | @listed _ others perm =>
          obtain ⟨presented, presents, claims⟩ := parseClaims_reordered perm.symm parsed
          have clear := clear claimed parsed
          have disagreements := clear.perm changes claims.symm
          rw [reconcileClaims_listed presents, reconcileClaims_listed parsed,
            canonicalSort_unordered disagreements fun entry listed other also => clear.single listed also,
            canonicalSort_unordered claims fun one _ other _ => claimKey_injective,
            disagreements.isEmpty_eq]

end Reconciled

end SecureHome.Core
