import SecureHome.Proofs.MaterializationSoundness
import SecureHome.Proofs.ReconciliationOrder

/-! Whether a path decision depends on the order changes are presented in. Sorting by
path keeps the order within a path, and there the last change decides. -/

namespace SecureHome.Core
open Lib Contracts

/-- The changes that deriving and then materializing let through. -/
def decidedChanges (policy : Option (Captured PathPolicy)) (protectedSources : List String) (changes : List ObservedChange) :
    Option (List ObservedChange) :=
  match deriveAuthoritativeChangeSet (.ok changes) with
  | .proceed observed =>
    match decideMaterialization policy observed protectedSources with
    | .proceed value => some value.changes
    | .refusal _ => none
  | _ => none

/-- Every order of the changes is decided alike, over the same changes. -/
def DecidesAlike (policy : Option (Captured PathPolicy)) (protectedSources : List String) (changes : List ObservedChange) :
    Prop :=
  ∀ presented, changes.Perm presented →
    (decidedChanges policy protectedSources presented).isSome = (decidedChanges policy protectedSources changes).isSome ∧
      ∀ one other, decidedChanges policy protectedSources presented = some one →
        decidedChanges policy protectedSources changes = some other → one.Perm other

/-- A change whose path and whose link, if it has one, the policy lets a run write. -/
def Admissible (policy : PathPolicy) (protectedSources : List String) (change : ObservedChange) : Prop :=
  (∃ path, normalizePath change.path = .ok path ∧ Writable policy protectedSources path) ∧
    ∀ target, change.linkTarget = some target → Writable policy protectedSources target

/-- What a decision asks of a set in whichever order. -/
structure Establishes (policy : PathPolicy) (protectedSources : List String) (changes : List ObservedChange) : Prop where
  sources : ∀ source ∈ protectedSources, ∃ path, normalizePath source = .ok path
  roots : ∀ root ∈ policy.allowedWriteRoots, ∃ path, normalizePath root = .ok path
  targets : ∀ change ∈ changes, ∀ target, change.linkTarget = some target → ∃ path, normalizePath target = .ok path
  count : changes.length ≤ policy.maxFiles
  each : ∀ change ∈ changes, change.bytes ≤ policy.maxFileBytes
  total : (changes.map (·.bytes)).sum ≤ policy.maxTotalBytes

/-- The changes of one path agree on being admissible, or some path has none that is, or
the set is refused in every order. -/
def AgreedPaths (policy : Option (Captured PathPolicy)) (protectedSources : List String) (changes : List ObservedChange) :
    Prop :=
  ∀ captured, policy = some captured → Establishes captured.value protectedSources changes →
    (∀ change ∈ changes, Admissible captured.value protectedSources change) ∨
      ∃ change ∈ changes, ∀ other ∈ changes, normalizePath other.path = normalizePath change.path →
        ¬ Admissible captured.value protectedSources other

section Decided

variable {policy : PathPolicy} {protectedSources : List String} {changes presented : List ObservedChange}

theorem derive_proceed {observed : AuthoritativeChangeSet} : deriveAuthoritativeChangeSet (.ok changes) = .proceed observed ↔
    (∀ change ∈ changes, normalizePath change.path = .ok (underNormal change).path) ∧
      observed = ⟨canonicalSort (changes.map underNormal) (·.path)⟩ := by
  have derived : deriveAuthoritativeChangeSet (.ok changes) = .proceed observed ↔
      ∃ normalized, changes.mapM (normalizedChange "observed path") = .ok normalized ∧
        observed = ⟨canonicalSort normalized (·.path)⟩ := by
    simp only [deriveAuthoritativeChangeSet]
    split
    next normalized ended => simp [ended, eq_comm]
    next refusal ended => simp [ended]
  rw [derived]
  refine ⟨fun ⟨normalized, ended, same⟩ => ?_, fun ⟨normal, same⟩ => ?_⟩
  · obtain ⟨rfl, normal⟩ := normalized_map ended
    exact ⟨normal, same⟩
  · obtain ⟨normalized, ended⟩ := mapM_isOk.mpr fun change member =>
      ⟨_, (@normalizedChange_ok "observed path" change _).mpr ⟨_, normal change member, rfl⟩⟩
    obtain ⟨rfl, _⟩ := normalized_map ended
    exact ⟨_, ended, same⟩

theorem Establishes.perm (perm : changes.Perm presented) :
    Establishes policy protectedSources changes ↔ Establishes policy protectedSources presented := by
  have one {changes presented : List ObservedChange} (perm : changes.Perm presented)
      (establishes : Establishes policy protectedSources changes) : Establishes policy protectedSources presented :=
    ⟨establishes.sources, establishes.roots, fun change member => establishes.targets change (perm.mem_iff.mpr member),
      perm.length_eq ▸ establishes.count, fun change member => establishes.each change (perm.mem_iff.mpr member),
      (perm.map _).sum_nat ▸ establishes.total⟩
  exact ⟨one perm, one perm.symm⟩

/-- The last changes of the derived set are those of the presented one. -/
theorem lastOfPath_derived (normal : ∀ change ∈ changes, normalizePath change.path = .ok (underNormal change).path)
    (again : ∀ change ∈ changes, normalizePath (underNormal change).path = .ok (underNormal change).path)
    {derived : ObservedChange} : LastOfPath (canonicalSort (changes.map underNormal) (·.path)) derived ↔
      ∃ change, LastOfPath changes change ∧ derived = underNormal change := by
  have fixed (derived : ObservedChange) (member : derived ∈ canonicalSort (changes.map underNormal) (·.path)) :
      normalizePath derived.path = .ok derived.path := by
    obtain ⟨change, listed, rfl⟩ := List.mem_map.mp (canonicalSort_perm.mem_iff.mp member)
    exact again change listed
  have run (path : String) : (canonicalSort (changes.map underNormal) (·.path)).filter (fun other => normalizePath other.path = .ok path) =
      (changes.filter fun change => normalizePath change.path = .ok path).map underNormal := by
    rw [← normalized_run normal, ← canonicalSort_run path]
    refine List.filter_congr fun derived member => ?_
    rw [fixed derived member]
    simp
  refine ⟨fun last => ?_, fun ⟨change, last, same⟩ => ?_⟩
  · have path := fixed derived last.mem
    unfold LastOfPath at last
    rw [path, run, List.getLast?_map] at last
    obtain ⟨change, found, rfl⟩ := Option.map_eq_some_iff.mp last
    refine ⟨change, ?_, rfl⟩
    unfold LastOfPath
    have named : normalizePath change.path = .ok (underNormal change).path := by
      simpa using (List.mem_filter.mp (List.mem_of_getLast? found)).2
    rw [named]
    exact found
  · have named := normal change last.mem
    unfold LastOfPath at last ⊢
    rw [same, again change (LastOfPath.mem last), run, List.getLast?_map, ← named, last]
    rfl

/-- The two decisions proceed exactly where the last change of every path is admissible. -/
theorem decidedChanges_some {captured : Captured PathPolicy} {returned : List ObservedChange} :
    decidedChanges (some captured) protectedSources changes = some returned ↔
      (Establishes captured.value protectedSources changes ∧
        ∀ change, LastOfPath changes change → Admissible captured.value protectedSources change) ∧
      returned = canonicalSort ((canonicalSort (changes.map underNormal) (·.path)).map underNormal) (·.path) := by
  have decided : decidedChanges (some captured) protectedSources changes = some returned ↔
      (∀ change ∈ changes, normalizePath change.path = .ok (underNormal change).path) ∧
        Admits captured.value protectedSources (canonicalSort (changes.map underNormal) (·.path)) ∧
        returned = canonicalSort ((canonicalSort (changes.map underNormal) (·.path)).map underNormal) (·.path) := by
    unfold decidedChanges
    refine ⟨fun ended => ?_, fun ⟨normal, admits, same⟩ => ?_⟩
    · split at ended
      next observed derived =>
        obtain ⟨normal, rfl⟩ := derive_proceed.mp derived
        split at ended
        next value proceeds =>
          cases ended
          obtain ⟨admits, same⟩ := materialize_ok.mp (decideMaterialization_proceed.mp proceeds)
          exact ⟨normal, admits, by rw [same]⟩
        · cases ended
      · cases ended
    · rw [derive_proceed.mpr ⟨normal, rfl⟩]
      dsimp only
      have proceeds := (@decideMaterialization_proceed protectedSources captured
        ⟨canonicalSort (changes.map underNormal) (·.path)⟩ _).mpr (materialize_ok.mpr ⟨admits, rfl⟩)
      rw [proceeds, same]
  rw [decided, ← and_assoc]
  have sorted_mem (derived : ObservedChange) : derived ∈ canonicalSort (changes.map underNormal) (·.path) ↔
      ∃ change ∈ changes, underNormal change = derived := canonicalSort_perm.mem_iff.trans List.mem_map
  refine and_congr_left fun _ => ⟨fun ⟨normal, admits⟩ => ?_, fun ⟨establishes, admissible⟩ => ?_⟩
  · have placed (change : ObservedChange) (member : change ∈ changes) :=
      admits.placed (underNormal change) ((sorted_mem _).mpr ⟨change, member, rfl⟩)
    refine ⟨⟨admits.sources, admits.roots, fun change member => ?_, ?_, fun change member => ?_, ?_⟩, fun change last => ?_⟩
    · exact admits.targets (underNormal change) ((sorted_mem _).mpr ⟨change, member, rfl⟩)
    · simpa [canonicalSort_perm.length_eq] using admits.count
    · exact admits.each (underNormal change) ((sorted_mem _).mpr ⟨change, member, rfl⟩)
    · have total := admits.total
      rw [(canonicalSort_perm.map _).sum_nat, List.map_map] at total
      exact total
    · have again (change : ObservedChange) (member : change ∈ changes) :
          normalizePath (underNormal change).path = .ok (underNormal change).path := by
        obtain ⟨path, named, _⟩ := placed change member
        rw [named, normalizePath_again (normal change member) named]
      refine ⟨⟨_, normal change last.mem, placed change last.mem⟩, ?_⟩
      exact admits.followed (underNormal change) ((lastOfPath_derived normal again).mpr ⟨change, last, rfl⟩)
  · have writable (change : ObservedChange) (member : change ∈ changes) :
        normalizePath change.path = .ok (underNormal change).path ∧
          Writable captured.value protectedSources (underNormal change).path := by
      obtain ⟨last, found, same⟩ := LastOfPath.exists member
      obtain ⟨path, named, writable⟩ := (admissible last found).1
      rw [same] at named
      have path_eq : (underNormal change).path = path := by simp [underNormal, named, Except.toOption]
      exact ⟨named.trans (congrArg _ path_eq.symm), path_eq.symm ▸ writable⟩
    have again (change : ObservedChange) (member : change ∈ changes) :
        normalizePath (underNormal change).path = .ok (underNormal change).path := by
      obtain ⟨normal, path, named, _⟩ := writable change member
      rw [named, normalizePath_again normal named]
    have normal (change : ObservedChange) (member : change ∈ changes) := (writable change member).1
    refine ⟨normal, establishes.sources, establishes.roots, fun derived member => ?_, fun derived member => ?_,
      fun derived last => ?_, ?_, fun derived member => ?_, ?_⟩
    · obtain ⟨change, listed, rfl⟩ := (sorted_mem derived).mp member
      exact (writable change listed).2
    · obtain ⟨change, listed, rfl⟩ := (sorted_mem derived).mp member
      exact establishes.targets change listed
    · obtain ⟨change, found, rfl⟩ := (lastOfPath_derived normal again).mp last
      exact (admissible change found).2
    · simpa [canonicalSort_perm.length_eq] using establishes.count
    · obtain ⟨change, listed, rfl⟩ := (sorted_mem derived).mp member
      exact establishes.each change listed
    · rw [(canonicalSort_perm.map _).sum_nat, List.map_map]
      exact establishes.total

theorem decidedChanges_isSome {captured : Captured PathPolicy} :
    (decidedChanges (some captured) protectedSources changes).isSome = true ↔
      Establishes captured.value protectedSources changes ∧
        ∀ change, LastOfPath changes change → Admissible captured.value protectedSources change := by
  rw [Option.isSome_iff_exists]
  simp only [decidedChanges_some, exists_and_left, exists_eq, and_true]

theorem decidedChanges_unauthorized : decidedChanges none protectedSources changes = none := by
  unfold decidedChanges decideMaterialization
  split <;> rfl

open Classical in
/-- Some order ends every path that has such a change on one. -/
theorem exists_ending (changes : List ObservedChange) (holds : ObservedChange → Prop) : ∃ presented, changes.Perm presented ∧
    ∀ change, LastOfPath presented change →
      (∃ other ∈ changes, normalizePath other.path = normalizePath change.path ∧ holds other) → holds change := by
  refine ⟨changes.filter (fun change => !decide (holds change)) ++ changes.filter (fun change => decide (holds change)),
    (List.perm_append_comm.trans (List.filter_append_perm _ changes)).symm, fun change last ⟨other, member, path, held⟩ => ?_⟩
  unfold LastOfPath at last
  rw [List.filter_append] at last
  have ends : ((changes.filter fun change => decide (holds change)).filter fun other =>
      normalizePath other.path = normalizePath change.path) ≠ [] :=
    List.ne_nil_of_mem (List.mem_filter.mpr ⟨List.mem_filter.mpr ⟨member, by simp [held]⟩, by simp [path]⟩)
  rw [List.getLast?_append_of_ne_nil _ ends] at last
  exact of_decide_eq_true (List.mem_filter.mp (List.mem_filter.mp (List.mem_of_getLast? last)).1).2

end Decided

section Orders

variable {protectedSources : List String} {changes : List ObservedChange}

/-- A set is decided alike in every order exactly where its paths agree. -/
theorem decides_alike_iff (policy : Option (Captured PathPolicy)) :
    DecidesAlike policy protectedSources changes ↔ AgreedPaths policy protectedSources changes := by
  cases policy with
  | none =>
    refine ⟨fun _ captured absent => (nomatch absent), fun _ presented _ => ⟨?_, fun one other decided => ?_⟩⟩
    · rw [decidedChanges_unauthorized, decidedChanges_unauthorized]
    · rw [decidedChanges_unauthorized] at decided
      cases decided
  | some captured =>
    refine ⟨fun alike other same establishes => ?_, fun agreed presented perm => ?_⟩
    · cases same
      by_contra neither
      simp only [not_or, not_forall, not_exists, not_and, not_not] at neither
      obtain ⟨⟨refused, listed, inadmissible⟩, some_admissible⟩ := neither
      obtain ⟨best, reordered, best_last⟩ := exists_ending changes (Admissible captured.value protectedSources)
      obtain ⟨worst, shuffled, worst_last⟩ := exists_ending changes fun change => ¬ Admissible captured.value protectedSources change
      have proceeds := decidedChanges_isSome.mpr ⟨(Establishes.perm reordered).mp establishes, fun change last =>
        best_last change last (by simpa only [exists_prop] using some_admissible change (reordered.mem_iff.mpr last.mem))⟩
      have refuses : ¬ (decidedChanges (some captured) protectedSources worst).isSome = true := fun proceeds => by
        obtain ⟨last, found, same⟩ := LastOfPath.exists (shuffled.mem_iff.mp listed)
        exact worst_last last found ⟨refused, listed, same.symm, inadmissible⟩ ((decidedChanges_isSome.mp proceeds).2 last found)
      rw [(alike worst shuffled).1, ← (alike best reordered).1] at refuses
      exact refuses proceeds
    · have decided (presented : List ObservedChange) (perm : changes.Perm presented) :
          (decidedChanges (some captured) protectedSources presented).isSome = true ↔
            Establishes captured.value protectedSources changes ∧
              ∀ change ∈ changes, Admissible captured.value protectedSources change := by
        rw [decidedChanges_isSome, ← Establishes.perm perm]
        refine and_congr_right fun establishes => ⟨fun admissible => ?_, fun all change last => all change (perm.mem_iff.mpr last.mem)⟩
        rcases agreed captured rfl establishes with all | ⟨change, listed, none⟩
        · exact all
        · obtain ⟨last, found, same⟩ := LastOfPath.exists (perm.mem_iff.mp listed)
          exact absurd (admissible last found) (none last (perm.mem_iff.mpr found.mem) same)
      refine ⟨Bool.eq_iff_iff.mpr ((decided presented perm).trans (decided changes (.refl _)).symm), fun one other first second => ?_⟩
      rw [(decidedChanges_some.mp first).2, (decidedChanges_some.mp second).2]
      have derived : (canonicalSort (presented.map underNormal) (·.path)).Perm (canonicalSort (changes.map underNormal) (·.path)) :=
        canonicalSort_perm.trans ((perm.symm.map underNormal).trans canonicalSort_perm.symm)
      exact canonicalSort_perm.trans ((derived.map underNormal).trans canonicalSort_perm.symm)

end Orders

/-- Presentation order changes neither decision exactly where the changes of every path
agree and the claims are clear. -/
theorem presentation_order_iff (policy : Option (Captured PathPolicy)) (protectedSources : List String)
    (changes : List ObservedChange) (claims : RawClaims) :
    DecidesAlike policy protectedSources changes ∧ ReconcilesAlike changes claims ↔
      AgreedPaths policy protectedSources changes ∧ ClearClaims changes claims :=
  and_congr (decides_alike_iff policy) (reconciles_alike_iff claims)

/-- Two claims about one path that was observed as neither. -/
def divergentClaims : RawClaims :=
  .listed [.fields (some "docs/a.md") (some "created"), .fields (some "docs/a.md") (some "deleted")]

/-- The order of two changes of a path decides, and the order of two claims is recorded. -/
theorem order_shows : ¬ DecidesAlike (some shadowedPolicy) [] shadowedLink ∧
    ¬ ReconcilesAlike [⟨"docs/a.md", .modified, 8, none⟩] divergentClaims := by
  have normal : normalizePath "docs/a.md" = .ok "docs/a.md" := by decide +kernel
  have again : normalizePath "./docs/a.md" = .ok "docs/a.md" := by decide +kernel
  have target : normalizePath ".git/config" = .ok ".git/config" := by decide +kernel
  have prohibited : ¬ Writable shadowedPolicy.value [] ".git/config" := by
    rintro ⟨path, named, placed⟩
    cases named.symm.trans target
    exact absurd (placed.unprohibited ".git" (List.mem_singleton.mpr rfl)) (by decide +kernel)
  have writable : Writable shadowedPolicy.value [] "docs/a.md" := by
    refine ⟨_, normal, ⟨"docs", List.mem_singleton.mpr rfl, "docs", by decide +kernel, by decide +kernel⟩, ?_, nofun⟩
    exact List.forall_mem_singleton.mpr (by decide +kernel)
  refine ⟨fun alike => ?_, fun alike => ?_⟩
  · have establishes : Establishes shadowedPolicy.value [] shadowedLink :=
      ⟨nofun, List.forall_mem_singleton.mpr ⟨"docs", by decide +kernel⟩,
        List.forall_mem_cons.mpr ⟨fun _ same => by cases same; exact ⟨_, target⟩, List.forall_mem_singleton.mpr nofun⟩,
        by decide, by decide, by decide⟩
    rcases (decides_alike_iff _).mp alike shadowedPolicy rfl establishes with all | ⟨change, listed, refused⟩
    · exact prohibited ((all _ List.mem_cons_self).2 ".git/config" rfl)
    · have path : normalizePath change.path = .ok "docs/a.md" := by
        rcases List.mem_pair.mp listed with rfl | rfl
        · exact normal
        · exact again
      exact refused ⟨"./docs/a.md", .modified, 8, none⟩ (by simp [shadowedLink]) (again.trans path.symm)
        ⟨⟨_, again, writable⟩, fun _ linked => by cases linked⟩
  · have clear := (reconciles_alike_iff divergentClaims).mp alike _ rfl
    have kinds := (clear ⟨"docs/a.md", .created⟩ List.mem_cons_self (List.forall_mem_singleton.mpr fun _ => nofun) _
      List.mem_cons_self rfl).1 ⟨"docs/a.md", .deleted⟩ (List.mem_cons_of_mem _ List.mem_cons_self) rfl
      (List.forall_mem_singleton.mpr fun _ => nofun)
    cases kinds

end SecureHome.Core
