import SecureHome.Core.Materialize

/-! What a materialization that proceeds has established. The table of effective paths
keeps one entry a path, so only the last change of a path has its link followed. -/

namespace SecureHome.Core
open Lib Contracts

/-- A normalized path the policy lets a run write. -/
structure Placed (policy : PathPolicy) (protectedSources : List String) (path : String) : Prop where
  rooted : ∃ root ∈ policy.allowedWriteRoots, ∃ normal, normalizePath root = .ok normal ∧ isPathPrefix normal path = true
  unprohibited : ∀ pathPrefix ∈ policy.prohibitedPrefixes, isPathPrefix pathPrefix path = false
  unprotected : ∀ source ∈ protectedSources, ∀ normal, normalizePath source = .ok normal → isPathPrefix normal path = false

/-- A path whose normal form the policy lets a run write. -/
def Writable (policy : PathPolicy) (protectedSources : List String) (raw : String) : Prop :=
  ∃ path, normalizePath raw = .ok path ∧ Placed policy protectedSources path

/-- No later change has the same normalized path. -/
def LastOfPath (changes : List ObservedChange) (change : ObservedChange) : Prop :=
  (changes.filter fun other => normalizePath other.path = normalizePath change.path).getLast? = some change

/-- What a set that may be materialized satisfies. -/
structure Materialized (policy : PathPolicy) (protectedSources : List String) (observed returned : List ObservedChange) :
    Prop where
  placed : ∀ change ∈ observed, Writable policy protectedSources change.path
  linked : ∀ change ∈ observed, ∀ target, change.linkTarget = some target → Writable policy protectedSources target
  count : observed.length ≤ policy.maxFiles
  each : ∀ change ∈ observed, change.bytes ≤ policy.maxFileBytes
  total : (observed.map (·.bytes)).sum ≤ policy.maxTotalBytes
  returned : ∃ normalized, List.Forall₂ (fun change result => ∃ path, normalizePath change.path = .ok path ∧
    result = { change with path }) observed normalized ∧ returned.Perm normalized

/-- What the decision asks of a set: of a path with several changes, it follows the
link of the last. -/
structure Admits (policy : PathPolicy) (protectedSources : List String) (observed : List ObservedChange) : Prop where
  sources : ∀ source ∈ protectedSources, ∃ path, normalizePath source = .ok path
  roots : ∀ root ∈ policy.allowedWriteRoots, ∃ path, normalizePath root = .ok path
  placed : ∀ change ∈ observed, Writable policy protectedSources change.path
  targets : ∀ change ∈ observed, ∀ target, change.linkTarget = some target → ∃ path, normalizePath target = .ok path
  followed : ∀ change, LastOfPath observed change →
    ∀ target, change.linkTarget = some target → Writable policy protectedSources target
  count : observed.length ≤ policy.maxFiles
  each : ∀ change ∈ observed, change.bytes ≤ policy.maxFileBytes
  total : (observed.map (·.bytes)).sum ≤ policy.maxTotalBytes

/-- Where a change leads, once its link's target has a normal form. -/
def destination (change : ObservedChange) : String :=
  match change.linkTarget with
  | none => change.path
  | some target => (normalizePath target).toOption.getD change.path

section Table

variable {changes : List ObservedChange}

theorem effectiveEntry_destination {change : ObservedChange} {entry : String × String}
    (entered : effectiveEntry change = .ok entry) : entry = (change.path, destination change) := by
  unfold effectiveEntry at entered
  unfold destination
  cases linked : change.linkTarget with
  | none =>
    simp only [linked] at entered ⊢
    exact (Except.ok.inj entered).symm
  | some target =>
    simp only [linked] at entered ⊢
    cases normal : normalizePath target with
    | error reason => simp [normal] at entered
    | ok path =>
      simp only [normal] at entered
      exact (Except.ok.inj entered).symm

theorem effectiveEntry_isOk {change : ObservedChange} : (∃ entry, effectiveEntry change = .ok entry) ↔
    ∀ target, change.linkTarget = some target → ∃ path, normalizePath target = .ok path := by
  unfold effectiveEntry
  cases change.linkTarget with
  | none => simp
  | some target =>
    cases normal : normalizePath target <;> simp [normal]

/-- The table answers for a path with the last change of it. -/
theorem effectiveOf_last (path : String) : effectiveOf (changes.map fun change => (change.path, destination change)) path =
    (((changes.filter (·.path = path)).getLast?).map destination).getD path := by
  have looked (entries : List ObservedChange) :
      (entries.map fun change => (change.path, destination change)).lookup path =
        ((entries.filter (·.path = path)).head?).map destination := by
    induction entries with
    | nil => rfl
    | cons change rest ih =>
      rw [List.map_cons, List.lookup_cons, List.filter_cons, ih]
      by_cases same : change.path = path
      · simp [same]
      · simp [same, Ne.symm same, beq_false_of_ne]
  unfold effectiveOf
  rw [← List.map_reverse, looked, List.filter_reverse, List.head?_reverse]

end Table

/-- A change under its normal path, where it has one. -/
def underNormal (change : ObservedChange) : ObservedChange :=
  { change with path := (normalizePath change.path).toOption.getD change.path }

section Normalized

variable {observed changes : List ObservedChange} {subject : String}

theorem normalizedChange_ok {change result : ObservedChange} :
    normalizedChange subject change = .ok result ↔
      ∃ path, normalizePath change.path = .ok path ∧ result = { change with path } := by
  unfold normalizedChange
  cases normal : normalizePath change.path with
  | error reason => simp
  | ok path => simp [eq_comm]

theorem normalizedChange_under {change result : ObservedChange} (normalized : normalizedChange subject change = .ok result) :
    result = underNormal change := by
  obtain ⟨path, normal, rfl⟩ := normalizedChange_ok.mp normalized
  simp [underNormal, normal, Except.toOption]

/-- A normalized list is the list under its normal paths. -/
theorem normalized_map (normalized : observed.mapM (normalizedChange subject) = .ok changes) :
    changes = observed.map underNormal ∧
      ∀ change ∈ observed, normalizePath change.path = .ok (underNormal change).path := by
  have mapped := mapM_map normalized fun change _ result passed => normalizedChange_under passed
  refine ⟨mapped, fun change member => ?_⟩
  obtain ⟨result, passed⟩ := mapM_isOk.mp ⟨_, normalized⟩ change member
  obtain ⟨path, normal, rfl⟩ := normalizedChange_ok.mp passed
  rw [← normalizedChange_under passed]
  exact normal

theorem LastOfPath.mem {change : ObservedChange} (last : LastOfPath observed change) : change ∈ observed :=
  (List.mem_filter.mp (List.mem_of_getLast? last)).1

/-- Every path has a last change. -/
theorem LastOfPath.exists {change : ObservedChange} (member : change ∈ observed) :
    ∃ last, LastOfPath observed last ∧ normalizePath last.path = normalizePath change.path := by
  have some_last : (observed.filter fun other => normalizePath other.path = normalizePath change.path) ≠ [] :=
    List.ne_nil_of_mem (List.mem_filter.mpr ⟨member, by simp⟩)
  obtain ⟨last, found⟩ := Option.isSome_iff_exists.mp (List.getLast?_isSome.mpr some_last)
  have same : normalizePath last.path = normalizePath change.path := by
    simpa using (List.mem_filter.mp (List.mem_of_getLast? found)).2
  refine ⟨last, ?_, same⟩
  unfold LastOfPath
  rw [same]
  exact found

/-- The changes of a path, before and after they are normalized. -/
theorem normalized_run (normal : ∀ change ∈ observed, normalizePath change.path = .ok (underNormal change).path)
    (path : String) : (observed.map underNormal).filter (·.path = path) =
      (observed.filter fun change => normalizePath change.path = .ok path).map underNormal := by
  rw [List.filter_map]
  refine congrArg _ (List.filter_congr fun change member => ?_)
  rw [normal change member]
  simp

/-- Every path's effective location is where its last change leads. -/
theorem followed_iff {holds : String → Prop}
    (normal : ∀ change ∈ observed, normalizePath change.path = .ok (underNormal change).path) :
    (∀ change ∈ observed.map underNormal, holds (effectiveOf
        ((observed.map underNormal).map fun change => (change.path, destination change)) change.path)) ↔
      ∀ change, LastOfPath observed change → holds (destination (underNormal change)) := by
  have led {change : ObservedChange} (last : LastOfPath observed change) : effectiveOf
      ((observed.map underNormal).map fun change => (change.path, destination change)) (underNormal change).path =
        destination (underNormal change) := by
    unfold LastOfPath at last
    rw [normal change (LastOfPath.mem last)] at last
    rw [effectiveOf_last, normalized_run normal, List.getLast?_map, last]
    rfl
  refine ⟨fun held change last => ?_, fun held change member => ?_⟩
  · rw [← led last]
    exact held _ (List.mem_map_of_mem last.mem)
  · obtain ⟨raw, listed, rfl⟩ := List.mem_map.mp member
    obtain ⟨latest, last, same⟩ := LastOfPath.exists listed
    have path : (underNormal latest).path = (underNormal raw).path := by
      unfold underNormal
      simp only [same]
      rw [normal raw listed]
      rfl
    rw [← path, led last]
    exact held latest last

end Normalized

section Decide

variable {policy : PathPolicy} {protectedSources : List String} {prefixes roots : List String}

theorem protectedPrefixes_ok : protectedPrefixes policy protectedSources = .ok prefixes ↔
    ∃ normalized, (protectedSources.mapM fun source => (normalizePath source).mapError fun reason =>
        Refusal.mk .pathUndecidable source none
          (s!"protected authority source cannot be normalized: {reason} — an unestablishable protection refuses " ++
            "rather than lapsing")) = .ok normalized ∧ prefixes = policy.prohibitedPrefixes ++ normalized := by
  unfold protectedPrefixes
  refine bind_ok.trans (exists_congr fun normalized => and_congr_right fun _ => ?_)
  exact ⟨fun same => by cases same; rfl, fun same => by rw [same]; rfl⟩

/-- Under an established policy a path is placed as the decision asks. -/
theorem placed_iff (protects : protectedPrefixes policy protectedSources = .ok prefixes)
    (rooted : normalizedRoots policy = .ok roots) (path : String) :
    Placed policy protectedSources path ↔
      (∃ root ∈ roots, isPathPrefix root path = true) ∧ ∀ pathPrefix ∈ prefixes, isPathPrefix pathPrefix path = false := by
  obtain ⟨normalized, sources, rfl⟩ := protectedPrefixes_ok.mp protects
  have roots_mem (normal : String) : normal ∈ roots ↔ ∃ root ∈ policy.allowedWriteRoots, normalizePath root = .ok normal := by
    rw [mapM_mem rooted]
    simp only [mapError_ok]
  have sources_mem (normal : String) : normal ∈ normalized ↔ ∃ source ∈ protectedSources, normalizePath source = .ok normal := by
    rw [mapM_mem sources]
    simp only [mapError_ok]
  refine ⟨fun placed => ⟨?_, fun pathPrefix listed => ?_⟩, fun placed => ⟨?_, fun pathPrefix listed => ?_, fun source listed normal named => ?_⟩⟩
  · obtain ⟨root, listed, normal, named, covers⟩ := placed.rooted
    exact ⟨normal, (roots_mem normal).mpr ⟨root, listed, named⟩, covers⟩
  · rcases List.mem_append.mp listed with prohibited | covered
    · exact placed.unprohibited pathPrefix prohibited
    · obtain ⟨source, named, normal⟩ := (sources_mem pathPrefix).mp covered
      exact placed.unprotected source named pathPrefix normal
  · obtain ⟨normal, listed, covers⟩ := placed.1
    obtain ⟨root, declared, named⟩ := (roots_mem normal).mp listed
    exact ⟨root, declared, normal, named, covers⟩
  · exact placed.2 pathPrefix (List.mem_append_left _ listed)
  · exact placed.2 normal (List.mem_append_right _ ((sources_mem normal).mpr ⟨source, listed, named⟩))

theorem refuseIf_ok {Value : Type} {refusal : Option Refusal} {next : Unit → Except Refusal Value} {value : Value} :
    (refuseIf refusal).bind next = .ok value ↔ refusal = none ∧ next () = .ok value := by
  cases refusal <;> simp [refuseIf, Except.bind]

theorem protectedRefusal_none {effectivePaths : List (String × String)} {change : ObservedChange} :
    protectedRefusal prefixes roots effectivePaths change = none ↔ ∀ pathPrefix ∈ prefixes,
      isPathPrefix pathPrefix change.path = false ∧ isPathPrefix pathPrefix (effectiveOf effectivePaths change.path) = false := by
  simp [protectedRefusal, List.find?_eq_none]

theorem outsideRefusal_none {effectivePaths : List (String × String)} {change : ObservedChange} :
    outsideRefusal roots effectivePaths change = none ↔ (∃ root ∈ roots, isPathPrefix root change.path = true) ∧
      ∃ root ∈ roots, isPathPrefix root (effectiveOf effectivePaths change.path) = true := by
  unfold outsideRefusal
  dsimp only
  split
  next outside => simp_all
  next inside =>
    split
    next led => simp_all
    next led =>
      simp only [Bool.not_eq_true, Bool.not_eq_false', List.any_eq_true] at inside
      refine ⟨fun _ => ⟨inside, ?_⟩, fun _ => rfl⟩
      by_cases same : effectiveOf effectivePaths change.path = change.path
      · rw [same]
        exact inside
      · simpa [same] using led

theorem overBound_none {changes : List ObservedChange} : overBound policy changes = none ↔
    changes.length ≤ policy.maxFiles ∧ (∀ change ∈ changes, change.bytes ≤ policy.maxFileBytes) ∧
      (changes.map (·.bytes)).sum ≤ policy.maxTotalBytes := by
  unfold overBound
  dsimp only
  split
  next above => simp; omega
  next within =>
    split
    next change oversized =>
      have found := List.find?_some oversized
      have member := List.mem_of_find?_eq_some oversized
      simp only [gt_iff_lt, decide_eq_true_eq] at found
      refine ⟨fun never => (nomatch never), fun held => absurd (held.2.1 change member) (by omega)⟩
    next none_oversized =>
      rw [List.find?_eq_none] at none_oversized
      split
      next above => simp; omega
      next bounded =>
        refine ⟨fun _ => ⟨by omega, fun change member => ?_, by omega⟩, fun _ => rfl⟩
        simpa using none_oversized change member

theorem destination_writable {change : ObservedChange}
    (targets : ∀ target, change.linkTarget = some target → ∃ path, normalizePath target = .ok path)
    (placed : Placed policy protectedSources (underNormal change).path) :
    Placed policy protectedSources (destination (underNormal change)) ↔
      ∀ target, change.linkTarget = some target → Writable policy protectedSources target := by
  unfold destination
  have kept : (underNormal change).linkTarget = change.linkTarget := rfl
  rw [kept]
  cases linked : change.linkTarget with
  | none => exact ⟨fun _ _ absent => (nomatch absent), fun _ => placed⟩
  | some target =>
    obtain ⟨path, normal⟩ := targets target linked
    dsimp only
    refine ⟨fun led other same => ?_, fun writable => ?_⟩
    · cases same
      rw [normal] at led
      exact ⟨path, normal, led⟩
    · obtain ⟨other, named, led⟩ := writable target rfl
      rw [named]
      exact led

/-- Neither pass refuses exactly where every change and where its path leads are placed. -/
theorem refusals_none (protects : protectedPrefixes policy protectedSources = .ok prefixes)
    (rooted : normalizedRoots policy = .ok roots) {changes : List ObservedChange} {effectivePaths : List (String × String)} :
    changes.findSome? (protectedRefusal prefixes roots effectivePaths) = none ∧
        changes.findSome? (outsideRefusal roots effectivePaths) = none ↔
      ∀ change ∈ changes, Placed policy protectedSources change.path ∧
        Placed policy protectedSources (effectiveOf effectivePaths change.path) := by
  simp only [List.findSome?_eq_none_iff, protectedRefusal_none, outsideRefusal_none, placed_iff protects rooted]
  refine ⟨fun held change member => ?_, fun held => ⟨fun change member pathPrefix listed => ?_, fun change member => ?_⟩⟩
  · obtain ⟨placed, led⟩ := held.2 change member
    exact ⟨⟨placed, fun pathPrefix listed => (held.1 change member pathPrefix listed).1⟩,
      led, fun pathPrefix listed => (held.1 change member pathPrefix listed).2⟩
  · exact ⟨(held change member).1.2 pathPrefix listed, (held change member).2.2 pathPrefix listed⟩
  · exact ⟨(held change member).1.1, (held change member).2.1⟩

/-- The passes, in the order they are made. -/
theorem materialize_passes {observed : List ObservedChange} {value : Materializable} :
    materialize policy observed protectedSources = .ok value ↔
      ∃ prefixes, protectedPrefixes policy protectedSources = .ok prefixes ∧
      ∃ roots, normalizedRoots policy = .ok roots ∧
      ∃ changes, observed.mapM (normalizedChange "path") = .ok changes ∧
      ∃ effectivePaths, changes.mapM effectiveEntry = .ok effectivePaths ∧
      changes.findSome? (protectedRefusal prefixes roots effectivePaths) = none ∧
      changes.findSome? (outsideRefusal roots effectivePaths) = none ∧ overBound policy changes = none ∧
      value = ⟨canonicalSort changes (·.path), ["max_files", "max_file_bytes", "max_total_bytes"]⟩ := by
  unfold materialize
  refine bind_ok.trans (exists_congr fun prefixes => and_congr_right fun _ => ?_)
  refine bind_ok.trans (exists_congr fun roots => and_congr_right fun _ => ?_)
  refine bind_ok.trans (exists_congr fun changes => and_congr_right fun _ => ?_)
  refine bind_ok.trans (exists_congr fun effectivePaths => and_congr_right fun _ => ?_)
  refine refuseIf_ok.trans (and_congr_right fun _ => refuseIf_ok.trans (and_congr_right fun _ =>
    refuseIf_ok.trans (and_congr_right fun _ => ?_)))
  exact ⟨fun same => by cases same; rfl, fun same => by rw [same]; rfl⟩

theorem protectedPrefixes_isOk : (∃ prefixes, protectedPrefixes policy protectedSources = .ok prefixes) ↔
    ∀ source ∈ protectedSources, ∃ path, normalizePath source = .ok path := by
  simp only [protectedPrefixes_ok]
  refine ⟨fun ⟨_, normalized, ended, _⟩ => ?_, fun normal => ?_⟩
  · simpa only [mapError_ok] using mapM_isOk.mp ⟨normalized, ended⟩
  · refine exists_comm.mp ?_
    simp only [exists_and_left, exists_eq, and_true, mapM_isOk, mapError_ok]
    exact normal

theorem normalizedRoots_isOk : (∃ roots, normalizedRoots policy = .ok roots) ↔
    ∀ root ∈ policy.allowedWriteRoots, ∃ path, normalizePath root = .ok path := by
  unfold normalizedRoots
  simp only [mapM_isOk, mapError_ok]

/-- The decision proceeds exactly for the sets it admits, and returns them normalized. -/
theorem materialize_ok {observed : List ObservedChange} {value : Materializable} :
    materialize policy observed protectedSources = .ok value ↔
      Admits policy protectedSources observed ∧ value = ⟨canonicalSort (observed.map underNormal) (·.path),
        ["max_files", "max_file_bytes", "max_total_bytes"]⟩ := by
  rw [materialize_passes]
  constructor
  · rintro ⟨prefixes, protects, roots, rooted, changes, normalized, effectivePaths, entered, protects_all, inside, within, rfl⟩
    obtain ⟨rfl, normal⟩ := normalized_map normalized
    obtain rfl := mapM_map entered fun change _ entry passed => effectiveEntry_destination passed
    have placed := (refusals_none protects rooted).mp ⟨protects_all, inside⟩
    have targets (change : ObservedChange) (member : change ∈ observed) :
        ∀ target, change.linkTarget = some target → ∃ path, normalizePath target = .ok path :=
      (@effectiveEntry_isOk (underNormal change)).mp (mapM_isOk.mp ⟨_, entered⟩ _ (List.mem_map_of_mem member))
    obtain ⟨count, each, total⟩ := overBound_none.mp within
    refine ⟨⟨protectedPrefixes_isOk.mp ⟨_, protects⟩, normalizedRoots_isOk.mp ⟨_, rooted⟩, fun change member => ?_, targets,
      fun change last => ?_, by simpa using count, fun change member => each (underNormal change) (List.mem_map_of_mem member), ?_⟩, rfl⟩
    · exact ⟨_, normal change member, (placed _ (List.mem_map_of_mem member)).1⟩
    · refine (destination_writable (targets change last.mem) (placed _ (List.mem_map_of_mem last.mem)).1).mp ?_
      exact (followed_iff normal).mp (fun change member => (placed change member).2) change last
    · rw [List.map_map] at total
      exact total
  · rintro ⟨admits, rfl⟩
    obtain ⟨prefixes, protects⟩ := protectedPrefixes_isOk.mpr admits.sources
    obtain ⟨roots, rooted⟩ := normalizedRoots_isOk.mpr admits.roots
    obtain ⟨changes, normalized⟩ := mapM_isOk.mpr fun change member => by
      obtain ⟨path, normal, _⟩ := admits.placed change member
      exact ⟨_, (@normalizedChange_ok "path" change _).mpr ⟨path, normal, rfl⟩⟩
    obtain ⟨rfl, normal⟩ := normalized_map normalized
    have leads : ∀ change ∈ observed.map underNormal, ∃ entry, effectiveEntry change = .ok entry := fun change member => by
      obtain ⟨raw, listed, rfl⟩ := List.mem_map.mp member
      exact effectiveEntry_isOk.mpr (admits.targets raw listed)
    obtain ⟨effectivePaths, entered⟩ := mapM_isOk.mpr leads
    obtain rfl := mapM_map entered fun change _ entry passed => effectiveEntry_destination passed
    have placed (change : ObservedChange) (member : change ∈ observed) :
        Placed policy protectedSources (underNormal change).path := by
      obtain ⟨path, named, placed⟩ := admits.placed change member
      cases (normal change member).symm.trans named
      exact placed
    have led := (followed_iff normal).mpr fun change last =>
      (destination_writable (admits.targets change last.mem) (placed change last.mem)).mpr (admits.followed change last)
    obtain ⟨protects_all, inside⟩ := (refusals_none protects rooted).mpr fun change member => by
      refine ⟨?_, led change member⟩
      obtain ⟨raw, listed, rfl⟩ := List.mem_map.mp member
      exact placed raw listed
    refine ⟨prefixes, protects, roots, rooted, _, normalized, _, entered, protects_all, inside,
      overBound_none.mpr ⟨by simpa using admits.count, fun change member => ?_, ?_⟩, rfl⟩
    · obtain ⟨raw, listed, rfl⟩ := List.mem_map.mp member
      exact admits.each raw listed
    · rw [List.map_map]
      exact admits.total

theorem decideMaterialization_proceed {captured : Captured PathPolicy} {observed : AuthoritativeChangeSet}
    {value : Materializable} : decideMaterialization (some captured) observed protectedSources = .proceed value ↔
      materialize captured.value observed.changes protectedSources = .ok value := by
  simp only [decideMaterialization]
  split
  next ended => simp [ended]
  next ended => simp [ended]

end Decide

/-- A set that may be materialized is sound exactly when every change that a later change
of its path follows has a link, if any, that leads where the run may write. -/
theorem materialization_sound_iff (policy : Captured PathPolicy) (observed : AuthoritativeChangeSet)
    (protectedSources : List String) (value : Materializable)
    (proceeds : decideMaterialization (some policy) observed protectedSources = .proceed value) :
    Materialized policy.value protectedSources observed.changes value.changes ↔
      ∀ change ∈ observed.changes, ¬ LastOfPath observed.changes change →
        ∀ target, change.linkTarget = some target → Writable policy.value protectedSources target := by
  obtain ⟨admits, rfl⟩ := materialize_ok.mp (decideMaterialization_proceed.mp proceeds)
  refine ⟨fun sound change member _ => sound.linked change member, fun followed =>
    ⟨admits.placed, fun change member => ?_, admits.count, admits.each, admits.total, ?_⟩⟩
  · by_cases last : LastOfPath observed.changes change
    · exact admits.followed change last
    · exact followed change member last
  · refine ⟨observed.changes.map underNormal, ?_, canonicalSort_perm⟩
    rw [List.forall₂_map_right_iff, List.forall₂_same]
    intro change member
    obtain ⟨path, normal, _⟩ := admits.placed change member
    exact ⟨path, normal, by simp [underNormal, normal, Except.toOption]⟩

def shadowedPolicy : Captured PathPolicy :=
  ⟨"path_policy", "", ⟨"path-policy", "2.0.0", ""⟩, ⟨["docs"], [".git"], 8, 4096, 1024⟩⟩

/-- A link into prohibited material, and a later change of the same path. -/
def shadowedLink : List ObservedChange :=
  [⟨"docs/a.md", .created, 8, some ".git/config"⟩, ⟨"./docs/a.md", .modified, 8, none⟩]

/-- What the set materializes to. -/
def shadowedMaterial : Materializable :=
  ⟨canonicalSort (shadowedLink.map underNormal) (·.path), ["max_files", "max_file_bytes", "max_total_bytes"]⟩

theorem shadowedLink_proceeds :
    decideMaterialization (some shadowedPolicy) ⟨shadowedLink⟩ [] = .proceed shadowedMaterial := by
  have ends : (materialize shadowedPolicy.value shadowedLink []).isOk = true := by decide
  cases ended : materialize shadowedPolicy.value shadowedLink [] with
  | error refusal => rw [ended] at ends; cases ends
  | ok value =>
    rw [(materialize_ok.mp ended).2] at ended
    exact decideMaterialization_proceed.mpr ended

theorem shadowedLink_sound_iff : Materialized shadowedPolicy.value [] shadowedLink shadowedMaterial.changes ↔
    ∀ change ∈ shadowedLink, ¬ LastOfPath shadowedLink change →
      ∀ target, change.linkTarget = some target → Writable shadowedPolicy.value [] target :=
  materialization_sound_iff shadowedPolicy ⟨shadowedLink⟩ [] shadowedMaterial shadowedLink_proceeds

/-- The set proceeds, and its link leads into what the policy prohibits. -/
theorem shadowedLink_unsound : decideMaterialization (some shadowedPolicy) ⟨shadowedLink⟩ [] = .proceed shadowedMaterial ∧
    ¬ Materialized shadowedPolicy.value [] shadowedLink shadowedMaterial.changes := by
  refine ⟨shadowedLink_proceeds, fun sound => ?_⟩
  obtain ⟨path, normal, placed⟩ := sound.linked _ List.mem_cons_self ".git/config" rfl
  have named : normalizePath ".git/config" = .ok ".git/config" := by decide
  cases normal.symm.trans named
  have prohibited := placed.unprohibited ".git" (List.mem_singleton.mpr rfl)
  exact absurd prohibited (by decide)

end SecureHome.Core
