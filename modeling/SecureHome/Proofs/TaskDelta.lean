import SecureHome.Proofs.ManifestRoundTrip
import SecureHome.Toolchain.TaskDelta

/-! What a task delta may change of a release: optional members go, modules the release does not
pin come in as the catalogue has them, and everything else stays. -/

namespace SecureHome.Proofs.TaskDelta
open Lib Toolchain

variable {nfc : JsString → JsString} {sha256 : List UInt8 → String} {release other : LogicalRelease} {delta changed : Toolchain.TaskDelta}
  {catalogue : List MemberCandidate} {member : ReleaseMember}

section Checks

/-- What is asked of a delta. -/
structure AcceptedDelta (delta : Toolchain.TaskDelta) : Prop where
  added : ∀ id ∈ delta.add, moduleId id = true
  addedOnce : delta.add.Nodup
  narrowed : ∀ id ∈ delta.narrow, moduleId id = true
  narrowedOnce : delta.narrow.Nodup
  apart : ∀ id ∈ delta.narrow, id ∉ delta.add

theorem idRefusals_nil {kind : String} {seen ids : List JsString} : idRefusals kind seen ids = [] ↔
    (∀ id ∈ ids, moduleId id = true ∧ id ∉ seen) ∧ ids.Nodup := by
  induction ids generalizing seen with
  | nil => simp [idRefusals]
  | cons id rest ih =>
    rw [idRefusals, List.append_eq_nil_iff, List.append_eq_nil_iff, ih, List.forall_mem_cons, List.nodup_cons]
    simp only [ite_eq_left_iff, ite_eq_right_iff, reduceCtorEq, imp_false, List.mem_cons, not_or, Bool.not_eq_true, Bool.not_eq_false]
    grind

theorem deltaRefusals_nil : deltaRefusals delta = [] ↔ AcceptedDelta delta := by
  have apart : (delta.narrow.flatMap fun id => if id ∈ delta.add then
      [(⟨"delta.contradiction", quoted id ++ units " is both added and narrowed"⟩ : ReleaseRefusal)] else []) = [] ↔
      ∀ id ∈ delta.narrow, id ∉ delta.add := by
    rw [List.flatMap_eq_nil_iff]
    simp only [ite_eq_right_iff, reduceCtorEq, imp_false]
  unfold deltaRefusals
  rw [List.append_eq_nil_iff, List.append_eq_nil_iff, idRefusals_nil, idRefusals_nil, apart]
  constructor
  · rintro ⟨⟨⟨added, addedOnce⟩, narrowed, narrowedOnce⟩, apart⟩
    exact ⟨fun id member => (added id member).1, addedOnce, fun id member => (narrowed id member).1, narrowedOnce, apart⟩
  · intro accepted
    exact ⟨⟨⟨fun id member => ⟨accepted.added id member, List.not_mem_nil⟩, accepted.addedOnce⟩,
      fun id member => ⟨accepted.narrowed id member, List.not_mem_nil⟩, accepted.narrowedOnce⟩, accepted.apart⟩

/-- What is asked of a selection. -/
structure AcceptedSelection (nfc : JsString → JsString) (resolved : ResolvedSelection) : Prop where
  familyToken : tokenProblem nfc resolved.family = none
  family : setFamilyId resolved.family = true
  releaseDigest : prefixedSha256 resolved.releaseDigest = true
  taskDeltaDigest : prefixedSha256 resolved.taskDeltaDigest = true
  version : releaseVersion resolved.version = true
  readable : ∀ member ∈ resolved.modules, ReadableMember nfc member
  distinct : (resolved.modules.map (·.id)).Nodup

theorem moduleRefusals_nil {seen : List JsString} {members : List ReleaseMember} : moduleRefusals nfc seen members = [] ↔
    (∀ member ∈ members, ReadableMember nfc member ∧ member.id ∉ seen) ∧ (members.map (·.id)).Nodup := by
  induction members generalizing seen with
  | nil => simp [moduleRefusals]
  | cons member rest ih =>
    have readable : ReadableMember nfc member ↔
        (moduleId member.id = true ∧ tokenProblem nfc member.version = none) ∧ bareSha256 member.digest = true :=
      ⟨fun readable => ⟨⟨readable.id, readable.version⟩, readable.digest⟩, fun ⟨⟨id, version⟩, digest⟩ => ⟨id, digest, version⟩⟩
    rw [moduleRefusals]
    simp only [List.append_eq_nil_iff, problemRefusal_nil, ih, List.map_cons, List.nodup_cons, ite_eq_left_iff, ite_eq_right_iff,
        reduceCtorEq, imp_false, Bool.not_eq_true, Bool.not_eq_false, List.mem_cons, not_or, List.mem_map]
    grind

theorem resolvedRefusals_nil {resolved : ResolvedSelection} : resolvedRefusals nfc resolved = [] ↔ AcceptedSelection nfc resolved := by
  unfold resolvedRefusals prefixedRefusal
  simp only [List.append_eq_nil_iff, problemRefusal_nil, moduleRefusals_nil, ite_eq_left_iff, ite_eq_right_iff, reduceCtorEq, imp_false,
    Bool.not_eq_true, Bool.not_eq_false, List.not_mem_nil, not_false_eq_true, and_true]
  constructor
  · rintro ⟨⟨⟨⟨⟨token, family⟩, release⟩, delta⟩, version⟩, readable, distinct⟩
    exact ⟨token, by simpa [token] using family, release, delta, version, readable, distinct⟩
  · intro accepted
    have family : ¬(tokenProblem nfc resolved.family = none ∧ setFamilyId resolved.family = false) := by simp [accepted.family]
    exact ⟨⟨⟨⟨⟨accepted.familyToken, family⟩, accepted.releaseDigest⟩, accepted.taskDeltaDigest⟩, accepted.version⟩,
      accepted.readable, accepted.distinct⟩

end Checks

section Steps

variable {id : JsString} {state : Toolchain.Selecting} {narrow add : List JsString} {added : List ReleaseMember}

theorem narrowMember_refusals : (narrowMember release state id).refusals = [] ↔
    state.refusals = [] ∧ id ∉ release.required.map (·.id) ∧ id ∈ state.selected.map Prod.fst := by
  unfold narrowMember Selecting.refuse
  split
  next required => simp [required]
  split
  next absent => simp [absent]
  next optional selected => simp only [optional, not_not.mp selected, not_false_eq_true, and_true]

theorem narrowMember_selected (passed : (narrowMember release state id).refusals = []) :
    (narrowMember release state id).selected = state.selected.filter fun entry => entry.1 != id := by
  obtain ⟨_, optional, selected⟩ := narrowMember_refusals.mp passed
  unfold narrowMember
  rw [if_neg optional, if_neg (not_not.mpr selected)]

/-- Narrowing passes exactly if it names selected members that are not required, each once. -/
theorem narrow_refusals : (narrow.foldl (narrowMember release) state).refusals = [] ↔ state.refusals = [] ∧
    (∀ id ∈ narrow, id ∉ release.required.map (·.id) ∧ id ∈ state.selected.map Prod.fst) ∧ narrow.Nodup := by
  induction narrow generalizing state with
  | nil => simp
  | cons id rest ih =>
    rw [List.foldl_cons, ih, narrowMember_refusals, List.forall_mem_cons, List.nodup_cons]
    constructor
    · rintro ⟨⟨quiet, optional, selected⟩, later, distinct⟩
      have passed : (narrowMember release state id).refusals = [] := narrowMember_refusals.mpr ⟨quiet, optional, selected⟩
      rw [narrowMember_selected passed] at later
      refine ⟨quiet, ⟨⟨optional, selected⟩, fun other member => ⟨(later other member).1, ?_⟩⟩, fun again => ?_, distinct⟩
      · obtain ⟨entry, kept, rfl⟩ := List.mem_map.mp (later other member).2
        exact List.mem_map_of_mem (List.mem_filter.mp kept).1
      · obtain ⟨entry, kept, same⟩ := List.mem_map.mp (later id again).2
        simp [same] at kept
    · rintro ⟨quiet, ⟨⟨optional, selected⟩, later⟩, fresh, distinct⟩
      have passed : (narrowMember release state id).refusals = [] := narrowMember_refusals.mpr ⟨quiet, optional, selected⟩
      rw [narrowMember_selected passed]
      refine ⟨⟨quiet, optional, selected⟩, fun other member => ⟨(later other member).1, ?_⟩, distinct⟩
      obtain ⟨entry, kept, rfl⟩ := List.mem_map.mp (later other member).2
      exact List.mem_map_of_mem (List.mem_filter.mpr ⟨kept, by simpa using fun same : entry.1 = id => fresh (same ▸ member)⟩)

theorem narrow_selected (passed : (narrow.foldl (narrowMember release) state).refusals = []) :
    (narrow.foldl (narrowMember release) state).selected = state.selected.filter fun entry => decide (entry.1 ∉ narrow) := by
  induction narrow generalizing state with
  | nil => simp
  | cons id rest ih =>
    rw [List.foldl_cons] at passed ⊢
    have here := (narrow_refusals.mp passed).1
    rw [ih passed, narrowMember_selected here, List.filter_filter]
    congr 1
    funext entry
    simp only [List.mem_cons, not_or, Bool.decide_and]
    by_cases same : entry.1 = id <;> simp [same]

theorem addition_refused {refusals : List ReleaseRefusal} (refused : addition nfc release catalogue id = .error refusals) :
    refusals ≠ [] := by
  unfold addition at refused
  dsimp only at refused
  split at refused
  · cases refused
    exact List.cons_ne_nil _ _
  split at refused
  · cases refused
    exact List.cons_ne_nil _ _
  split at refused
  · split at refused
    · cases refused
      exact List.cons_ne_nil _ _
    · cases refused
  next wrong =>
    cases refused
    intro quiet
    cases found : (catalogue.foldl (fun rows row => put rows row.id row) []).lookup id with
    | none => simp [found, memberProblems] at quiet
    | some candidate => exact wrong candidate quiet found

theorem addModule_refused {refusals : List ReleaseRefusal} (refused : addition nfc release catalogue id = .error refusals) :
    (addModule nfc release catalogue state id).refusals ≠ [] := by
  unfold addModule
  rw [refused]
  exact fun quiet => addition_refused refused (List.append_eq_nil_iff.mp quiet).2

theorem addModule_passed (pinned : addition nfc release catalogue id = .ok member) :
    addModule nfc release catalogue state id = { state with selected := put state.selected id member } := by
  unfold addModule
  rw [pinned]

/-- Adding passes exactly if every module can be pinned. -/
theorem add_refusals : (add.foldl (addModule nfc release catalogue) state).refusals = [] ↔
    state.refusals = [] ∧ ∃ added, add.mapM (addition nfc release catalogue) = .ok added := by
  rw [mapM_isOk]
  induction add generalizing state with
  | nil => simp
  | cons id rest ih =>
    rw [List.foldl_cons, ih, List.forall_mem_cons]
    cases pinned : addition nfc release catalogue id with
    | error refusals => simp [addModule_refused pinned]
    | ok member => simp [addModule_passed pinned]

theorem addition_id (pinned : addition nfc release catalogue id = .ok member) : member.id = id := by
  unfold addition at pinned
  dsimp only at pinned
  split at pinned
  · cases pinned
  split at pinned
  · cases pinned
  split at pinned
  · split at pinned
    · cases pinned
    · cases pinned
      rfl
  · cases pinned

theorem add_selected (pinned : add.mapM (addition nfc release catalogue) = .ok added) :
    (add.foldl (addModule nfc release catalogue) state).selected =
      (added.map fun member => (member.id, member)).foldl (fun held entry => put held entry.1 entry.2) state.selected := by
  have paired := mapM_ok.mp pinned
  clear pinned
  induction paired generalizing state with
  | nil => rfl
  | cons passed _ ih => rw [List.foldl_cons, List.map_cons, List.foldl_cons, addModule_passed passed, ih, addition_id passed]

end Steps

section Selection

variable {id : JsString} {added : List ReleaseMember} {selection : ResolvedSelection}

/-- The pinned members that are not narrowed, and behind them what is added. -/
def selectedModules (release : LogicalRelease) (delta : Toolchain.TaskDelta) (added : List ReleaseMember) : List ReleaseMember :=
  (release.members.filter fun member => decide (member.id ∉ delta.narrow)) ++ added

/-- What a release grants a delta, with the members that are added. -/
structure Granted (nfc : JsString → JsString) (release : LogicalRelease) (delta : Toolchain.TaskDelta) (catalogue : List MemberCandidate)
    (added : List ReleaseMember) : Prop where
  accepted : Accepted nfc release
  asked : AcceptedDelta delta
  additions : delta.add = [] ∨ release.allowTaskAdditions = true
  narrowings : delta.narrow = [] ∨ release.allowTaskNarrowing = true
  optional : ∀ id ∈ delta.narrow, id ∉ release.required.map (·.id) ∧ id ∈ release.members.map (·.id)
  pinned : delta.add.mapM (addition nfc release catalogue) = .ok added

theorem members_distinct (accepted : Accepted nfc release) : (release.members.map (·.id)).Nodup := by
  unfold LogicalRelease.members
  rw [List.map_append, List.nodup_append]
  refine ⟨accepted.required.distinct, accepted.optional.distinct, fun id required other optional same => ?_⟩
  obtain ⟨member, listed, rfl⟩ := List.mem_map.mp optional
  exact accepted.apart member listed (same ▸ required)

theorem addition_fresh (pinned : addition nfc release catalogue id = .ok member) : id ∉ release.members.map (·.id) := by
  unfold addition at pinned
  dsimp only at pinned
  split at pinned
  · cases pinned
  · assumption

theorem added_ids {ids : List JsString} (pinned : ids.mapM (addition nfc release catalogue) = .ok added) : added.map (·.id) = ids := by
  have paired := mapM_ok.mp pinned
  clear pinned
  induction paired with
  | nil => rfl
  | cons passed _ ih => rw [List.map_cons, ih, addition_id passed]

/-- No module is selected twice. -/
theorem Granted.distinct (granted : Granted nfc release delta catalogue added) :
    ((selectedModules release delta added).map (·.id)).Nodup := by
  unfold selectedModules
  rw [List.map_append, added_ids granted.pinned, List.nodup_append]
  refine ⟨?_, granted.asked.addedOnce, fun id listed other fresh same => ?_⟩
  · exact (members_distinct granted.accepted).sublist (List.filter_sublist.map _)
  · obtain ⟨member, kept, rfl⟩ := List.mem_map.mp listed
    obtain ⟨pin, passed⟩ := mapM_isOk.mp ⟨_, granted.pinned⟩ other fresh
    exact addition_fresh passed (same ▸ List.mem_map_of_mem (List.mem_filter.mp kept).1)

theorem startSelecting_refusals : (startSelecting release delta).refusals = [] ↔
    (delta.add = [] ∨ release.allowTaskAdditions = true) ∧ (delta.narrow = [] ∨ release.allowTaskNarrowing = true) := by
  unfold startSelecting
  simp only [List.append_eq_nil_iff, ite_eq_right_iff, reduceCtorEq, imp_false, not_and, not_not, Decidable.or_iff_not_imp_left, ne_eq]

theorem startSelecting_selected (accepted : Accepted nfc release) :
    (startSelecting release delta).selected = release.members.map fun member => (member.id, member) := by
  have distinct := members_distinct accepted
  have put := @puts_fresh JsString ReleaseMember _ _ [] (release.members.map fun member => (member.id, member))
    (by simpa [Function.comp_def] using distinct)
  rw [List.foldl_map, List.nil_append] at put
  exact put

/-- The modules a selection ends with, once nothing is refused. -/
theorem selecting_ok (accepted : Accepted nfc release) (asked : AcceptedDelta delta) :
    (selecting nfc release delta catalogue).refusals = [] ↔ ∃ added, Granted nfc release delta catalogue added := by
  have keys : (startSelecting release delta).selected.map Prod.fst = release.members.map (·.id) := by
    rw [startSelecting_selected accepted, List.map_map]
    rfl
  unfold selecting
  rw [add_refusals, narrow_refusals, startSelecting_refusals, keys]
  constructor
  · rintro ⟨⟨⟨additions, narrowings⟩, optional, _⟩, added, pinned⟩
    exact ⟨added, accepted, asked, additions, narrowings, optional, pinned⟩
  · rintro ⟨added, granted⟩
    exact ⟨⟨⟨granted.additions, granted.narrowings⟩, granted.optional, asked.narrowedOnce⟩, added, granted.pinned⟩

theorem selecting_selected (granted : Granted nfc release delta catalogue added) :
    (selecting nfc release delta catalogue).selected.map Prod.snd = selectedModules release delta added := by
  have quiet := (selecting_ok granted.accepted granted.asked).mpr ⟨added, granted⟩
  unfold selecting at quiet ⊢
  have narrowed := (add_refusals.mp quiet).1
  have kept : (delta.narrow.foldl (narrowMember release) (startSelecting release delta)).selected =
      (release.members.filter fun member => decide (member.id ∉ delta.narrow)).map fun member => (member.id, member) := by
    rw [narrow_selected narrowed, startSelecting_selected granted.accepted, List.filter_map]
    rfl
  have distinct : (((release.members.filter fun member => decide (member.id ∉ delta.narrow)).map (fun member => (member.id, member)) ++
      added.map fun member => (member.id, member)).map Prod.fst).Nodup := by
    simpa [selectedModules, Function.comp_def] using granted.distinct
  rw [add_selected granted.pinned, kept, puts_fresh distinct]
  simp [selectedModules, Function.comp_def]

/-- The selection of a release under a delta it grants. -/
theorem applyTaskDelta_ok : applyTaskDelta nfc sha256 release delta catalogue = .ok selection ↔
    ∃ added deltaBytes manifest, Granted nfc release delta catalogue added ∧ canonicalTaskDelta delta = .ok deltaBytes ∧
      canonicalSetReleaseManifest nfc release = .ok manifest ∧
      selection = ⟨release.family, release.version, units (digestSetReleaseManifest sha256 manifest),
        units (digestTaskDelta sha256 deltaBytes), selectedModules release delta added⟩ := by
  have asked {deltaBytes : List UInt8} (written : canonicalTaskDelta delta = .ok deltaBytes) : AcceptedDelta delta := by
    unfold canonicalTaskDelta at written
    split at written
    · cases written
    next quiet => exact deltaRefusals_nil.mp quiet
  unfold applyTaskDelta
  split
  next refusal refusals selected refused =>
    refine iff_of_false (fun impossible => by cases impossible) ?_
    rintro ⟨added, deltaBytes, manifest, granted, _⟩
    have quiet := (selecting_ok granted.accepted granted.asked).mpr ⟨added, granted⟩
    rw [refused] at quiet
    cases quiet
  next selected passed =>
    have quiet : (selecting nfc release delta catalogue).refusals = [] := by rw [passed]
    have kept {added : List ReleaseMember} (granted : Granted nfc release delta catalogue added) :
        selected.map Prod.snd = selectedModules release delta added := by
      rw [← selecting_selected granted, passed]
    constructor
    · intro applied
      obtain ⟨deltaBytes, written, applied⟩ := then_ok.mp applied
      obtain ⟨manifest, serialized, applied⟩ := then_ok.mp applied
      have accepted := manifestRefusals_nil.mp (canonical_ok.mp serialized).1
      obtain ⟨added, granted⟩ := (selecting_ok accepted (asked written)).mp quiet
      refine ⟨added, deltaBytes, manifest, granted, written, serialized, ?_⟩
      rw [← kept granted]
      exact (Except.ok.inj applied).symm
    · rintro ⟨added, deltaBytes, manifest, granted, written, serialized, rfl⟩
      rw [written, serialized, ← kept granted]
      rfl

end Selection

section Additions

variable {id : JsString} {added : List ReleaseMember}

/-- A row of the catalogue that a member may be pinned from. -/
structure Backs (candidate : MemberCandidate) (member : ReleaseMember) : Prop where
  id : candidate.id = member.id
  version : candidate.version = some member.version
  digest : candidate.sourceDigest = some (digestPrefix ++ member.digest)
  toolchain : candidate.blockedByToolchain = false
  rollout : candidate.blockedByRollout = false
  status : candidate.status ∈ composableModuleStates

theorem prefixedSha256_split {value : JsString} (formed : prefixedSha256 value = true) :
    value = digestPrefix ++ value.drop digestPrefix.length ∧ bareSha256 (value.drop digestPrefix.length) = true := by
  obtain ⟨starts, hexadecimal⟩ := Bool.and_eq_true_iff.mp formed
  obtain ⟨rest, rfl⟩ := List.isPrefixOf_iff_prefix.mp starts
  rw [List.drop_left] at hexadecimal ⊢
  exact ⟨rfl, hexadecimal⟩

theorem memberProblems_nil {kind : Section} {candidate : MemberCandidate} (quiet : memberProblems kind id (some candidate) = []) :
    (∃ version, candidate.version = some version) ∧ (∃ digest, candidate.sourceDigest = some digest ∧ prefixedSha256 digest = true) ∧
      candidate.blockedByToolchain = false ∧ candidate.blockedByRollout = false ∧ candidate.status ∈ composableModuleStates := by
  unfold memberProblems at quiet
  simp only [List.append_eq_nil_iff, ite_eq_left_iff, ite_eq_right_iff, reduceCtorEq, imp_false, Bool.not_eq_true, not_not] at quiet
  obtain ⟨⟨⟨⟨versioned, reviewed⟩, toolchain⟩, rollout⟩, status⟩ := quiet
  refine ⟨Option.ne_none_iff_exists'.mp versioned, ?_, toolchain, rollout, status⟩
  split at reviewed
  · cases reviewed
  next digest held => exact ⟨digest, held, by simpa using reviewed⟩

/-- A module is added as the catalogue has it, if nothing denies or blocks it. -/
theorem addition_backed (pinned : addition nfc release catalogue id = .ok member) : denied release id = false ∧
    (∃ candidate ∈ catalogue, Backs candidate member) ∧ tokenProblem nfc member.version = none ∧ bareSha256 member.digest = true := by
  have named := addition_id pinned
  unfold addition at pinned
  dsimp only at pinned
  split at pinned
  · cases pinned
  split at pinned
  · cases pinned
  next admitted =>
  split at pinned
  next candidate quiet found =>
    rw [found] at quiet
    obtain ⟨row, listed, same, rfl⟩ := lookup_of_puts found
    obtain ⟨⟨version, versioned⟩, ⟨digest, reviewed, formed⟩, toolchain, rollout, status⟩ := memberProblems_nil quiet
    split at pinned
    · cases pinned
    next token =>
      cases pinned
      rw [versioned] at token
      obtain ⟨spelled, hexadecimal⟩ := prefixedSha256_split formed
      refine ⟨by simpa using admitted, ⟨row, listed, same.trans named.symm, ?_, ?_, toolchain, rollout, status⟩, ?_, ?_⟩
      · rw [versioned]
        rfl
      · rw [reviewed, Option.getD_some, ← spelled]
      · rw [versioned]
        exact token
      · rw [reviewed, Option.getD_some]
        exact hexadecimal
  · cases pinned

theorem added_listed {ids : List JsString} (pinned : ids.mapM (addition nfc release catalogue) = .ok added) (listed : member ∈ added) :
    member.id ∈ ids ∧ addition nfc release catalogue member.id = .ok member := by
  obtain ⟨id, asked, passed⟩ := (mapM_mem pinned member).mp listed
  have named := addition_id passed
  exact ⟨named ▸ asked, named ▸ passed⟩

/-- What is granted is as readable as a manifest's members. -/
theorem Granted.readable (granted : Granted nfc release delta catalogue added) :
    ∀ member ∈ selectedModules release delta added, ReadableMember nfc member := by
  intro member listed
  rcases List.mem_append.mp listed with kept | fresh
  · rcases List.mem_append.mp (List.mem_filter.mp kept).1 with required | optional
    · exact granted.accepted.required.readable member required
    · exact granted.accepted.optional.readable member optional
  · obtain ⟨asked, passed⟩ := added_listed granted.pinned fresh
    obtain ⟨_, _, token, hexadecimal⟩ := addition_backed passed
    exact ⟨granted.asked.added _ asked, hexadecimal, token⟩

theorem prefixedSha256_units {digits : String} (hexadecimal : bareSha256 (units digits) = true) :
    prefixedSha256 (units ("sha256:" ++ digits)) = true := by
  rw [units_append]
  unfold prefixedSha256
  rw [Bool.and_eq_true, List.isPrefixOf_iff_prefix]
  refine ⟨List.prefix_append _ _, ?_⟩
  change bareSha256 ((digestPrefix ++ units digits).drop digestPrefix.length) = true
  rw [List.drop_left]
  exact hexadecimal

end Additions

section Order

variable {added : List ReleaseMember} {Item : Type} {keyOf : Item → JsString} {items others : List Item} {deny deny' : List JsString}
  {members required optional : List ReleaseMember} {ids add narrow : List JsString}

/-- Items of distinct module identifiers are sorted in one way. -/
theorem sortByBytes_moved (moved : items.Perm others) (modules : ∀ item ∈ items, moduleId (keyOf item) = true)
    (distinct : (items.map keyOf).Nodup) : sortByBytes keyOf items = sortByBytes keyOf others := by
  apply (sortByBytes_ranks keyOf).mergeSort_perm moved
  intro one member other member' same
  have keys := encode_injective (visible_module (modules one member)).scalars (visible_module (modules other member')).scalars same
  exact List.inj_on_of_nodup_map distinct member member' keys

/-- Lines of a name and sorted values are the same for every order of the values, whichever encode alike. -/
theorem sortedLines_moved {name : String} (moved : deny.Perm deny') :
    (sortByBytes id deny).flatMap (scalarLine name) = (sortByBytes id deny').flatMap (scalarLine name) := by
  have line (value : JsString) : scalarLine name value = (encode (units name) ++ encode [SP] ++ encode value) ++ [0x0a] := by
    rw [scalarLine_eq, Toolchain.rowOf, encode_apart sp_scalar]
  have keys := (sortByBytes_ranks (id : JsString → JsString)).mergeSort_keys moved
  have lines (values : List JsString) : values.flatMap (scalarLine name) =
      (values.map encode).flatMap fun bytes => (encode (units name) ++ encode [SP] ++ bytes) ++ [0x0a] := by
    rw [List.flatMap_map]
    exact List.flatMap_congr fun value _ => line value
  rw [lines, lines]
  exact congrArg (List.flatMap _) keys

theorem AcceptedMembers.moved (accepted : AcceptedMembers nfc required) (moved : required.Perm members) : AcceptedMembers nfc members where
  readable member listed := accepted.readable member (moved.mem_iff.mpr listed)
  id member listed := accepted.id member (moved.mem_iff.mpr listed)
  digest member listed := accepted.digest member (moved.mem_iff.mpr listed)
  distinct := (moved.map _).nodup_iff.mp accepted.distinct

theorem AcceptedDelta.moved (asked : AcceptedDelta delta) (adds : delta.add.Perm add) (narrows : delta.narrow.Perm narrow) :
    AcceptedDelta ⟨add, narrow⟩ where
  added id listed := asked.added id (adds.mem_iff.mpr listed)
  addedOnce := adds.nodup_iff.mp asked.addedOnce
  narrowed id listed := asked.narrowed id (narrows.mem_iff.mpr listed)
  narrowedOnce := narrows.nodup_iff.mp asked.narrowedOnce
  apart id listed fresh := asked.apart id (narrows.mem_iff.mpr listed) (adds.mem_iff.mpr fresh)

theorem canonicalTaskDelta_accepted (asked : AcceptedDelta delta) : canonicalTaskDelta delta =
    .ok (encode (units taskDeltaFormat) ++ [0x0a] ++ (sortByBytes id delta.add).flatMap (scalarLine "add") ++
      (sortByBytes id delta.narrow).flatMap (scalarLine "narrow")) := by
  unfold canonicalTaskDelta
  rw [deltaRefusals_nil.mpr asked]

/-- A delta in another order has the same bytes. -/
theorem canonicalTaskDelta_moved (asked : AcceptedDelta delta) (adds : delta.add.Perm add) (narrows : delta.narrow.Perm narrow) :
    canonicalTaskDelta ⟨add, narrow⟩ = canonicalTaskDelta delta := by
  rw [canonicalTaskDelta_accepted asked, canonicalTaskDelta_accepted (asked.moved adds narrows), sortedLines_moved adds,
    sortedLines_moved narrows]

theorem Accepted.moved (accepted : Accepted nfc release) (denies : release.deny.Perm deny) (requires : release.required.Perm required)
    (options : release.optional.Perm optional) :
    Accepted nfc { release with deny := deny, required := required, optional := optional } where
  familyToken := accepted.familyToken
  family := accepted.family
  runnerClass := accepted.runnerClass
  requiredFailure := accepted.requiredFailure
  optionalFailure := accepted.optionalFailure
  overrideAuthority := accepted.overrideAuthority
  version := accepted.version
  maxBytes := accepted.maxBytes
  maxFreshnessDays := accepted.maxFreshnessDays
  deny pattern listed := accepted.deny pattern (denies.mem_iff.mpr listed)
  distinct := denies.nodup_iff.mp accepted.distinct
  required := AcceptedMembers.moved accepted.required requires
  optional := AcceptedMembers.moved accepted.optional options
  apart member listed := by
    rw [← (requires.map (·.id)).mem_iff]
    exact accepted.apart member (options.mem_iff.mpr listed)

/-- A release in another order has the same manifest. -/
theorem manifest_moved (accepted : Accepted nfc release) (denies : release.deny.Perm deny) (requires : release.required.Perm required)
    (options : release.optional.Perm optional) :
    canonicalSetReleaseManifest nfc { release with deny := deny, required := required, optional := optional } =
      canonicalSetReleaseManifest nfc release := by
  have accepted' := Accepted.moved accepted denies requires options
  unfold canonicalSetReleaseManifest
  rw [manifestRefusals_nil.mpr accepted, manifestRefusals_nil.mpr accepted']
  dsimp only
  rw [sortedLines_moved denies, sortByBytes_moved requires (fun member listed => (accepted.required.readable member listed).id)
    accepted.required.distinct, sortByBytes_moved options (fun member listed => (accepted.optional.readable member listed).id)
    accepted.optional.distinct]

theorem addition_moved (denies : release.deny.Perm deny) (requires : release.required.Perm required)
    (options : release.optional.Perm optional) :
    addition nfc { release with deny := deny, required := required, optional := optional } catalogue = addition nfc release catalogue := by
  funext id
  have listed : id ∈ (LogicalRelease.members { release with deny := deny, required := required, optional := optional }).map (·.id) ↔
      id ∈ release.members.map (·.id) := ((requires.append options).map (·.id)).symm.mem_iff
  have denying : denied { release with deny := deny, required := required, optional := optional } id = denied release id := by
    rw [Bool.eq_iff_iff, denied, denied, List.any_eq_true, List.any_eq_true]
    exact exists_congr fun pattern => and_congr_left' denies.symm.mem_iff
  unfold addition
  simp only [listed, denying]

/-- A grant of one order is a grant of any. -/
theorem Granted.moved (granted : Granted nfc release delta catalogue added) (denies : release.deny.Perm deny)
    (requires : release.required.Perm required) (options : release.optional.Perm optional) (adds : delta.add.Perm add)
    (narrows : delta.narrow.Perm narrow) : ∃ added', added.Perm added' ∧
      Granted nfc { release with deny := deny, required := required, optional := optional } ⟨add, narrow⟩ catalogue added' := by
  obtain ⟨added', pinned, same⟩ := mapM_perm adds granted.pinned
  refine ⟨added', same, Accepted.moved granted.accepted denies requires options, granted.asked.moved adds narrows, ?_, ?_, ?_, ?_⟩
  · exact granted.additions.imp_left fun none : delta.add = [] => List.nil_perm.mp (none ▸ adds)
  · exact granted.narrowings.imp_left fun none : delta.narrow = [] => List.nil_perm.mp (none ▸ narrows)
  · intro id listed
    obtain ⟨free, selected⟩ := granted.optional id (narrows.mem_iff.mpr listed)
    exact ⟨fun fixed => free ((requires.map _).mem_iff.mpr fixed), ((requires.append options).map _).mem_iff.mp selected⟩
  · rw [addition_moved denies requires options]
    exact pinned

theorem selectedModules_moved {added' : List ReleaseMember} (same : added.Perm added') (requires : release.required.Perm required)
    (options : release.optional.Perm optional) (narrows : delta.narrow.Perm narrow) :
    (selectedModules release delta added).Perm
      (selectedModules { release with deny := deny, required := required, optional := optional } ⟨add, narrow⟩ added') := by
  have keeps : (fun member : ReleaseMember => decide (member.id ∉ delta.narrow)) = fun member => decide (member.id ∉ narrow) := by
    funext member
    exact decide_eq_decide.mpr (not_congr narrows.mem_iff)
  unfold selectedModules
  rw [keeps]
  exact ((requires.append options).filter _).append same

theorem canonicalResolvedSelection_accepted {resolved : ResolvedSelection} (accepted : AcceptedSelection nfc resolved) :
    canonicalResolvedSelection nfc resolved = .ok (encode (units resolvedKnowledgeFormat) ++ [0x0a] ++
      scalarLine "family" resolved.family ++ scalarLine "version" resolved.version ++
      scalarLine "releaseDigest" (resolved.releaseDigest.drop digestPrefix.length) ++
      scalarLine "taskDeltaDigest" (resolved.taskDeltaDigest.drop digestPrefix.length) ++
      (sortByBytes (·.id) resolved.modules).flatMap moduleLine) := by
  unfold canonicalResolvedSelection
  rw [resolvedRefusals_nil.mpr accepted]

/-- A selection in another order has the same bytes. -/
theorem canonicalResolvedSelection_moved {resolved : ResolvedSelection} (accepted : AcceptedSelection nfc resolved)
    (moved : resolved.modules.Perm members) :
    canonicalResolvedSelection nfc { resolved with modules := members } = canonicalResolvedSelection nfc resolved := by
  have accepted' : AcceptedSelection nfc { resolved with modules := members } :=
    ⟨accepted.familyToken, accepted.family, accepted.releaseDigest, accepted.taskDeltaDigest, accepted.version,
      fun member listed => accepted.readable member (moved.mem_iff.mpr listed), (moved.map _).nodup_iff.mp accepted.distinct⟩
  rw [canonicalResolvedSelection_accepted accepted, canonicalResolvedSelection_accepted accepted',
    sortByBytes_moved moved (fun member listed => (accepted.readable member listed).id) accepted.distinct]

end Order

section Selected

variable {added : List ReleaseMember}

theorem Granted.required (granted : Granted nfc release delta catalogue added) (listed : member ∈ release.required) :
    member ∈ selectedModules release delta added := by
  apply List.mem_append_left
  apply List.mem_filter.mpr
  refine ⟨List.mem_append_left _ listed, decide_eq_true fun narrowed => ?_⟩
  exact (granted.optional member.id narrowed).1 (List.mem_map_of_mem listed)

theorem Granted.kept (granted : Granted nfc release delta catalogue added) (listed : member ∈ release.optional) :
    member ∈ selectedModules release delta added ↔ member.id ∉ delta.narrow := by
  have within : member ∈ release.members := List.mem_append_right _ listed
  constructor
  · intro selected
    rcases List.mem_append.mp selected with kept | fresh
    · exact of_decide_eq_true (List.mem_filter.mp kept).2
    · exact absurd (List.mem_map_of_mem within) (addition_fresh (added_listed granted.pinned fresh).2)
  · exact fun spared => List.mem_append_left _ (List.mem_filter.mpr ⟨within, decide_eq_true spared⟩)

theorem Granted.others (granted : Granted nfc release delta catalogue added) (selected : member ∈ selectedModules release delta added)
    (foreign : member ∉ release.members) : member.id ∈ delta.add ∧ member.id ∉ release.members.map (·.id) ∧
      denied release member.id = false ∧ ∃ candidate ∈ catalogue, Backs candidate member := by
  rcases List.mem_append.mp selected with kept | fresh
  · exact absurd (List.mem_filter.mp kept).1 foreign
  · obtain ⟨asked, passed⟩ := added_listed granted.pinned fresh
    obtain ⟨admitted, backed, _⟩ := addition_backed passed
    exact ⟨asked, addition_fresh passed, admitted, backed⟩

/-- A selection keeps every pin that is not narrowed away, adds only what the catalogue backs and nothing denies, and has one identity
whatever order the lists of the release and the delta come in. -/
theorem task_delta_tightens (nfc : JsString → JsString) (sha256 : List UInt8 → String)
    (hexadecimal : ∀ bytes, bareSha256 (units (sha256 bytes)) = true) (release : LogicalRelease) (delta : Toolchain.TaskDelta)
    (catalogue : List MemberCandidate) (selection : ResolvedSelection)
    (applied : applyTaskDelta nfc sha256 release delta catalogue = .ok selection) :
    (∀ member ∈ release.required, member ∈ selection.modules) ∧
    (∀ member ∈ release.optional, member ∈ selection.modules ↔ member.id ∉ delta.narrow) ∧
    (∀ member ∈ selection.modules, member ∉ release.members → member.id ∈ delta.add ∧ member.id ∉ release.members.map (·.id) ∧
      denied release member.id = false ∧ ∃ candidate ∈ catalogue, Backs candidate member) ∧
    (selection.modules.map (·.id)).Nodup ∧
    (delta.add ≠ [] → release.allowTaskAdditions = true) ∧ (delta.narrow ≠ [] → release.allowTaskNarrowing = true) ∧
    ∃ bytes, canonicalResolvedSelection nfc selection = .ok bytes ∧ ∀ deny required optional add narrow,
      release.deny.Perm deny → release.required.Perm required → release.optional.Perm optional →
      delta.add.Perm add → delta.narrow.Perm narrow → ∃ other,
        applyTaskDelta nfc sha256 { release with deny := deny, required := required, optional := optional } ⟨add, narrow⟩ catalogue =
          .ok other ∧ canonicalResolvedSelection nfc other = .ok bytes := by
  obtain ⟨added, deltaBytes, manifest, granted, written, serialized, rfl⟩ := applyTaskDelta_ok.mp applied
  have accepted : AcceptedSelection nfc ⟨release.family, release.version, units (digestSetReleaseManifest sha256 manifest),
      units (digestTaskDelta sha256 deltaBytes), selectedModules release delta added⟩ :=
    ⟨granted.accepted.familyToken, granted.accepted.family, prefixedSha256_units (hexadecimal manifest),
      prefixedSha256_units (hexadecimal deltaBytes), granted.accepted.version, granted.readable, granted.distinct⟩
  refine ⟨fun member => granted.required, fun member => granted.kept, fun member => granted.others, granted.distinct,
    granted.additions.resolve_left, granted.narrowings.resolve_left, _, canonicalResolvedSelection_accepted accepted, ?_⟩
  intro deny required optional add narrow denies requires options adds narrows
  obtain ⟨added', same, granted'⟩ := granted.moved denies requires options adds narrows
  refine ⟨_, applyTaskDelta_ok.mpr ⟨added', deltaBytes, manifest, granted', ?_, ?_, rfl⟩, ?_⟩
  · rw [canonicalTaskDelta_moved granted.asked adds narrows]
    exact written
  · rw [manifest_moved granted.accepted denies requires options]
    exact serialized
  · have moved := canonicalResolvedSelection_moved accepted
      (@selectedModules_moved release delta added deny required optional add narrow added' same requires options narrows)
    rw [canonicalResolvedSelection_accepted accepted] at moved
    exact moved

/-- A release of one required and one optional member. -/
def demoRelease : LogicalRelease where
  family := units "demo"
  version := units "1.0.0"
  runnerClass := units "ephemeral"
  allowTaskAdditions := true
  allowTaskNarrowing := true
  maxBytes := .integer 1024
  maxFreshnessDays := .integer 30
  requiredFailure := units "reject"
  optionalFailure := units "omit"
  overrideAuthority := units "owner"
  deny := [units "secret/*"]
  required := [⟨units "demo/base", units "1.0.0", List.replicate 64 0x61⟩]
  optional := [⟨units "demo/extra", units "1.0.0", List.replicate 64 0x62⟩]

/-- The optional member goes for a module of another family. -/
def demoDelta : Toolchain.TaskDelta := ⟨[units "other/new"], [units "demo/extra"]⟩

def demoCatalogue : List MemberCandidate :=
  [⟨units "other/new", some (units "2.0.0"), some (units "sha256:" ++ List.replicate 64 0x63), units "Published", false, false⟩]

/-- SHA-256 of the two texts that are digested. -/
def demoSha256 (bytes : List UInt8) : String :=
  if bytes = encode (units "okf-set-task-delta-v1\nadd other/new\nnarrow demo/extra\n") then
    "a47daab7a1e2205f9e89ecaac0ef059fe45820c48d4f3295898b72c5246f7f35"
  else "b64f1d36726a6a122fa5ae64ebffc462b0613187f567ac7fad805d4b9a197f51"

def demoSelection : ResolvedSelection where
  family := units "demo"
  version := units "1.0.0"
  releaseDigest := units "sha256:b64f1d36726a6a122fa5ae64ebffc462b0613187f567ac7fad805d4b9a197f51"
  taskDeltaDigest := units "sha256:a47daab7a1e2205f9e89ecaac0ef059fe45820c48d4f3295898b72c5246f7f35"
  modules := [⟨units "demo/base", units "1.0.0", List.replicate 64 0x61⟩, ⟨units "other/new", units "2.0.0", List.replicate 64 0x63⟩]

theorem task_delta_tightens_demo : (demoSelection.modules.map (·.id)).Nodup ∧
    denied demoRelease (units "other/new") = false ∧ ∃ bytes, canonicalResolvedSelection id demoSelection = .ok bytes := by
  have applied : applyTaskDelta id demoSha256 demoRelease demoDelta demoCatalogue = .ok demoSelection := by
    unfold demoSelection demoRelease demoDelta demoCatalogue demoSha256
    simp only [units_literal]
    decide +kernel
  have hexadecimal : ∀ bytes, bareSha256 (units (demoSha256 bytes)) = true := by
    intro bytes
    unfold demoSha256
    split <;> decide
  obtain ⟨_, _, others, distinct, _, _, bytes, written, _⟩ :=
    task_delta_tightens id demoSha256 hexadecimal demoRelease demoDelta demoCatalogue demoSelection applied
  have fresh := others ⟨units "other/new", units "2.0.0", List.replicate 64 0x63⟩ (by decide) (by decide)
  exact ⟨distinct, fresh.2.2.1, bytes, written⟩

end Selected

end SecureHome.Proofs.TaskDelta
