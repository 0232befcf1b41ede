import SecureHome.Proofs.ManifestRows

/-! Round trips of set-release manifests: what is written is read back, and what is read is
what would be written, except where a string or a row is not its own spelling. -/

namespace SecureHome.Toolchain
open Lib

variable {nfc : JsString → JsString} {release : LogicalRelease}

section Checks

/-- What the serializer asks of a list of members. -/
structure AcceptedMembers (nfc : JsString → JsString) (members : List ReleaseMember) : Prop where
  readable : ∀ member ∈ members, ReadableMember nfc member
  id : ∀ member ∈ members, tokenProblem nfc member.id = none
  digest : ∀ member ∈ members, tokenProblem nfc member.digest = none
  distinct : (members.map (·.id)).Nodup

/-- What the serializer asks of a release. -/
structure Accepted (nfc : JsString → JsString) (release : LogicalRelease) : Prop where
  familyToken : tokenProblem nfc release.family = none
  family : setFamilyId release.family = true
  runnerClass : tokenProblem nfc release.runnerClass = none
  requiredFailure : tokenProblem nfc release.requiredFailure = none
  optionalFailure : tokenProblem nfc release.optionalFailure = none
  overrideAuthority : tokenProblem nfc release.overrideAuthority = none
  version : releaseVersion release.version = true
  maxBytes : intProblem release.maxBytes = none
  maxFreshnessDays : intProblem release.maxFreshnessDays = none
  deny : ∀ pattern ∈ release.deny, tokenProblem nfc pattern = none
  distinct : release.deny.Nodup
  required : AcceptedMembers nfc release.required
  optional : AcceptedMembers nfc release.optional
  apart : ∀ member ∈ release.optional, member.id ∉ release.required.map (·.id)

theorem problemRefusal_nil {rule : String} {named value : JsString} :
    problemRefusal nfc rule named value = [] ↔ tokenProblem nfc value = none := by
  unfold problemRefusal
  split <;> simp_all

theorem integerRefusal_nil {field : String} {value : JsNumber} :
    integerRefusal field value = [] ↔ intProblem value = none := by
  unfold integerRefusal
  split <;> simp_all

theorem denyRefusals_nil {seen patterns : List JsString} : denyRefusals nfc seen patterns = [] ↔
    (∀ pattern ∈ patterns, tokenProblem nfc pattern = none ∧ pattern ∉ seen) ∧ patterns.Nodup := by
  induction patterns generalizing seen with
  | nil => simp [denyRefusals]
  | cons pattern rest ih =>
    rw [denyRefusals, List.append_eq_nil_iff, List.append_eq_nil_iff, ih, List.forall_mem_cons, List.nodup_cons]
    rw [problemRefusal_nil]
    simp only [ite_eq_right_iff, reduceCtorEq, imp_false, List.mem_cons, not_or]
    grind

theorem memberRefusals_nil {kind : Section} {seen : List JsString} {members : List ReleaseMember} :
    memberRefusals nfc kind seen members = [] ↔
      AcceptedMembers nfc members ∧ ∀ member ∈ members, member.id ∉ seen := by
  induction members generalizing seen with
  | nil =>
    refine ⟨fun _ => ⟨⟨?_, ?_, ?_, List.nodup_nil⟩, List.forall_mem_nil _⟩, fun _ => rfl⟩ <;> exact List.forall_mem_nil _
  | cons member rest ih =>
    rw [memberRefusals]
    simp only [List.append_eq_nil_iff, ih, problemRefusal_nil, ite_eq_left_iff, ite_eq_right_iff, reduceCtorEq, imp_false,
      Bool.not_eq_true, Bool.not_eq_false]
    refine ⟨fun ⟨⟨⟨⟨⟨⟨id, version⟩, digest⟩, module⟩, hexadecimal⟩, fresh⟩, accepted, apart⟩ => ⟨⟨?_, ?_, ?_, ?_⟩, ?_⟩,
      fun ⟨accepted, apart⟩ => ?_⟩
    · exact List.forall_mem_cons.mpr ⟨⟨module, hexadecimal, version⟩, accepted.readable⟩
    · exact List.forall_mem_cons.mpr ⟨id, accepted.id⟩
    · exact List.forall_mem_cons.mpr ⟨digest, accepted.digest⟩
    · rw [List.map_cons, List.nodup_cons]
      refine ⟨fun repeats => ?_, accepted.distinct⟩
      obtain ⟨other, later, same⟩ := List.mem_map.mp repeats
      exact apart other later (same ▸ List.mem_cons_self)
    · refine List.forall_mem_cons.mpr ⟨fresh, fun other later listed => apart other later (List.mem_cons_of_mem _ listed)⟩
    · obtain ⟨readable, others⟩ := List.forall_mem_cons.mp accepted.readable
      obtain ⟨id, ids⟩ := List.forall_mem_cons.mp accepted.id
      obtain ⟨digest, digests⟩ := List.forall_mem_cons.mp accepted.digest
      obtain ⟨alone, distinct⟩ := List.nodup_cons.mp accepted.distinct
      obtain ⟨fresh, unseen⟩ := List.forall_mem_cons.mp apart
      refine ⟨⟨⟨⟨⟨⟨id, readable.version⟩, digest⟩, readable.id⟩, readable.digest⟩, fresh⟩,
        ⟨others, ids, digests, distinct⟩, fun other later listed => ?_⟩
      rcases List.mem_cons.mp listed with same | earlier
      · exact alone (List.mem_map.mpr ⟨other, later, same⟩)
      · exact unseen other later earlier

theorem overlapRefusals_nil : overlapRefusals release = [] ↔
    ∀ member ∈ release.optional, member.id ∉ release.required.map (·.id) := by
  unfold overlapRefusals
  rw [List.flatMap_eq_nil_iff]
  refine forall₂_congr fun member _ => ?_
  simp

theorem manifestRefusals_nil : manifestRefusals nfc release = [] ↔ Accepted nfc release := by
  unfold manifestRefusals
  unfold tokenRefusal
  simp only [List.append_eq_nil_iff, problemRefusal_nil, integerRefusal_nil, denyRefusals_nil, memberRefusals_nil,
    overlapRefusals_nil, ite_eq_left_iff, ite_eq_right_iff, reduceCtorEq, imp_false, Bool.not_eq_true, Bool.not_eq_false,
    List.not_mem_nil, not_false_eq_true, implies_true, and_true]
  refine ⟨fun refused => ?_, fun accepted => ?_⟩
  · obtain ⟨⟨⟨⟨⟨⟨⟨⟨⟨⟨⟨⟨token, family⟩, runner⟩, failure⟩, optionalFailure⟩, authority⟩, version⟩, bytes⟩, days⟩, deny, distinct⟩,
      required⟩, optional⟩, apart⟩ := refused
    exact ⟨token, by simpa [token] using family, runner, failure, optionalFailure, authority, version, bytes, days, deny,
      distinct, required, optional, apart⟩
  · have family : ¬(tokenProblem nfc release.family = none ∧ setFamilyId release.family = false) := by
      simp [accepted.family]
    exact ⟨⟨⟨⟨⟨⟨⟨⟨⟨⟨⟨⟨accepted.familyToken, family⟩, accepted.runnerClass⟩, accepted.requiredFailure⟩,
      accepted.optionalFailure⟩, accepted.overrideAuthority⟩, accepted.version⟩, accepted.maxBytes⟩,
      accepted.maxFreshnessDays⟩, accepted.deny, accepted.distinct⟩, accepted.required⟩, accepted.optional⟩, accepted.apart⟩

end Checks

section Release

variable {rows heads : List JsString} {entries : Entries} {scalar : String → JsString}

/-- The strings of a release. -/
def LogicalRelease.strings (release : LogicalRelease) : List JsString :=
  [release.family, release.version, release.runnerClass, release.requiredFailure, release.optionalFailure,
    release.overrideAuthority] ++ release.deny ++
    (release.required ++ release.optional).flatMap fun member => [member.id, member.version, member.digest]

/-- The lists of a release are strictly by UTF-8 bytes. -/
structure Ordered (release : LogicalRelease) : Prop where
  deny : strictlySorted release.deny = true
  required : strictlySorted (release.required.map (·.id)) = true
  optional : strictlySorted (release.optional.map (·.id)) = true

theorem Ordered.sorted (ordered : Ordered release) : release.sorted = release := by
  unfold LogicalRelease.sorted
  rw [sortByBytes_of_strict (by simpa using ordered.deny), sortByBytes_of_strict ordered.required,
    sortByBytes_of_strict ordered.optional]

theorem sorted_ordered (accepted : Accepted nfc release) (formed : ∀ string ∈ release.strings, isWellFormed string) :
    Ordered release.sorted := by
  have member_formed (member : ReleaseMember) (listed : member ∈ release.required ++ release.optional) :
      isWellFormed member.id :=
    formed member.id (List.mem_append_right _ (List.mem_flatMap.mpr ⟨member, listed, List.mem_cons_self⟩))
  refine ⟨?_, ?_, ?_⟩
  · have denied := @strictlySorted_sort JsString id release.deny
      (fun pattern listed => formed pattern (List.mem_append_left _ (List.mem_append_right _ listed)))
      (by simpa using accepted.distinct)
    simpa [LogicalRelease.sorted] using denied
  · exact strictlySorted_sort (fun member listed => member_formed member (List.mem_append_left _ listed))
      accepted.required.distinct
  · exact strictlySorted_sort (fun member listed => member_formed member (List.mem_append_right _ listed))
      accepted.optional.distinct

theorem entriesRefusal_none : entriesRefusal entries = none ↔
    (strictlySorted entries.deny = true ∧ strictlySorted (entries.required.map (·.id)) = true ∧
      strictlySorted (entries.optional.map (·.id)) = true) ∧
    ∀ member ∈ entries.optional, member.id ∉ entries.required.map (·.id) := by
  unfold entriesRefusal
  split
  · simp_all
  split
  · simp_all
  split
  · simp_all
  · simp_all

theorem numberOf_intText {number : JsNumber} (admitted : intProblem number = none) : numberOf (intText number) = number := by
  cases number with
  | other => cases admitted
  | integer value =>
    obtain ⟨positive, small⟩ := intProblem_integer.mp admitted
    have meaning := (repr_token value.toNat).2
    rw [intText, numberOf_small (by omega), meaning, Int.toNat_of_nonneg positive]

theorem intText_token {number : JsNumber} (admitted : intProblem number = none) : intToken (intText number) = true := by
  cases number with
  | other => cases admitted
  | integer value => exact (repr_token value.toNat).1

/-- A token read without rounding is written as it stood. -/
theorem intText_numberOf {token : JsString} (shortest : intToken token = true) (small : decimalValue token < 2 ^ 53) :
    intText (numberOf token) = token := by
  rw [numberOf_small small, intText, Int.toNat_natCast, ← token_repr shortest]

/-- The scalars of a release are read as its fields. -/
theorem releaseOf_scalarsOf (accepted : Accepted nfc release) :
    releaseOf (scalarIn (scalarsOf release)) (entriesOf release) = release := by
  have additions : scalarIn (scalarsOf release) "allowTaskAdditions" = boolText release.allowTaskAdditions := rfl
  have narrowing : scalarIn (scalarsOf release) "allowTaskNarrowing" = boolText release.allowTaskNarrowing := rfl
  have bytes : scalarIn (scalarsOf release) "maxBytes" = intText release.maxBytes := rfl
  have days : scalarIn (scalarsOf release) "maxFreshnessDays" = intText release.maxFreshnessDays := rfl
  unfold releaseOf
  rw [additions, narrowing, bytes, days, boolOf_boolText, boolOf_boolText, numberOf_intText accepted.maxBytes,
    numberOf_intText accepted.maxFreshnessDays]
  rfl

/-- Scalars read without rounding are the ones their release is written with. -/
theorem scalarsOf_releaseOf (unrefused : scalarRefusal scalar = none) (bytes : decimalValue (scalar "maxBytes") < 2 ^ 53)
    (days : decimalValue (scalar "maxFreshnessDays") < 2 ^ 53) :
    scalarsOf (releaseOf scalar entries) = scalarNames.map fun name => (name, scalar name) := by
  obtain ⟨additions, narrowing, bytesToken, daysToken, _, _⟩ := scalarRefusal_none.mp unrefused
  unfold scalarsOf releaseOf
  dsimp only
  rw [boolText_boolOf additions, boolText_boolOf narrowing, intText_numberOf bytesToken bytes,
    intText_numberOf daysToken days]
  rfl

theorem scalarsOf_names (release : LogicalRelease) : (scalarsOf release).map Prod.fst = scalarNames := rfl

def scalarRows (scalars : List (String × JsString)) : List JsString := scalars.map fun (name, value) => rowOf name value

theorem scalarRows_values {scalars : List (String × JsString)} (apart : ∀ name ∈ scalars.map Prod.fst, SP ∉ units name) :
    (scalars.map Prod.fst).zip ((scalarRows scalars).map rowValue) = scalars := by
  induction scalars with
  | nil => rfl
  | cons first rest ih =>
    obtain ⟨here, later⟩ := List.forall_mem_cons.mp apart
    have split := ih later
    simp only [scalarRows, List.map_cons, List.zip_cons_cons, rowOf, rowValue_apart here] at split ⊢
    rw [split]

theorem scalarRows_readable {scalars : List (String × JsString)} (apart : ∀ name ∈ scalars.map Prod.fst, SP ∉ units name)
    (tokens : ∀ scalar ∈ scalars, tokenProblem nfc scalar.2 = none) :
    List.Forall₂ (ReadableScalar nfc) (scalars.map Prod.fst) (scalarRows scalars) := by
  rw [scalarRows, List.forall₂_map_left_iff, List.forall₂_map_right_iff, List.forall₂_same]
  intro scalar listed
  have spaceless := apart scalar.1 (List.mem_map_of_mem listed)
  have value : rowValue (rowOf scalar.1 scalar.2) = scalar.2 := rowValue_apart spaceless
  refine ⟨rowKey_apart spaceless, ?_⟩
  show tokenProblem nfc (rowValue (rowOf scalar.1 scalar.2)) = none
  rw [value]
  exact tokens scalar listed

/-- The rows of an accepted release in order are read as it. -/
theorem parseRows_manifestRows (ascii : ∀ value : JsString, (∀ unit ∈ value, unit.toNat < 0x80) → nfc value = value)
    (accepted : Accepted nfc release) (ordered : Ordered release) : parseRows nfc (manifestRows release) = .ok release := by
  have written : scalarNames.zip ((scalarRows (scalarsOf release)).map rowValue) = scalarsOf release := by
    rw [← scalarsOf_names release, scalarRows_values]
    rw [scalarsOf_names]
    exact name_apart
  have bytes := intText_token accepted.maxBytes
  have days := intText_token accepted.maxFreshnessDays
  refine parseRows_ok.mpr ⟨scalarRows (scalarsOf release), entriesOf release, rfl, ?_, ?_, ?_, ?_, ?_⟩
  · rw [← scalarsOf_names release]
    refine scalarRows_readable (by rw [scalarsOf_names]; exact name_apart) ?_
    simp only [scalarsOf, List.forall_mem_cons]
    exact ⟨accepted.familyToken, (visible_version accepted.version).token ascii, accepted.runnerClass,
      (visible_bool _).token ascii, (visible_bool _).token ascii, (visible_intToken bytes).token ascii,
      (visible_intToken days).token ascii, accepted.requiredFailure, accepted.optionalFailure,
      accepted.overrideAuthority, List.forall_mem_nil _⟩
  · rw [written, scalarRefusal_none]
    have read (value : Bool) : boolOf (boolText value) ≠ none := by
      rw [boolOf_boolText]
      exact Option.some_ne_none value
    exact ⟨read release.allowTaskAdditions, read release.allowTaskNarrowing, bytes, days, accepted.version, accepted.family⟩
  · exact ⟨accepted.deny, accepted.required.readable, accepted.optional.readable⟩
  · exact entriesRefusal_none.mpr ⟨⟨ordered.deny, ordered.required, ordered.optional⟩, accepted.apart⟩
  · rw [written, releaseOf_scalarsOf accepted]

theorem scalarIn_cons {scalars : List (String × JsString)} {name other : String} {value : JsString} (apart : other ≠ name) :
    scalarIn ((name, value) :: scalars) other = scalarIn scalars other := by
  have skipped : (other == name) = false := by simpa using apart
  rw [scalarIn, List.lookup_cons, skipped]
  rfl

theorem scalarIn_head {scalars : List (String × JsString)} {name : String} {value : JsString} :
    scalarIn ((name, value) :: scalars) name = value := by
  simp [scalarIn]

variable {names : List String} {relation : String → JsString → Prop}

theorem scalarIn_zip (distinct : names.Nodup) (paired : List.Forall₂ relation names heads) :
    (names.map fun name => (name, scalarIn (names.zip (heads.map rowValue)) name)) = names.zip (heads.map rowValue) ∧
      ∀ name ∈ names, ∃ row ∈ heads, relation name row ∧ scalarIn (names.zip (heads.map rowValue)) name = rowValue row := by
  induction paired with
  | nil => exact ⟨rfl, List.forall_mem_nil _⟩
  | @cons name row names heads here paired ih =>
    obtain ⟨alone, others⟩ := List.nodup_cons.mp distinct
    obtain ⟨same, every⟩ := ih others
    have later (other : String) (listed : other ∈ names) :
        scalarIn ((name, rowValue row) :: names.zip (heads.map rowValue)) other =
          scalarIn (names.zip (heads.map rowValue)) other :=
      scalarIn_cons fun equal => alone (equal ▸ listed)
    simp only [List.map_cons, List.zip_cons_cons]
    refine ⟨?_, List.forall_mem_cons.mpr ⟨⟨row, List.mem_cons_self, here, scalarIn_head⟩, fun other listed => ?_⟩⟩
    · rw [scalarIn_head]
      refine congrArg _ ((List.map_congr_left fun other listed => ?_).trans same)
      rw [later other listed]
    · obtain ⟨found, inside, related, value⟩ := every other listed
      exact ⟨found, List.mem_cons_of_mem _ inside, related, (later other listed).trans value⟩

theorem scalarIn_named (distinct : names.Nodup) (paired : List.Forall₂ relation names heads) {row : JsString}
    (listed : row ∈ heads) :
    ∃ name ∈ names, relation name row ∧ scalarIn (names.zip (heads.map rowValue)) name = rowValue row := by
  induction paired with
  | nil => exact absurd listed List.not_mem_nil
  | @cons name first names heads here paired ih =>
    obtain ⟨alone, others⟩ := List.nodup_cons.mp distinct
    rcases List.mem_cons.mp listed with rfl | later
    · exact ⟨name, List.mem_cons_self, here, scalarIn_head⟩
    · obtain ⟨other, inside, related, value⟩ := ih others later
      refine ⟨other, List.mem_cons_of_mem _ inside, related, ?_⟩
      rw [List.map_cons, List.zip_cons_cons, scalarIn_cons fun equal => alone (by rwa [← equal]), value]

/-- Scalar rows are the rows of their names and values exactly if each has its space. -/
theorem scalarRows_spaced (paired : List.Forall₂ (ReadableScalar nfc) names heads) (apart : ∀ name ∈ names, SP ∉ units name) :
    scalarRows (names.zip (heads.map rowValue)) = heads ↔ ∀ row ∈ heads, SP ∈ row := by
  refine ⟨fun same row listed => ?_, fun every => ?_⟩
  · rw [← same] at listed
    obtain ⟨scalar, _, rfl⟩ := List.mem_map.mp listed
    exact List.mem_append_right _ List.mem_cons_self
  · induction paired with
    | nil => rfl
    | @cons name row names heads here paired ih =>
      obtain ⟨space, spaces⟩ := List.forall_mem_cons.mp every
      rw [List.map_cons, List.zip_cons_cons, scalarRows, List.map_cons]
      refine congrArg₂ _ ?_ (ih (List.forall_mem_cons.mp apart).2 spaces)
      show rowOf name (rowValue row) = row
      rw [rowOf, ← here.key]
      exact (spaced space).symm

/-- What is read satisfies the serializer, but for rounded integers. -/
theorem accepted_of_parse (ascii : ∀ value : JsString, (∀ unit ∈ value, unit.toNat < 0x80) → nfc value = value)
    (read : parseRows nfc rows = .ok release) :
    Ordered release ∧ (Accepted nfc release ↔ intProblem release.maxBytes = none ∧ intProblem release.maxFreshnessDays = none) := by
  obtain ⟨heads, entries, rfl, paired, unrefused, readable, ordered, rfl⟩ := parseRows_ok.mp read
  obtain ⟨⟨deny, required, optional⟩, apart⟩ := entriesRefusal_none.mp ordered
  obtain ⟨_, _, _, _, version, family⟩ := scalarRefusal_none.mp unrefused
  have members {listed : List ReleaseMember} (sorted : strictlySorted (listed.map (·.id)) = true)
      (asked : ∀ member ∈ listed, ReadableMember nfc member) : AcceptedMembers nfc listed :=
    ⟨asked, fun member inside => (visible_module (asked member inside).id).token ascii,
      fun member inside => (visible_digest (asked member inside).digest).token ascii, strictlySorted_nodup sorted⟩
  have token (name : String) (listed : name ∈ scalarNames) :
      tokenProblem nfc (scalarIn (scalarNames.zip (heads.map rowValue)) name) = none := by
    obtain ⟨row, _, asked, value⟩ := (scalarIn_zip (by decide) paired).2 name listed
    rw [value]
    exact asked.token
  refine ⟨⟨deny, required, optional⟩, fun accepted => ⟨accepted.maxBytes, accepted.maxFreshnessDays⟩, fun ⟨bytes, days⟩ => ?_⟩
  exact ⟨token "family" (by decide), family, token "runnerClass" (by decide), token "requiredFailure" (by decide),
    token "optionalFailure" (by decide), token "overrideAuthority" (by decide), version, bytes, days, readable.deny,
    strictlySorted_nodup deny, members required readable.required, members optional readable.optional, apart⟩

end Release

section Forms

variable {rows : List JsString} {entries : Entries}

theorem units_formed (text : String) : isWellFormed (units text) := isWellFormed_flatMap _

theorem rowOf_formed {name : String} {value : JsString} : isWellFormed (rowOf name value) ↔ isWellFormed value := by
  rw [rowOf, isWellFormed_apart sp_scalar]
  exact and_iff_right (units_formed name)

theorem memberRow_formed {kind : Section} {member : ReleaseMember} :
    isWellFormed (memberRow kind member) ↔
      isWellFormed member.id ∧ isWellFormed member.version ∧ isWellFormed member.digest := by
  rw [memberRow, rowOf_formed, isWellFormed_apart nul_scalar, isWellFormed_apart nul_scalar]

theorem rowValue_formed {row : JsString} (formed : isWellFormed row) : isWellFormed (rowValue row) := by
  by_cases space : SP ∈ row
  · rw [spaced space, isWellFormed_apart sp_scalar] at formed
    exact formed.2
  · rwa [rowValue, if_neg space]

theorem entryRows_formed : (∀ row ∈ entryRows entries, isWellFormed row) ↔
    (∀ pattern ∈ entries.deny, isWellFormed pattern) ∧
      ∀ member ∈ entries.required ++ entries.optional,
        isWellFormed member.id ∧ isWellFormed member.version ∧ isWellFormed member.digest := by
  simp only [entryRows, List.forall_mem_append, List.forall_mem_map, rowOf_formed, memberRow_formed]

theorem strings_formed : (∀ string ∈ release.strings, isWellFormed string) ↔
    (isWellFormed release.family ∧ isWellFormed release.version ∧ isWellFormed release.runnerClass ∧
      isWellFormed release.requiredFailure ∧ isWellFormed release.optionalFailure ∧
        isWellFormed release.overrideAuthority) ∧ ∀ row ∈ entryRows (entriesOf release), isWellFormed row := by
  rw [entryRows_formed, LogicalRelease.strings]
  simp only [List.forall_mem_append, List.forall_mem_cons, List.forall_mem_flatMap, List.not_mem_nil, false_implies,
    implies_true, and_true, entriesOf, and_assoc]

/-- What is read of well-formed rows has no lone surrogate. -/
theorem parseRows_formed (plain : ∀ row ∈ rows, isWellFormed row) (read : parseRows nfc rows = .ok release) :
    ∀ string ∈ release.strings, isWellFormed string := by
  obtain ⟨heads, entries, rfl, paired, _, _, _, rfl⟩ := parseRows_ok.mp read
  obtain ⟨_, plain⟩ := List.forall_mem_cons.mp plain
  obtain ⟨scalars, entered⟩ := List.forall_mem_append.mp plain
  have formed (name : String) (listed : name ∈ scalarNames) :
      isWellFormed (scalarIn (scalarNames.zip (heads.map rowValue)) name) := by
    obtain ⟨row, inside, _, value⟩ := (scalarIn_zip (by decide) paired).2 name listed
    rw [value]
    exact rowValue_formed (scalars row inside)
  exact strings_formed.mpr ⟨⟨formed "family" (by decide), formed "version" (by decide), formed "runnerClass" (by decide),
    formed "requiredFailure" (by decide), formed "optionalFailure" (by decide), formed "overrideAuthority" (by decide)⟩,
    entered⟩

/-- Text that is a line of its own. -/
def Line (text : JsString) : Prop := isWellFormed text ∧ LF ∉ text ∧ 0x0d ∉ text

theorem Visible.line {value : JsString} (visible : Visible value) : Line value :=
  ⟨visible.scalars, visible.absent (by decide), visible.absent (by decide)⟩

theorem token_line {value : JsString} (token : tokenProblem nfc value = none) (formed : isWellFormed value) : Line value :=
  ⟨formed, (token_apart token).2⟩

theorem Line.apart {value other : JsString} {unit : UInt16} (line : Line value) (also : Line other)
    (scalar : isScalar unit) (inner : unit ≠ LF ∧ unit ≠ 0x0d) : Line (value ++ unit :: other) := by
  refine ⟨(isWellFormed_apart scalar).mpr ⟨line.1, also.1⟩, ?_, ?_⟩
  · simp only [List.mem_append, List.mem_cons, not_or]
    exact ⟨line.2.1, inner.1.symm, also.2.1⟩
  · simp only [List.mem_append, List.mem_cons, not_or]
    exact ⟨line.2.2, inner.2.symm, also.2.2⟩

theorem Line.row {name : String} {value : JsString} (named : Visible (units name)) (line : Line value) : Line (rowOf name value) :=
  named.line.apart line sp_scalar (by decide)

/-- The rows of an accepted release of well-formed strings are lines. -/
theorem manifestRows_lines (accepted : Accepted nfc release) (formed : ∀ string ∈ release.strings, isWellFormed string) :
    ∀ row ∈ manifestRows release, Line row := by
  obtain ⟨⟨_, _, runner, failure, optionalFailure, authority⟩, entered⟩ := strings_formed.mp formed
  obtain ⟨denied, members⟩ := entryRows_formed.mp entered
  have named : ∀ name ∈ scalarNames ++ ["deny", "required", "optional"], Visible (units name) := by
    have every : (scalarNames ++ ["deny", "required", "optional"]).all (fun name => !(units name).isEmpty &&
        (units name).all fun unit => 0x20 < unit.toNat && unit.toNat < 0x80) = true := by decide
    exact fun name listed => visible_of_all (List.all_eq_true.mp every name listed)
  have member (kind : Section) (member : ReleaseMember) (readable : ReadableMember nfc member)
      (version : isWellFormed member.version) : Line (memberRow kind member) := by
    refine Line.row (named _ (by cases kind <;> decide)) ?_
    exact (visible_module readable.id).line.apart ((token_line readable.version version).apart
      (visible_digest readable.digest).line nul_scalar (by decide)) nul_scalar (by decide)
  refine List.forall_mem_cons.mpr ⟨(visible_of_all (by decide) : Visible (units setReleaseFormat)).line, ?_⟩
  refine List.forall_mem_append.mpr ⟨?_, ?_⟩
  · have values : ∀ scalar ∈ scalarsOf release, Line scalar.2 := by
      simp only [scalarsOf, List.forall_mem_cons]
      exact ⟨(visible_family accepted.family).line, (visible_version accepted.version).line,
        token_line accepted.runnerClass runner, (visible_bool _).line, (visible_bool _).line,
        (visible_intToken (intText_token accepted.maxBytes)).line,
        (visible_intToken (intText_token accepted.maxFreshnessDays)).line,
        token_line accepted.requiredFailure failure, token_line accepted.optionalFailure optionalFailure,
        token_line accepted.overrideAuthority authority, List.forall_mem_nil _⟩
    refine List.forall_mem_map.mpr fun scalar listed => Line.row (named scalar.1 ?_) (values scalar listed)
    rw [← scalarsOf_names release]
    exact List.mem_append_left _ (List.mem_map_of_mem listed)
  · simp only [entryRows, List.forall_mem_append, List.forall_mem_map, entriesOf]
    exact ⟨fun pattern listed => Line.row (named _ (by decide)) (token_line (accepted.deny pattern listed) (denied pattern listed)),
      fun one listed => member .required one (accepted.required.readable one listed)
        (members one (List.mem_append_left _ listed)).2.1,
      fun one listed => member .optional one (accepted.optional.readable one listed)
        (members one (List.mem_append_right _ listed)).2.1⟩

end Forms

section RoundTrip

variable {bytes : List UInt8} {other : LogicalRelease}

theorem mem_sorted_strings {string : JsString} : string ∈ release.sorted.strings ↔ string ∈ release.strings := by
  simp only [LogicalRelease.strings, LogicalRelease.sorted, List.mem_append, List.mem_flatMap, sortByBytes_perm.mem_iff]

theorem Accepted.sorted (accepted : Accepted nfc release) : Accepted nfc release.sorted := by
  have members {listed : List ReleaseMember} (asked : AcceptedMembers nfc listed) :
      AcceptedMembers nfc (sortByBytes (·.id) listed) :=
    ⟨fun member inside => asked.readable member (sortByBytes_perm.mem_iff.mp inside),
      fun member inside => asked.id member (sortByBytes_perm.mem_iff.mp inside),
      fun member inside => asked.digest member (sortByBytes_perm.mem_iff.mp inside),
      (sortByBytes_perm.map _).nodup_iff.mpr asked.distinct⟩
  exact { accepted with
    deny := fun pattern inside => accepted.deny pattern (sortByBytes_perm.mem_iff.mp inside)
    distinct := sortByBytes_perm.nodup_iff.mpr accepted.distinct
    required := members accepted.required
    optional := members accepted.optional
    apart := fun member inside listed => accepted.apart member (sortByBytes_perm.mem_iff.mp inside)
      ((sortByBytes_perm.map _).mem_iff.mp listed) }

/-- Equal up to the order of the three lists. -/
structure LogicalRelease.Agree (one other : LogicalRelease) : Prop where
  scalars : { one with deny := [], required := [], optional := [] } = { other with deny := [], required := [], optional := [] }
  deny : one.deny.Perm other.deny
  required : one.required.Perm other.required
  optional : one.optional.Perm other.optional

theorem agree_of_sorted (same : release.sorted = other.sorted) : release.Agree other := by
  have lists := congrArg entriesOf same
  simp only [entriesOf, LogicalRelease.sorted, Entries.mk.injEq] at lists
  obtain ⟨deny, required, optional⟩ := lists
  refine ⟨?_, ?_, ?_, ?_⟩
  · exact congrArg (fun one : LogicalRelease => { one with deny := [], required := [], optional := [] }) same
  · exact perm_of_sorted deny
  · exact perm_of_sorted required
  · exact perm_of_sorted optional

/-- An accepted release of well-formed strings is read back from its manifest in order. -/
theorem parse_canonical (ascii : ∀ value : JsString, (∀ unit ∈ value, unit.toNat < 0x80) → nfc value = value)
    (written : canonicalSetReleaseManifest nfc release = .ok bytes) (formed : ∀ string ∈ release.strings, isWellFormed string) :
    parseSetReleaseManifest nfc bytes = .ok release.sorted := by
  obtain ⟨unrefused, spelled⟩ := canonical_ok.mp written
  have accepted := manifestRefusals_nil.mp unrefused
  exact parse_lines.mpr ⟨_, manifestRows_lines accepted.sorted fun string listed => formed string (mem_sorted_strings.mp listed),
    spelled, parseRows_manifestRows ascii accepted.sorted (sorted_ordered accepted formed)⟩

/-- A manifest is read back as its release in order, and tells it apart from the others of
well-formed strings up to order, exactly if the release has no lone surrogate. -/
theorem roundtrips_iff (sha256 : List UInt8 → String)
    (ascii : ∀ value : JsString, (∀ unit ∈ value, unit.toNat < 0x80) → nfc value = value)
    (written : canonicalSetReleaseManifest nfc release = .ok bytes) :
    (parseSetReleaseManifest nfc bytes = .ok release.sorted ∧
      ∀ other others, canonicalSetReleaseManifest nfc other = .ok others → (∀ string ∈ other.strings, isWellFormed string) →
        (sha256 bytes = sha256 others → bytes = others) →
        digestSetReleaseManifest sha256 bytes = digestSetReleaseManifest sha256 others → release.Agree other) ↔
    ∀ string ∈ release.strings, isWellFormed string := by
  refine ⟨fun ⟨read, _⟩ string listed => ?_, fun formed => ⟨parse_canonical ascii written formed, ?_⟩⟩
  · obtain ⟨rows, plain, _, parsed⟩ := parse_lines.mp read
    exact parseRows_formed (fun row inside => (plain row inside).1) parsed string (mem_sorted_strings.mpr listed)
  · intro other others also forms collision same
    simp only [digestSetReleaseManifest, String.append_right_inj] at same
    have hexadecimal : sha256 bytes = sha256 others := same
    have first := parse_canonical ascii written formed
    rw [collision hexadecimal, parse_canonical ascii also forms] at first
    exact agree_of_sorted (Except.ok.inj first).symm

/-- A release whose runner class is half of a surrogate pair. -/
def loneSurrogate : LogicalRelease where
  family := units "demo"
  version := units "1.0.0"
  runnerClass := [0xD800]
  allowTaskAdditions := true
  allowTaskNarrowing := false
  maxBytes := .integer 1024
  maxFreshnessDays := .integer 30
  requiredFailure := units "refuse"
  optionalFailure := units "omit"
  overrideAuthority := units "none"
  deny := []
  required := []
  optional := []

/-- The same release of the replacement character. -/
def replaced : LogicalRelease := { loneSurrogate with runnerClass := units "\uFFFD" }

theorem replaced_sorted : replaced.sorted = replaced := Ordered.sorted ⟨rfl, rfl, rfl⟩

theorem loneSurrogate_sorted : loneSurrogate.sorted = loneSurrogate := Ordered.sorted ⟨rfl, rfl, rfl⟩

theorem replaced_written : canonicalSetReleaseManifest id replaced = .ok (encode (lined (manifestRows replaced))) :=
  canonical_ok.mpr ⟨by decide +kernel, by rw [replaced_sorted]⟩

theorem replaced_read : parseSetReleaseManifest id (encode (lined (manifestRows replaced))) = .ok replaced := by
  have read := @parse_canonical id replaced _ (fun _ _ => rfl) replaced_written (by decide +kernel)
  rwa [replaced_sorted] at read

theorem loneSurrogate_written :
    canonicalSetReleaseManifest id loneSurrogate = .ok (encode (lined (manifestRows replaced))) :=
  canonical_ok.mpr ⟨by decide +kernel, by rw [loneSurrogate_sorted]; decide +kernel⟩

theorem replaced_roundtrips :
    canonicalSetReleaseManifest id replaced = .ok (encode (lined (manifestRows replaced))) ∧
      parseSetReleaseManifest id (encode (lined (manifestRows replaced))) = .ok replaced.sorted :=
  ⟨replaced_written, ((roundtrips_iff (fun bytes => bytes.toString) (fun _ _ => rfl) replaced_written).mpr
    (by decide +kernel)).1⟩

/-- The two releases are written as one manifest, which is read as the second. -/
theorem loneSurrogate_lost :
    ∃ bytes, canonicalSetReleaseManifest id loneSurrogate = .ok bytes ∧ canonicalSetReleaseManifest id replaced = .ok bytes ∧
      parseSetReleaseManifest id bytes ≠ .ok loneSurrogate.sorted ∧ ¬ loneSurrogate.Agree replaced := by
  refine ⟨_, loneSurrogate_written, replaced_written, fun read => ?_, fun agree => ?_⟩
  · rw [replaced_read, loneSurrogate_sorted] at read
    exact absurd (congrArg LogicalRelease.runnerClass (Except.ok.inj read)) (by decide)
  · exact absurd (congrArg LogicalRelease.runnerClass agree.scalars) (by decide)

end RoundTrip

section Spelling

variable {bytes : List UInt8} {rows : List JsString}

/-- The rows of a manifest's bytes. -/
def linesOf (bytes : List UInt8) : List JsString := ((decode bytes).getD []).dropLast.splitOn LF

/-- Each of the ten scalar rows has its space, and a decimal among them is a safe integer. -/
structure Spelled (bytes : List UInt8) : Prop where
  spaces : ∀ row ∈ (linesOf bytes).tail.take 10, SP ∈ row
  integers : ∀ row ∈ (linesOf bytes).tail.take 10,
    rowKey row = units "maxBytes" ∨ rowKey row = units "maxFreshnessDays" → decimalValue (rowValue row) < 2 ^ 53

theorem linesOf_lined (some_rows : rows ≠ []) (lines : ∀ row ∈ rows, Line row) : linesOf (encode (lined rows)) = rows := by
  have formed := isWellFormed_lined.mpr fun row listed => (lines row listed).1
  rw [linesOf, decode_encode, formed, Option.getD_some, splitOn_lined some_rows fun row listed => (lines row listed).2.1]

/-- The integers of the scalar rows are read without rounding exactly if they are safe. -/
theorem integer_rows {heads : List JsString} {name : String} (listed : name ∈ scalarNames)
    (paired : List.Forall₂ (ReadableScalar nfc) scalarNames heads) :
    decimalValue (scalarIn (scalarNames.zip (heads.map rowValue)) name) < 2 ^ 53 ↔
      ∀ row ∈ heads, rowKey row = units name → decimalValue (rowValue row) < 2 ^ 53 := by
  have apart : ∀ one ∈ scalarNames, ∀ other ∈ scalarNames, units one = units other → one = other := by decide
  refine ⟨fun small row inside key => ?_, fun every => ?_⟩
  · obtain ⟨other, known, readable, value⟩ := scalarIn_named (by decide) paired inside
    rw [← value, apart other known name listed (readable.key.symm.trans key)]
    exact small
  · obtain ⟨row, inside, readable, value⟩ := (scalarIn_zip (by decide) paired).2 name listed
    rw [value]
    exact every row inside readable.key

/-- A parsed manifest is the one its release is written as exactly if its scalar rows are spelled out. -/
theorem canonical_of_parse_iff (ascii : ∀ value : JsString, (∀ unit ∈ value, unit.toNat < 0x80) → nfc value = value)
    (read : parseSetReleaseManifest nfc bytes = .ok release) :
    canonicalSetReleaseManifest nfc release = .ok bytes ↔ Spelled bytes := by
  obtain ⟨rows, lines, spelled, parsed⟩ := parse_lines.mp read
  obtain ⟨ordered, accepts⟩ := accepted_of_parse ascii parsed
  have formed := parseRows_formed (fun row listed => (lines row listed).1) parsed
  obtain ⟨heads, entries, whole, paired, unrefused, readable, sorted, found⟩ := parseRows_ok.mp parsed
  have some_rows : rows ≠ [] := by
    rw [whole]
    exact List.cons_ne_nil _ _
  have ten : heads.length = 10 := paired.length_eq.symm
  have tail : (linesOf bytes).tail.take 10 = heads := by
    rw [spelled, linesOf_lined some_rows lines, whole, List.tail_cons, ← ten, List.take_left]
  have integers : intProblem release.maxBytes = none ∧ intProblem release.maxFreshnessDays = none ↔
      ∀ row ∈ heads, rowKey row = units "maxBytes" ∨ rowKey row = units "maxFreshnessDays" →
        decimalValue (rowValue row) < 2 ^ 53 := by
    rw [found, releaseOf, numberOf_safe, numberOf_safe, integer_rows (by decide) paired, integer_rows (by decide) paired]
    exact ⟨fun ⟨bytes, days⟩ row inside key => key.elim (bytes row inside) (days row inside),
      fun every => ⟨fun row inside key => every row inside (.inl key), fun row inside key => every row inside (.inr key)⟩⟩
  rw [canonical_ok, manifestRefusals_nil, ordered.sorted]
  refine ⟨fun ⟨accepted, same⟩ => ?_, fun spelling => ?_⟩
  · have written := @linesOf_lined (manifestRows release) (List.cons_ne_nil _ _) (manifestRows_lines accepted formed)
    rw [← same, spelled, linesOf_lined some_rows lines, whole] at written
    obtain ⟨scalars, _⟩ := List.append_inj (List.cons.inj written).2 (ten.trans (by rfl))
    refine ⟨fun row inside => ?_, ?_⟩
    · rw [tail, scalars] at inside
      obtain ⟨scalar, _, rfl⟩ := List.mem_map.mp inside
      exact List.mem_append_right _ List.mem_cons_self
    · rw [tail]
      exact integers.mp (accepts.mp accepted)
  · obtain ⟨spaces, integer⟩ := spelling
    rw [tail] at spaces integer
    refine ⟨accepts.mpr (integers.mpr integer), ?_⟩
    have safe := integers.mpr integer
    rw [found, releaseOf, numberOf_safe, numberOf_safe] at safe
    have scalars := (@scalarsOf_releaseOf entries _ unrefused safe.1 safe.2).trans (scalarIn_zip (by decide) paired).1
    have rows_same : manifestRows release = rows := by
      rw [whole, manifestRows, found, scalars]
      exact congrArg _ (congrArg (· ++ entryRows entries) ((scalarRows_spaced paired name_apart).mpr spaces))
    rw [rows_same, spelled]

theorem replaced_spelled : Spelled (encode (lined (manifestRows replaced))) :=
  (canonical_of_parse_iff (fun _ _ => rfl) replaced_read).mp replaced_written

/-- A manifest whose runner class is its row's name, with no space. -/
def bareName : List JsString :=
  (manifestRows { replaced with runnerClass := units "runnerClass" }).set 3 (units "runnerClass")

/-- The bare row is read as its own name, and written as a name and a value. -/
theorem bareName_respelled :
    ∃ release, parseSetReleaseManifest id (encode (lined bareName)) = .ok release ∧
      canonicalSetReleaseManifest id release ≠ .ok (encode (lined bareName)) := by
  refine ⟨{ replaced with runnerClass := units "runnerClass" }, ?_, fun written => ?_⟩
  · refine parse_lines.mpr ⟨bareName, ?_, rfl, ?_⟩
    · decide +kernel
    · decide +kernel
  · have same := (canonical_ok.mp written).2
    rw [Ordered.sorted ⟨rfl, rfl, rfl⟩] at same
    exact absurd same (by decide +kernel)

end Spelling

end SecureHome.Toolchain
