import SecureHome.Proofs.ManifestText
import SecureHome.Proofs.DecimalToken

/-! Reading rows: which rows the parser reads, and as what. -/

namespace SecureHome.Toolchain
open Lib

section Rows

variable {text value : JsString} {name : JsString}

theorem spaced (member : SP ∈ text) : text = rowKey text ++ SP :: rowValue text := by
  induction text with
  | nil => exact absurd member List.not_mem_nil
  | cons unit rest ih =>
    by_cases space : unit = SP
    · simp [rowKey, rowValue, space]
    · have later : SP ∈ rest := (List.mem_cons.mp member).resolve_left (Ne.symm space)
      have split := ih later
      simp only [rowKey, rowValue, later, member, if_true] at split ⊢
      simp only [List.takeWhile_cons, List.dropWhile_cons, space, ne_eq, not_false_eq_true, decide_true, if_true,
        List.cons_append]
      exact congrArg _ split

theorem unspaced (apart : SP ∉ name) : ∀ unit ∈ name, decide (unit ≠ SP) = true := fun unit member =>
  decide_eq_true fun same => apart (by rwa [← same])

theorem rowKey_apart (apart : SP ∉ name) : rowKey (name ++ SP :: value) = name := by
  rw [rowKey, List.takeWhile_append_of_pos (unspaced apart)]
  simp

theorem rowValue_apart (apart : SP ∉ name) : rowValue (name ++ SP :: value) = value := by
  have found : SP ∈ name ++ SP :: value := List.mem_append_right _ List.mem_cons_self
  have split := spaced found
  rw [rowKey_apart apart] at split
  exact (List.cons.inj (List.append_cancel_left split)).2.symm

theorem rowKey_whole (apart : SP ∉ text) : rowKey text = text := by
  have whole := @List.takeWhile_append_of_pos _ _ _ [] (unspaced apart)
  rwa [List.append_nil, List.takeWhile_nil, List.append_nil] at whole

theorem label_apart (kind : Section) : SP ∉ units kind.label := by cases kind <;> decide

theorem name_apart : ∀ name ∈ scalarNames, SP ∉ units name := by decide

theorem sectionOf_label (kind : Section) : sectionOf (units kind.label) = some kind := by cases kind <;> decide

theorem sectionOf_some {key : JsString} {kind : Section} (found : sectionOf key = some kind) : key = units kind.label := by
  unfold sectionOf at found
  split at found
  next same =>
    cases found
    exact same
  next =>
    split at found
    next same =>
      cases found
      exact same
    next =>
      split at found
      next same =>
        cases found
        exact same
      next => cases found

end Rows

section Fields

variable {nfc : JsString → JsString} {value : JsString}

theorem stringProblem_none : stringProblem nfc value = none ↔
    value ≠ [] ∧ nfc value = value ∧ NUL ∉ value ∧ LF ∉ value ∧ 0x0d ∉ value := by
  unfold stringProblem
  cases value with
  | nil => simp
  | cons unit rest =>
    simp only [List.isEmpty_cons, Bool.false_eq_true, if_false, ne_eq, reduceCtorEq, not_false_eq_true, true_and]
    split
    · simp_all
    · split
      · simp_all
      · split
        · simp_all
        · split
          · simp_all
          · simp_all

theorem tokenProblem_none : tokenProblem nfc value = none ↔ stringProblem nfc value = none ∧ hasAsciiWhitespace value = false := by
  unfold tokenProblem
  split
  next problem found => simp [found]
  next found =>
    cases hasAsciiWhitespace value <;> simp [found]

/-- Not empty, and of visible ASCII characters. -/
structure Visible (value : JsString) : Prop where
  some_units : value ≠ []
  plain : ∀ unit ∈ value, 0x20 < unit.toNat ∧ unit.toNat < 0x80

theorem visible_iff : Visible value ↔ value ≠ [] ∧ ∀ unit ∈ value, 0x20 < unit.toNat ∧ unit.toNat < 0x80 :=
  ⟨fun ⟨some_units, plain⟩ => ⟨some_units, plain⟩, fun ⟨some_units, plain⟩ => ⟨some_units, plain⟩⟩

theorem Visible.absent {unit : UInt16} (visible : Visible value) (low : unit.toNat ≤ 0x20) : unit ∉ value := fun member => by
  have high := (visible.plain unit member).1
  omega

theorem Visible.scalars (visible : Visible value) : isWellFormed value := by
  refine isWellFormed_scalars fun unit member => ?_
  have low := (visible.plain unit member).2
  exact ⟨by simp [isHigh]; omega, by simp [isLow]; omega⟩

theorem Visible.append {other : JsString} (visible : Visible value) (also : Visible other) : Visible (value ++ other) where
  some_units empty := visible.some_units (List.append_eq_nil_iff.mp empty).1
  plain unit member := (List.mem_append.mp member).elim (visible.plain unit) (also.plain unit)

theorem visible_of_all (spelled : (!value.isEmpty && value.all fun unit => 0x20 < unit.toNat && unit.toNat < 0x80) = true) :
    Visible value := by
  simpa [visible_iff] using spelled

theorem visible_digits (some_units : value ≠ []) (digits : ∀ unit ∈ value, isDigitUnit unit = true) : Visible value := by
  refine ⟨some_units, fun unit member => ?_⟩
  have digit := digits unit member
  simp only [isDigitUnit, Bool.and_eq_true, decide_eq_true_eq] at digit
  omega

theorem visible_intToken (token : intToken value = true) : Visible value := by
  refine visible_digits (fun empty => by rw [empty] at token; cases token) fun unit member => ?_
  match value, token, member with
  | [first], token, member =>
    rw [List.mem_singleton.mp member]
    exact token
  | first :: next :: rest, token, member =>
    simp only [intToken, Bool.and_eq_true, List.all_eq_true] at token
    rcases List.mem_cons.mp member with rfl | later
    · exact token.1.1
    · exact token.2 unit later

theorem visible_family (family : setFamilyId value = true) : Visible value := by
  cases value with
  | nil => cases family
  | cons first rest =>
    simp only [setFamilyId, Bool.and_eq_true, List.all_eq_true] at family
    refine ⟨List.cons_ne_nil _ _, fun unit member => ?_⟩
    rcases List.mem_cons.mp member with rfl | later
    · have lower := family.1
      simp only [isLowerUnit, Bool.and_eq_true, decide_eq_true_eq] at lower
      omega
    · have admitted := family.2 unit later
      simp only [isLowerUnit, isDigitUnit, Bool.or_eq_true, Bool.and_eq_true, decide_eq_true_eq, beq_iff_eq] at admitted
      rcases admitted with (lower | digit) | rfl
      · omega
      · omega
      · decide

theorem visible_module (module : moduleId value = true) : Visible value := by
  unfold moduleId at module
  split at module
  next first second parts =>
    have joined : [0x2f].intercalate (value.splitOn 0x2f) = value := List.intercalate_splitOn 0x2f
    rw [← joined, parts]
    obtain ⟨first, second⟩ := Bool.and_eq_true_iff.mp module
    have slash : Visible ([0x2f] : JsString) := visible_of_all (by decide)
    simpa using (visible_family first).append (slash.append (visible_family second))
  next => cases module

theorem visible_version (version : releaseVersion value = true) : Visible value := by
  unfold releaseVersion at version
  dsimp only at version
  split at version
  next major minor patch parts =>
    have joined : [0x2e].intercalate (value.splitOn 0x2e) = value := List.intercalate_splitOn 0x2e
    rw [← joined, parts]
    simp only [Bool.and_eq_true, Bool.not_eq_true', List.isEmpty_eq_false_iff, List.all_eq_true] at version
    obtain ⟨⟨⟨some_major, major⟩, some_minor, minor⟩, some_patch, patch⟩ := version
    have dot : Visible ([0x2e] : JsString) := visible_of_all (by decide)
    simpa using (visible_digits some_major major).append (dot.append
      ((visible_digits some_minor minor).append (dot.append (visible_digits some_patch patch))))
  next => cases version

theorem visible_digest (digest : bareSha256 value = true) : Visible value := by
  simp only [bareSha256, Bool.and_eq_true, beq_iff_eq, List.all_eq_true] at digest
  refine ⟨fun empty => ?_, fun unit member => ?_⟩
  · rw [empty] at digest
    exact absurd digest.1 (by decide)
  have hexadecimal := digest.2 unit member
  simp only [isDigitUnit, Bool.or_eq_true, Bool.and_eq_true, decide_eq_true_eq] at hexadecimal
  omega

theorem visible_bool (value : Bool) : Visible (boolText value) := by
  cases value <;> exact visible_of_all (by decide)

theorem visible_repr (value : Nat) : Visible (units value.repr) := visible_intToken (repr_token value).1

/-- Visible ASCII text is a token, whatever else is normalized. -/
theorem Visible.token (ascii : ∀ value : JsString, (∀ unit ∈ value, unit.toNat < 0x80) → nfc value = value)
    (visible : Visible value) : tokenProblem nfc value = none := by
  rw [tokenProblem_none, stringProblem_none]
  refine ⟨⟨visible.some_units, ascii value fun unit member => (visible.plain unit member).2, visible.absent (by decide),
    visible.absent (by decide), visible.absent (by decide)⟩, ?_⟩
  rw [hasAsciiWhitespace, List.any_eq_false]
  intro unit member whitespace
  have low : ([0x09, 0x0a, 0x0b, 0x0c, 0x0d, 0x20] : List UInt16).all (fun unit => unit.toNat ≤ 0x20) = true := by decide
  exact visible.absent (by simpa using List.all_eq_true.mp low unit (List.contains_iff_mem.mp whitespace)) member

end Fields

section Entries

variable {nfc : JsString → JsString} {line : Nat} {current kind : Section} {rows : List JsString} {entries : Entries}
  {member : ReleaseMember} {value : JsString}

/-- What the parser asks of a member. -/
structure ReadableMember (nfc : JsString → JsString) (member : ReleaseMember) : Prop where
  id : moduleId member.id = true
  digest : bareSha256 member.digest = true
  version : tokenProblem nfc member.version = none

theorem token_apart (token : tokenProblem nfc value = none) : NUL ∉ value ∧ LF ∉ value ∧ 0x0d ∉ value :=
  (stringProblem_none.mp (tokenProblem_none.mp token).1).2.2

theorem readMember_ok : readMember nfc kind value = .ok member ↔
    ReadableMember nfc member ∧ value = member.id ++ NUL :: (member.version ++ NUL :: member.digest) := by
  have joined (id version digest : JsString) :
      [NUL].intercalate [id, version, digest] = id ++ NUL :: (version ++ NUL :: digest) := by simp
  refine ⟨fun read => ?_, fun ⟨readable, same⟩ => ?_⟩
  · unfold readMember at read
    split at read
    next id version digest parts =>
      split at read
      · cases read
      next module =>
      split at read
      · cases read
      next hexadecimal =>
      split at read
      · cases read
      next token =>
      cases read
      refine ⟨⟨by simpa using module, by simpa using hexadecimal, token⟩, ?_⟩
      rw [← joined, ← parts, List.intercalate_splitOn]
    next => cases read
  · have apart : ∀ part ∈ [member.id, member.version, member.digest], NUL ∉ part := by
      simp only [List.forall_mem_cons]
      exact ⟨(visible_module readable.id).absent (by decide), (token_apart readable.version).1,
        (visible_digest readable.digest).absent (by decide), List.forall_mem_nil _⟩
    rw [readMember, same, ← joined, List.splitOn_intercalate NUL apart (List.cons_ne_nil _ _)]
    simp [readable.id, readable.digest, readable.version]

structure ReadableEntries (nfc : JsString → JsString) (entries : Entries) : Prop where
  deny : ∀ pattern ∈ entries.deny, tokenProblem nfc pattern = none
  required : ∀ member ∈ entries.required, ReadableMember nfc member
  optional : ∀ member ∈ entries.optional, ReadableMember nfc member

/-- No entry is of a section before this one. -/
def Entries.From (entries : Entries) : Section → Prop
  | .deny => True
  | .required => entries.deny = []
  | .optional => entries.deny = [] ∧ entries.required = []

theorem readEntries_rows (read : readEntries nfc line current rows = .ok entries) :
    rows = entryRows entries ∧ ReadableEntries nfc entries ∧ entries.From current := by
  induction rows generalizing line current entries with
  | nil =>
    cases read
    refine ⟨rfl, ⟨?_, ?_, ?_⟩, by cases current <;> simp [Entries.From]⟩ <;> exact List.forall_mem_nil _
  | cons row rows ih =>
    rw [readEntries] at read
    split at read
    · cases read
    next space =>
    rw [Decidable.not_not] at space
    split at read
    · cases read
    next kind named =>
    have spelled := spaced space
    rw [sectionOf_some named] at spelled
    split at read
    · cases read
    next ordered =>
    cases kind with
    | deny =>
      have first : current = .deny := by cases current <;> simp [Section.order] at ordered ⊢
      dsimp only at read
      split at read
      · cases read
      next token =>
      obtain ⟨rest, others, ended⟩ := bind_ok.mp read
      cases ended
      obtain ⟨same, readable, _⟩ := ih others
      subst first
      refine ⟨?_, ⟨List.forall_mem_cons.mpr ⟨token, readable.deny⟩, readable.required, readable.optional⟩, trivial⟩
      rw [spelled, same]
      rfl
    | required =>
      obtain ⟨member, found, read⟩ := bind_ok.mp read
      obtain ⟨rest, others, ended⟩ := bind_ok.mp read
      cases ended
      obtain ⟨same, readable, denied⟩ := ih others
      obtain ⟨asked, parts⟩ := readMember_ok.mp found
      have none_denied : rest.deny = [] := denied
      refine ⟨?_, ⟨readable.deny, List.forall_mem_cons.mpr ⟨asked, readable.required⟩, readable.optional⟩, ?_⟩
      · rw [spelled, parts, same]
        simp [entryRows, none_denied, memberRow, rowOf]
      · cases current <;> simp [Section.order, Entries.From, none_denied] at ordered ⊢
    | optional =>
      obtain ⟨member, found, read⟩ := bind_ok.mp read
      obtain ⟨rest, others, ended⟩ := bind_ok.mp read
      cases ended
      obtain ⟨same, readable, none_denied, none_required⟩ := ih others
      obtain ⟨asked, parts⟩ := readMember_ok.mp found
      refine ⟨?_, ⟨readable.deny, readable.required, List.forall_mem_cons.mpr ⟨asked, readable.optional⟩⟩, ?_⟩
      · rw [spelled, parts, same]
        simp [entryRows, none_denied, none_required, memberRow, rowOf]
      · cases current <;> simp [Entries.From, none_denied, none_required]

/-- One row of a section at or after the current one is read and the rest goes on in it. -/
theorem readEntries_row (ordered : current.order ≤ kind.order) :
    readEntries nfc line current (rowOf kind.label value :: rows) = match kind with
      | .deny =>
        match tokenProblem nfc value with
        | some problem => bad "manifest.deny" (units s!"deny value {problem}")
        | none => do
          let entries ← readEntries nfc (line + 1) .deny rows
          return { entries with deny := value :: entries.deny }
      | .required => do
        let member ← readMember nfc .required value
        let entries ← readEntries nfc (line + 1) .required rows
        return { entries with required := member :: entries.required }
      | .optional => do
        let member ← readMember nfc .optional value
        let entries ← readEntries nfc (line + 1) .optional rows
        return { entries with optional := member :: entries.optional } := by
  have space : SP ∈ rowOf kind.label value := List.mem_append_right _ List.mem_cons_self
  rw [readEntries, if_neg (by simpa using space)]
  unfold rowOf
  rw [rowKey_apart (label_apart kind), sectionOf_label, rowValue_apart (label_apart kind)]
  dsimp only
  rw [if_neg (by omega)]
  cases kind <;> rfl

theorem readEntries_optional {members : List ReleaseMember} (readable : ∀ member ∈ members, ReadableMember nfc member) :
    readEntries nfc line current (members.map (memberRow .optional)) = .ok ⟨[], [], members⟩ := by
  induction members generalizing line current with
  | nil => rfl
  | cons member rest ih =>
    obtain ⟨first, others⟩ := List.forall_mem_cons.mp readable
    rw [List.map_cons, memberRow, readEntries_row (by cases current <;> decide)]
    simp only [readMember_ok.mpr ⟨first, rfl⟩, ih others]
    rfl

theorem readEntries_required {members others : List ReleaseMember} (ordered : current ≠ .optional)
    (required : ∀ member ∈ members, ReadableMember nfc member) (optional : ∀ member ∈ others, ReadableMember nfc member) :
    readEntries nfc line current (members.map (memberRow .required) ++ others.map (memberRow .optional)) =
      .ok ⟨[], members, others⟩ := by
  induction members generalizing line current with
  | nil => exact readEntries_optional optional
  | cons member rest ih =>
    obtain ⟨first, later⟩ := List.forall_mem_cons.mp required
    have reached : current.order ≤ Section.required.order := by cases current <;> simp [Section.order] at ordered ⊢
    have onward : Section.required ≠ .optional := by decide
    rw [List.map_cons, List.cons_append, memberRow, readEntries_row reached]
    simp only [readMember_ok.mpr ⟨first, rfl⟩, ih onward later]
    rfl

/-- The rows of readable entries are read as those entries. -/
theorem readEntries_entryRows (readable : ReadableEntries nfc entries) :
    readEntries nfc line .deny (entryRows entries) = .ok entries := by
  obtain ⟨deny, required, optional⟩ := entries
  obtain ⟨tokens, first, second⟩ := readable
  unfold entryRows
  dsimp only at tokens first second ⊢
  induction deny generalizing line with
  | nil => exact readEntries_required (by decide) first second
  | cons pattern rest ih =>
    obtain ⟨token, later⟩ := List.forall_mem_cons.mp tokens
    rw [List.map_cons, List.cons_append, show rowOf "deny" pattern = rowOf Section.deny.label pattern from rfl,
      readEntries_row (Nat.le_refl _)]
    simp only [token, ih later]
    rfl

end Entries

section Scalars

variable {nfc : JsString → JsString} {line : Nat} {rows rest heads : List JsString} {names : List String}
  {scalars : List (String × JsString)} {scalar : String → JsString} {entries : Entries} {release : LogicalRelease}

/-- What the parser asks of a scalar's row. -/
structure ReadableScalar (nfc : JsString → JsString) (name : String) (row : JsString) : Prop where
  key : rowKey row = units name
  token : tokenProblem nfc (rowValue row) = none

theorem readScalars_ok : readScalars nfc line names rows = .ok (scalars, rest) ↔
    ∃ heads, rows = heads ++ rest ∧ List.Forall₂ (ReadableScalar nfc) names heads ∧
      scalars = names.zip (heads.map rowValue) := by
  induction names generalizing line rows scalars with
  | nil =>
    refine ⟨fun read => ?_, fun ⟨heads, same, paired, found⟩ => ?_⟩
    · cases read
      exact ⟨[], rfl, .nil, rfl⟩
    · cases paired
      rw [same, found]
      rfl
  | cons name names ih =>
    cases rows with
    | nil =>
      refine ⟨fun read => ?_, fun ⟨heads, same, paired, _⟩ => ?_⟩
      · cases read
      · cases paired
        cases same
    | cons row rows =>
      rw [readScalars]
      refine ⟨fun read => ?_, fun ⟨heads, same, paired, found⟩ => ?_⟩
      · split at read
        · cases read
        next key =>
        split at read
        · cases read
        next token =>
        obtain ⟨⟨later, others⟩, continued, ended⟩ := bind_ok.mp read
        cases ended
        obtain ⟨heads, rfl, paired, rfl⟩ := ih.mp continued
        exact ⟨row :: heads, rfl, .cons ⟨Decidable.not_not.mp key, token⟩ paired, rfl⟩
      · cases paired with
        | cons readable paired =>
          obtain ⟨rfl, rfl⟩ := List.cons.inj same
          rw [if_neg (not_not.mpr readable.key), readable.token]
          rw [found]
          exact bind_ok.mpr ⟨_, ih.mpr ⟨_, rfl, paired, rfl⟩, rfl⟩

theorem boolOf_some {value : JsString} : boolOf value ≠ none ↔ value = units "true" ∨ value = units "false" := by
  unfold boolOf
  split
  · simp_all
  · split <;> simp_all

theorem boolText_boolOf {value : JsString} (read : boolOf value ≠ none) : boolText ((boolOf value).getD false) = value := by
  rcases boolOf_some.mp read with rfl | rfl <;> rfl

theorem boolOf_boolText (value : Bool) : boolOf (boolText value) = some value := by cases value <;> rfl

theorem scalarRefusal_none : scalarRefusal scalar = none ↔
    boolOf (scalar "allowTaskAdditions") ≠ none ∧ boolOf (scalar "allowTaskNarrowing") ≠ none ∧
      intToken (scalar "maxBytes") = true ∧ intToken (scalar "maxFreshnessDays") = true ∧
        releaseVersion (scalar "version") = true ∧ setFamilyId (scalar "family") = true := by
  unfold scalarRefusal
  split
  · simp_all
  split
  · simp_all
  split
  · simp_all
  split
  · simp_all
  split
  · simp_all
  split
  · simp_all
  · simp_all

theorem refusing_ok {refusal : Option ReleaseRefusal} {done : Unit} : refusing refusal = .ok done ↔ refusal = none := by
  cases refusal <;> simp [refusing]

/-- The value of a name among scalars. -/
def scalarIn (scalars : List (String × JsString)) (name : String) : JsString := (scalars.lookup name).getD []

theorem parseRows_ok : parseRows nfc rows = .ok release ↔
    ∃ heads entries, rows = units setReleaseFormat :: (heads ++ entryRows entries) ∧
      List.Forall₂ (ReadableScalar nfc) scalarNames heads ∧
      scalarRefusal (scalarIn (scalarNames.zip (heads.map rowValue))) = none ∧
      ReadableEntries nfc entries ∧ entriesRefusal entries = none ∧
      release = releaseOf (scalarIn (scalarNames.zip (heads.map rowValue))) entries := by
  refine ⟨fun read => ?_, fun ⟨heads, entries, same, paired, accepted, readable, ordered, found⟩ => ?_⟩
  · obtain ⟨rest, rfl⟩ := parseRows_head read
    rw [parseRows, if_neg (by simp)] at read
    obtain ⟨⟨scalars, others⟩, started, read⟩ := bind_ok.mp read
    obtain ⟨_, unrefused, read⟩ := bind_ok.mp read
    obtain ⟨entries, listed, read⟩ := bind_ok.mp read
    obtain ⟨_, ordered, ended⟩ := bind_ok.mp read
    obtain ⟨heads, whole, paired, rfl⟩ := readScalars_ok.mp started
    obtain ⟨rfl, readable, _⟩ := readEntries_rows listed
    rw [List.tail_cons] at whole
    cases ended
    exact ⟨heads, entries, congrArg _ whole, paired, refusing_ok.mp unrefused, readable, refusing_ok.mp ordered, rfl⟩
  · rw [same, parseRows, if_neg (by simp), List.tail_cons, found]
    refine bind_ok.mpr ⟨_, readScalars_ok.mpr ⟨heads, rfl, paired, rfl⟩, ?_⟩
    refine bind_ok.mpr ⟨(), refusing_ok.mpr accepted, ?_⟩
    refine bind_ok.mpr ⟨_, readEntries_entryRows readable, ?_⟩
    exact bind_ok.mpr ⟨(), refusing_ok.mpr ordered, rfl⟩

end Scalars

end SecureHome.Toolchain
