import SecureHome.Proofs.RevisionPairs

/-! What a state of no problems is: its records stand under identifiers of their own, and
the fields that anything is derived from have their types. -/

namespace SecureHome.Governance
open Lib

section Fields

variable {value : Option Value} {expression : JsString → Bool} {path : JsString} {code : String}

theorem validId_nil : validId value expression path code = [] ↔ ∃ text, value = some (.string text) ∧ expression text = true := by
  unfold validId
  rw [refuse_nil, Bool.not_eq_false']
  split
  next text => simp
  next other =>
    apply iff_of_false Bool.false_ne_true
    rintro ⟨text, rfl, _⟩
    exact other text rfl

theorem textAt_iff {record : Value} {name : String} {text : JsString} :
    textAt record name = some text ↔ read record name = some (.string text) := by
  unfold textAt
  split
  next held found => simp [found]
  next other =>
    apply iff_of_false
    · intro held
      cases held
    · intro found
      exact other text found

theorem textOf_id {record : Value} {name : String} {text : JsString} (held : textAt record name = some text) :
    textOf (read record name) = text := by
  rw [textAt_iff.mp held]
  rfl

theorem memberProblems_nil {valueValidator : Option Value → JsString → List Problem} {items : List Value} {index : Nat}
    (quiet : memberProblems path valueValidator index items = []) : ∀ item ∈ items, ∃ place, valueValidator (some item) place = [] := by
  induction items generalizing index with
  | nil => exact fun _ member => absurd member List.not_mem_nil
  | cons first rest ih =>
    obtain ⟨here, later⟩ := List.append_eq_nil_iff.mp quiet
    exact List.forall_mem_cons.mpr ⟨⟨_, here⟩, ih later⟩

theorem duplicateMembers_nil {items : List Value} {index : Nat} {seen : List JsString}
    (quiet : duplicateMembers path index seen items = []) : (items.map memberKey).Nodup ∧ ∀ item ∈ items, memberKey item ∉ seen := by
  induction items generalizing index seen with
  | nil => exact ⟨List.nodup_nil, fun _ member => absurd member List.not_mem_nil⟩
  | cons first rest ih =>
    obtain ⟨here, later⟩ := List.append_eq_nil_iff.mp quiet
    obtain ⟨distinct, unseen⟩ := ih later
    rw [refuse_nil] at here
    constructor
    · refine List.nodup_cons.mpr ⟨?_, distinct⟩
      intro again
      obtain ⟨item, member, same⟩ := List.mem_map.mp again
      exact unseen item member (same ▸ List.mem_cons_self)
    · refine List.forall_mem_cons.mpr ⟨by simpa using here, ?_⟩
      intro item member found
      exact unseen item member (List.mem_cons_of_mem _ found)

/-- A set of identifiers, each there once. -/
theorem identifiers_of_set {items : List Value}
    (quiet : validateSet (some (.array items)) path (fun member place => validId member expression place code) = []) :
    ∃ ids : List JsString, items = ids.map .string ∧ ids.Nodup ∧ ∀ id ∈ ids, expression id = true := by
  obtain ⟨distinct, each⟩ := List.append_eq_nil_iff.mp quiet
  have strings : ∀ item ∈ items, ∃ id, item = .string id ∧ expression id = true := by
    intro item member
    obtain ⟨place, valid⟩ := memberProblems_nil each item member
    obtain ⟨text, held, fits⟩ := validId_nil.mp valid
    exact ⟨text, Option.some.inj held, fits⟩
  have keys := (duplicateMembers_nil distinct).1
  clear quiet distinct each
  induction items with
  | nil => exact ⟨[], rfl, List.nodup_nil, fun _ member => absurd member List.not_mem_nil⟩
  | cons first rest ih =>
    obtain ⟨⟨id, rfl, fits⟩, others⟩ := List.forall_mem_cons.mp strings
    obtain ⟨alone, keys⟩ := List.nodup_cons.mp keys
    obtain ⟨ids, rfl, distinct, all⟩ := ih others keys
    refine ⟨id :: ids, rfl, List.nodup_cons.mpr ⟨?_, distinct⟩, List.forall_mem_cons.mpr ⟨fits, all⟩⟩
    intro member
    exact alone (List.mem_map.mpr ⟨.string id, List.mem_map.mpr ⟨id, member, rfl⟩, rfl⟩)

end Fields

section Records

variable {records : List Value} {record : Value} {id : JsString}

abbrev idOf (record : Value) : Option JsString := textAt record "id"

/-- Records under identifiers of their own. -/
structure Named (records : List Value) : Prop where
  each : ∀ record ∈ records, ∃ id, idOf record = some id
  distinct : (records.map idOf).Nodup

theorem Named.alone (named : Named records) {other : Value} (member : record ∈ records) (member' : other ∈ records)
    (same : idOf record = idOf other) : record = other :=
  List.inj_on_of_nodup_map named.distinct member member' same

theorem Named.lookup (named : Named records) (member : record ∈ records) (held : idOf record = some id) :
    (byId records).lookup id = some record := by
  obtain ⟨found, here⟩ := Option.ne_none_iff_exists'.mp (lookup_byId_iff.mpr ⟨record, member, held⟩)
  obtain ⟨there, also⟩ := (byId_indexed records).listed id found here
  rw [here, named.alone there member (also.trans held.symm)]

theorem Named.left {others : List Value} (named : Named (records ++ others)) : Named records where
  each record member := named.each record (List.mem_append_left _ member)
  distinct := by
    have distinct := named.distinct
    rw [List.map_append] at distinct
    exact (List.nodup_append.mp distinct).1

theorem Named.right {others : List Value} (named : Named (others ++ records)) : Named records where
  each record member := named.each record (List.mem_append_right _ member)
  distinct := by
    have distinct := named.distinct
    rw [List.map_append] at distinct
    exact (List.nodup_append.mp distinct).2.1

theorem distinctNodes_nil {ids : List JsString} (quiet : distinctNodes ids records = []) :
    (records.filterMap idOf).Nodup ∧ ∀ record ∈ records, ∀ id, idOf record = some id → id ∉ ids := by
  induction records generalizing ids with
  | nil => exact ⟨List.nodup_nil, fun _ member => absurd member List.not_mem_nil⟩
  | cons first rest ih =>
    rw [distinctNodes] at quiet
    split at quiet
    next id held =>
      obtain ⟨here, later⟩ := List.append_eq_nil_iff.mp quiet
      obtain ⟨distinct, unseen⟩ := ih later
      rw [refuse_nil] at here
      constructor
      · rw [@List.filterMap_cons_some _ _ idOf _ _ _ held]
        refine List.nodup_cons.mpr ⟨?_, distinct⟩
        intro again
        obtain ⟨record, member, named⟩ := List.mem_filterMap.mp again
        exact unseen record member id named List.mem_cons_self
      · refine List.forall_mem_cons.mpr ⟨?_, ?_⟩
        · intro other named
          cases held.symm.trans named
          simpa using here
        · intro record member other named found
          exact unseen record member other named (List.mem_cons_of_mem _ found)
    next unnamed =>
      obtain ⟨distinct, unseen⟩ := ih quiet
      rw [@List.filterMap_cons_none _ _ idOf _ _ unnamed]
      refine ⟨distinct, List.forall_mem_cons.mpr ⟨?_, unseen⟩⟩
      intro other named
      cases unnamed.symm.trans named

theorem named_of_distinct (each : ∀ record ∈ records, ∃ id, idOf record = some id)
    (distinct : (records.filterMap idOf).Nodup) : Named records := by
  refine ⟨each, ?_⟩
  induction records with
  | nil => exact List.nodup_nil
  | cons first rest ih =>
    obtain ⟨⟨id, held⟩, others⟩ := List.forall_mem_cons.mp each
    rw [List.filterMap_cons_some held] at distinct
    obtain ⟨alone, distinct⟩ := List.nodup_cons.mp distinct
    refine List.nodup_cons.mpr ⟨?_, ih others distinct⟩
    intro again
    obtain ⟨record, member, same⟩ := List.mem_map.mp again
    exact alone (List.mem_filterMap.mpr ⟨record, member, same.trans held⟩)

end Records

section States

variable {Context : Type} {checks : OtherChecks Context} {context : Context} {state : Value}

structure ValidGate (gate : Value) : Prop where
  id : ∃ id, idOf gate = some id
  kind : isText (read gate "kind") "gate" = true
  question : ∃ question, readIn (read gate "predicate") "question" = some (.string question)
  requires : read gate "requires" = none
  replaces : read gate "replaces" = some .null ∨ ∃ target, named gate = some target

structure ValidLanding (landing : Value) : Prop where
  id : ∃ id, idOf landing = some id
  kind : oneOf (read landing "kind") landingKinds = true
  requires : ∃ ids : List JsString, read landing "requires" = some (.array (ids.map .string)) ∧ ids.Nodup
  replaces : read landing "replaces" = some .null ∨ ∃ target, named landing = some target
  delivery : ∃ fields, read landing "delivery" = some (.object fields)

/-- A landing is no gate. -/
theorem ValidLanding.not_gate {landing : Value} (valid : ValidLanding landing) : isText (read landing "kind") "gate" = false := by
  obtain ⟨kind, listed, named⟩ := List.any_eq_true.mp valid.kind
  by_contra gate
  rw [Bool.not_eq_false] at gate
  have apart : landingKinds.all (fun kind => units kind ≠ units "gate") = true := by decide
  have different := List.all_eq_true.mp apart kind listed
  rw [decide_eq_true_eq] at different
  exact different (isText_unique named gate)

structure ValidState (state : Value) : Prop where
  nodes : Named (nodesOf state)
  gates : ∀ gate ∈ members state "gates", ValidGate gate
  landings : ∀ landing ∈ members state "landings", ValidLanding landing

theorem replaces_valid {value : Option Value} {path : JsString} (quiet : validateReplacementTarget value path = []) :
    value = some .null ∨ ∃ target, value = some (.string target) := by
  unfold validateReplacementTarget at quiet
  split at quiet
  · exact .inl rfl
  next text => exact .inr ⟨text, rfl⟩
  · cases quiet

/-- A record of checked fields has no other. -/
theorem checkFields_nil {value : Value} {allowed : List String} {path : JsString} (quiet : checkFields value allowed path = [])
    {name : String} (other : units name ∉ allowed.map units) : read value name = none := by
  cases value with
  | object fields =>
    unfold checkFields at quiet
    simp only [List.flatMap_eq_nil_iff] at quiet
    by_contra held
    obtain ⟨member, found⟩ := Option.ne_none_iff_exists'.mp held
    have problem := quiet (units name, member) (mem_of_lookup found)
    rw [if_neg other] at problem
    cases problem
  | _ => rfl

theorem gate_valid {gate : Value} {path : JsString} (quiet : validateGate checks gate path = []) : ValidGate gate := by
  unfold validateGate at quiet
  split at quiet
  · simp only [List.append_eq_nil_iff, refuse_nil, Bool.not_eq_false'] at quiet
    obtain ⟨⟨⟨⟨fields, _⟩, id⟩, kind⟩, rest⟩ := quiet
    split at rest
    · simp only [List.append_eq_nil_iff] at rest
      obtain ⟨⟨question, replaced⟩, _⟩ := rest
      unfold validateReplacement at replaced
      obtain ⟨text, held, _⟩ := validId_nil.mp id
      obtain ⟨asked, found, _⟩ := validId_nil.mp question
      refine ⟨⟨text, textAt_iff.mpr held⟩, kind, ⟨asked, found⟩, checkFields_nil fields (by decide), ?_⟩
      exact (replaces_valid (List.append_eq_nil_iff.mp replaced).1).imp_right (Exists.imp fun _ => textAt_iff.mpr)
    next shape => exact absurd (requireObject_nil rest) shape
  next shape => exact absurd (requireObject_nil quiet) shape

theorem landing_valid {landing : Value} {path : JsString} (quiet : validateLanding checks context landing path = []) :
    ValidLanding landing := by
  unfold validateLanding at quiet
  split at quiet
  · simp only [List.append_eq_nil_iff, refuse_nil, Bool.not_eq_false'] at quiet
    obtain ⟨⟨⟨⟨⟨⟨_, id⟩, kind⟩, requires⟩, replaced⟩, delivery⟩, _⟩ := quiet
    unfold validateReplacement at replaced
    obtain ⟨text, held, _⟩ := validId_nil.mp id
    refine ⟨⟨text, textAt_iff.mpr held⟩, kind, ?_, ?_, ?_⟩
    · unfold validateSet at requires
      split at requires
      next items found =>
        obtain ⟨ids, rfl, distinct, _⟩ := identifiers_of_set requires
        exact ⟨ids, found, distinct⟩
      · cases requires
    · exact (replaces_valid (List.append_eq_nil_iff.mp replaced).1).imp_right (Exists.imp fun _ => textAt_iff.mpr)
    · unfold validateDelivery at delivery
      split at delivery
      next fields found => exact ⟨fields, found⟩
      next other =>
        have shape := requireObject_nil delivery
        unfold isObject at shape
        split at shape
        next fields found => exact absurd found (other fields)
        · cases shape
  next shape => exact absurd (requireObject_nil quiet) shape

theorem adr_path {adr : Value} {path : JsString} (quiet : validateAdr checks context adr path = []) :
    ∃ text, read adr "path" = some (.string text) := by
  unfold validateAdr at quiet
  split at quiet
  · simp only [List.append_eq_nil_iff] at quiet
    obtain ⟨⟨⟨⟨⟨_, place⟩, _⟩, _⟩, _⟩, _⟩ := quiet
    unfold validRepoPath at place
    split at place
    next first rest held => exact ⟨first :: rest, held⟩
    · cases place
  next shape => exact absurd (requireObject_nil quiet) shape

theorem validState (quiet : validateTopLevel checks context state = []) : ValidState state := by
  have gates : ∀ gate ∈ members state "gates", ValidGate gate := by
    intro gate member
    obtain ⟨path, valid⟩ := members_valid (by decide : "gates" ∈ collections) quiet gate member
    exact gate_valid valid
  have landings : ∀ landing ∈ members state "landings", ValidLanding landing := by
    intro landing member
    obtain ⟨path, valid⟩ := members_valid (by decide : "landings" ∈ collections) quiet landing member
    exact landing_valid valid
  refine ⟨named_of_distinct ?_ ?_, gates, landings⟩
  · intro node member
    rcases List.mem_append.mp member with gate | landing
    · exact (gates node gate).id
    · exact (landings node landing).id
  · unfold validateTopLevel at quiet
    split at quiet
    · simp only [List.append_eq_nil_iff] at quiet
      exact (distinctNodes_nil quiet.1.2).1
    next shape => exact absurd (requireObject_nil quiet) shape

theorem requiresOf_eq {landing : Value} {ids : List JsString} (held : read landing "requires" = some (.array (ids.map .string))) :
    requiresOf landing = ids := by
  unfold requiresOf members
  rw [held, List.filterMap_map]
  exact List.filterMap_some

end States

end SecureHome.Governance
