import SecureHome.Lib.Fallible
import SecureHome.Toolchain.Succession

/-! Released identities over a history of registry revisions. What a step compares it
compares deeply, as long as no property is named after the prototype. -/

namespace SecureHome.Toolchain
open Lib

section Comparison
open JsValue

variable {was now : JsonValue} {fields others : JsonFields} {name path : JsString}

theorem same_json (equal : (json was).same (json now) = true) : was = now := by
  cases was <;> cases now <;> simp [same] at equal ⊢
  all_goals exact equal

theorem fieldChanges_object {one other : JsValue} (distinct : one.same other = false)
    (objects : one.isJsonObject = true ∧ other.isJsonObject = true) (unchanged : fieldChanges one other path = [])
    (listed : name ∈ one.keys ∨ name ∈ other.keys) : ∃ inner, fieldChanges (one.read name) (other.read name) inner = [] := by
  unfold fieldChanges at unchanged
  rw [if_neg (by simp [distinct]), if_pos objects, List.flatMap_eq_nil_iff] at unchanged
  exact ⟨_, unchanged ⟨name, mem_comparedKeys.mpr listed⟩ (List.mem_attach _ _)⟩

theorem fieldChanges_array {items others : List JsonValue}
    (unchanged : fieldChanges (json (.array items)) (json (.array others)) path = []) {place : Nat}
    (within : place < max items.length others.length) :
    ∃ inner, fieldChanges ((items[place]?.map json).getD undefined) ((others[place]?.map json).getD undefined) inner = [] := by
  unfold fieldChanges at unchanged
  rw [if_neg (by simp [same]), if_neg (by simp [isJsonObject])] at unchanged
  rw [List.flatMap_eq_nil_iff] at unchanged
  exact ⟨_, unchanged ⟨place, List.mem_range.mpr within⟩ (List.mem_attach _ _)⟩

/-- Values that are no containers of one kind are told apart by `===`. -/
theorem fieldChanges_leaf {one other : JsValue} (objects : ¬ (one.isJsonObject = true ∧ other.isJsonObject = true))
    (arrays : ∀ items others, one = json (.array items) → other = json (.array others) → False)
    (unchanged : fieldChanges one other path = []) : one.same other = true := by
  by_contra distinct
  unfold fieldChanges at unchanged
  rw [if_neg distinct, if_neg objects] at unchanged
  split at unchanged
  next items others => exact arrays items others rfl rfl
  next => cases unchanged

/-- No parsed value is unchanged where nothing or a method is read. -/
theorem fieldChanges_inherited {prototype : JsValue} (ordinary : name ≠ protoKey) :
    fieldChanges (json was) (inherited prototype name) path ≠ [] ∧
      fieldChanges (inherited prototype name) (json was) path ≠ [] := by
  unfold inherited
  rw [if_neg ordinary]
  refine ⟨fun unchanged => ?_, fun unchanged => ?_⟩ <;> split at unchanged
  · exact absurd (fieldChanges_leaf (by simp [isJsonObject]) (by simp) unchanged) (by cases was <;> simp [same])
  · exact absurd (fieldChanges_leaf (by simp [isJsonObject]) (by simp) unchanged) (by cases was <;> simp [same])
  · exact absurd (fieldChanges_leaf (by simp [isJsonObject]) (by simp) unchanged) (by cases was <;> simp [same])
  · exact absurd (fieldChanges_leaf (by simp [isJsonObject]) (by simp) unchanged) (by cases was <;> simp [same])

theorem fieldChanges_undefined (unchanged : fieldChanges (json was) undefined path = [] ∨ fieldChanges undefined (json was) path = []) :
    False := by
  rcases unchanged with unchanged | unchanged
  · exact absurd (fieldChanges_leaf (by simp [isJsonObject]) (by simp) unchanged) (by cases was <;> simp [same])
  · exact absurd (fieldChanges_leaf (by simp [isJsonObject]) (by simp) unchanged) (by cases was <;> simp [same])

/-- Wherever both values hold an object, both or neither has a property named `__proto__`. -/
def Aligned (was now : JsonValue) : Prop :=
  ∀ path fields others, was.find path = some (.object fields) → now.find path = some (.object others) →
    ((fields.lookup protoKey).isSome ↔ (others.lookup protoKey).isSome)

theorem Aligned.child {step : Json.Step} {one other : JsonValue} (aligned : Aligned was now)
    (first : was.child step = some one) (second : now.child step = some other) : Aligned one other := by
  intro path fields others here there
  refine aligned (step :: path) fields others ?_ ?_
  · rw [Json.find, first]
    exact here
  · rw [Json.find, second]
    exact there

/-- A property both values have unchanged is compared as it is, and one that only one of
them has is a change, unless it is named `__proto__`. -/
theorem own_equal {otherwise : JsValue}
    (aligned : name = protoKey → ((fields.lookup name).isSome ↔ (others.lookup name).isSome))
    (below : ∀ one other inner, fields.lookup name = some one → others.lookup name = some other →
      fieldChanges (json one) (json other) inner = [] → Json.DeepEqual one other)
    (absent : otherwise = inherited objectPrototype name)
    (unchanged : name ∈ fields.map Prod.fst ∨ name ∈ others.map Prod.fst →
      ∃ inner, fieldChanges (own fields name otherwise) (own others name otherwise) inner = []) :
    Option.Rel Json.DeepEqual (fields.lookup name) (others.lookup name) := by
  have listed {fields : JsonFields} {value : JsonValue} (found : fields.lookup name = some value) :
      name ∈ fields.map Prod.fst := mem_keys.mpr ⟨value, found⟩
  unfold own at unchanged
  cases first : fields.lookup name with
  | none =>
    cases second : others.lookup name with
    | none => exact .none
    | some other =>
      obtain ⟨inner, same⟩ := unchanged (.inr (listed second))
      rw [first, second, absent] at same
      refine absurd same (fieldChanges_inherited fun named => ?_).2
      simp [first, second] at aligned
      exact aligned named
  | some one =>
    cases second : others.lookup name with
    | none =>
      obtain ⟨inner, same⟩ := unchanged (.inl (listed first))
      rw [first, second, absent] at same
      refine absurd same (fieldChanges_inherited fun named => ?_).1
      simp [first, second] at aligned
      exact aligned named
    | some other =>
      obtain ⟨inner, same⟩ := unchanged (.inl (listed first))
      rw [first, second] at same
      exact .some (below one other inner first second same)

/-- Aligned values of no difference are deeply equal, by induction on how deep they go. -/
theorem unchanged_within (bound : Nat) (shallow : was.height + now.height < bound) (aligned : Aligned was now)
    (unchanged : fieldChanges (json was) (json now) path = []) : Json.DeepEqual was now := by
  induction bound generalizing was now path with
  | zero => omega
  | succ bound ih =>
    by_cases objects : (json was).isJsonObject = true ∧ (json now).isJsonObject = true
    · match was, now, objects with
      | .object fields, .object others, objects =>
        refine Json.deepEqual_object.mpr fun name => ?_
        refine own_equal (fun named => ?_) (fun one other inner first second same => ?_) rfl
          (fieldChanges_object rfl objects unchanged)
        · rw [named]
          exact aligned [] fields others rfl rfl
        · have low := Json.height_field first
          have below := Json.height_field second
          refine ih ?_ (@Aligned.child _ _ (.key name) _ _ aligned first second) same
          simp only [Json.height] at shallow
          omega
    · by_cases arrays : ∃ items others, was = .array items ∧ now = .array others
      · obtain ⟨items, others, rfl, rfl⟩ := arrays
        refine Json.deepEqual_array.mpr fun place => ?_
        have read := @fieldChanges_array path items others unchanged place
        cases first : items[place]? with
        | none =>
          cases second : others[place]? with
          | none => exact .none
          | some other =>
            obtain ⟨within, _⟩ := List.getElem?_eq_some_iff.mp second
            obtain ⟨inner, same⟩ := read (by omega)
            rw [first, second] at same
            exact (fieldChanges_undefined (.inr same)).elim
        | some one =>
          obtain ⟨within, _⟩ := List.getElem?_eq_some_iff.mp first
          obtain ⟨inner, same⟩ := read (by omega)
          rw [first] at same
          cases second : others[place]? with
          | none =>
            rw [second] at same
            exact (fieldChanges_undefined (.inl same)).elim
          | some other =>
            rw [second] at same
            have low := Json.height_item first
            have below := Json.height_item second
            refine .some (ih ?_ (@Aligned.child _ _ (.index place) _ _ aligned first second) same)
            simp only [Json.height] at shallow
            omega
      · rw [same_json (fieldChanges_leaf objects ?_ unchanged)]
        · exact .refl now
        · intro items others first second
          cases first
          cases second
          exact arrays ⟨items, others, rfl, rfl⟩

theorem unchanged_equal (aligned : Aligned was now) (unchanged : fieldChanges (json was) (json now) path = []) :
    Json.DeepEqual was now := unchanged_within _ (Nat.lt_succ_self _) aligned unchanged

end Comparison

section Records
open JsValue

variable {fields others : JsonFields} {name : JsString}

/-- The property of a copied record. -/
theorem copied_lookup (other : name ≠ units "state" ∧ name ≠ protoKey) :
    (fields.filter fun field => decide (field.1 ≠ units "state" ∧ field.1 ≠ protoKey)).lookup name = fields.lookup name := by
  rw [lookup_filter fun key => decide (key ≠ units "state" ∧ key ≠ protoKey), if_pos (decide_eq_true other)]

theorem copied_proto :
    (fields.filter fun field => decide (field.1 ≠ units "state" ∧ field.1 ≠ protoKey)).lookup protoKey = none := by
  rw [lookup_filter fun key => decide (key ≠ units "state" ∧ key ≠ protoKey), if_neg (by simp)]

theorem copied_read {value : JsonValue} (named : name ≠ units "state" ∧ name ≠ protoKey)
    (found : fields.lookup name = some value) : (withoutState fields).read name = json value := by
  show own _ name _ = json value
  rw [own, copied_lookup named, found]
  rfl

theorem copies_distinct : (withoutState fields).same (withoutState others) = false := rfl

/-- Unchanged records have the same texts under a name of both. -/
theorem text_unchanged {one other : JsString} (named : name ≠ units "state" ∧ name ≠ protoKey)
    (unchanged : fieldChanges (withoutState fields) (withoutState others) [] = [])
    (first : fields.lookup name = some (.string one)) (second : others.lookup name = some (.string other)) : one = other := by
  have listed : name ∈ (withoutState fields).keys := mem_keys.mpr ⟨_, (copied_lookup named).trans first⟩
  obtain ⟨inner, same⟩ := fieldChanges_object copies_distinct ⟨rfl, rfl⟩ unchanged (.inl listed)
  rw [copied_read named first, copied_read named second] at same
  have equal := fieldChanges_leaf (by simp [isJsonObject]) (by simp) same
  simpa [JsValue.same] using equal

/-- Unchanged records without `__proto__` are deeply equal but for their state. -/
theorem fields_unchanged (plain : fields.lookup protoKey = none ∧ others.lookup protoKey = none)
    (aligned : Aligned (.object fields) (.object others))
    (unchanged : fieldChanges (withoutState fields) (withoutState others) [] = []) (named : name ≠ units "state") :
    Option.Rel Json.DeepEqual (fields.lookup name) (others.lookup name) := by
  by_cases proto : name = protoKey
  · rw [proto, plain.1, plain.2]
    exact .none
  · have copied {fields : JsonFields} := @copied_lookup fields name ⟨named, proto⟩
    have reads {fields : JsonFields} (bare : fields.lookup protoKey = none) : (withoutState fields).read name =
        own (fields.filter fun field => decide (field.1 ≠ units "state" ∧ field.1 ≠ protoKey)) name
          (inherited objectPrototype name) := by
      rw [withoutState, bare]
      rfl
    rw [← @copied fields, ← @copied others]
    refine own_equal (fun same => absurd same proto) (fun one other inner first second same => ?_) rfl fun listed => ?_
    · rw [copied] at first second
      exact unchanged_equal (@Aligned.child _ _ (.key name) _ _ aligned first second) same
    · rw [← reads plain.1, ← reads plain.2]
      exact fieldChanges_object copies_distinct ⟨rfl, rfl⟩ unchanged listed

/-- A record but for its state. -/
def rest : JsonValue → JsonValue
  | .object fields => .object (fields.filter fun field => field.1 ≠ units "state")
  | other => other

theorem rest_unchanged (plain : fields.lookup protoKey = none ∧ others.lookup protoKey = none)
    (aligned : Aligned (.object fields) (.object others))
    (unchanged : fieldChanges (withoutState fields) (withoutState others) [] = []) :
    Json.DeepEqual (rest (.object fields)) (rest (.object others)) := by
  refine Json.deepEqual_object.mpr fun name => ?_
  rw [lookup_filter fun key => decide (key ≠ units "state"), lookup_filter fun key => decide (key ≠ units "state")]
  split
  next named => exact fields_unchanged plain aligned unchanged (of_decide_eq_true named)
  next => exact .none

end Records

section Steps

variable {stringify : JsValue → Option JsString} {prior current : List JsonValue} {record : JsonValue}
  {name other : JsString × JsString} {fields others : JsonFields}

/-- The family and version a record has. -/
def nameOf (record : JsonValue) : Option (JsString × JsString) := (identity record).map Prod.fst

theorem identity_some : identity record = some (name, fields) ↔ record = .object fields ∧
    fields.lookup (units "familyId") = some (.string name.1) ∧ fields.lookup (units "version") = some (.string name.2) := by
  refine ⟨fun identified => ?_, fun ⟨same, family, version⟩ => ?_⟩
  · unfold identity at identified
    split at identified
    next fields =>
      split at identified
      next family version first second =>
        cases identified
        exact ⟨rfl, first, second⟩
      next => cases identified
    next => cases identified
  · rw [same, identity, family, version]

/-- The keys and fields of named records. -/
abbrev keyed (entries : List ((JsString × JsString) × JsonFields)) : List (JsString × JsonFields) :=
  entries.map fun entry => (keyOf entry.1, entry.2)

/-- An index that refuses nothing has every record, under a key of its own. -/
theorem index_unrefused {side : Side} {byKey : List (JsString × JsonFields)} {records : List JsonValue}
    (distinct : (byKey.map Prod.fst).Nodup) (unrefused : (index stringify side byKey records).1 = []) :
    ∃ entries, records.map identity = entries.map some ∧
      (index stringify side byKey records).2 = byKey ++ keyed entries ∧
        ((byKey ++ keyed entries).map Prod.fst).Nodup := by
  induction records generalizing byKey with
  | nil => exact ⟨[], rfl, (List.append_nil byKey).symm, by simpa using distinct⟩
  | cons record records ih =>
    rw [index] at unrefused ⊢
    cases named : identity record with
    | none =>
      rw [named] at unrefused
      cases unrefused
    | some entry =>
      obtain ⟨name, fields⟩ := entry
      simp only [named] at unrefused ⊢
      split at unrefused
      next => cases unrefused
      next fresh =>
        have apart : ((byKey ++ [(keyOf name, fields)]).map Prod.fst).Nodup := by
          rw [List.map_append, List.nodup_append]
          refine ⟨distinct, List.nodup_singleton _, fun key listed one only same => fresh ?_⟩
          rw [List.map_singleton, List.mem_singleton] at only
          have equal : key = keyOf name := same.trans only
          rw [← equal]
          exact Option.isSome_iff_exists.mpr (mem_keys.mp listed)
        obtain ⟨entries, same, indexed, kept⟩ := ih apart unrefused
        rw [if_neg fresh]
        refine ⟨(name, fields) :: entries, ?_, ?_, ?_⟩
        · rw [List.map_cons, List.map_cons, named, same]
        · rw [indexed, List.append_assoc]
          rfl
        · rw [List.append_assoc] at kept
          exact kept

/-- What a succession of no refusal compares. -/
structure Succeeds (stringify : JsValue → Option JsString) (prior current : List JsonValue)
    (were are : List ((JsString × JsString) × JsonFields)) : Prop where
  prior : prior.map identity = were.map some
  current : current.map identity = are.map some
  distinct : ((keyed were).map Prod.fst).Nodup
  apart : ((keyed are).map Prod.fst).Nodup
  carried : ∀ entry ∈ keyed were, priorRefusals stringify (keyed are) entry.1 entry.2 = []
  added : ∀ entry ∈ keyed are, (keyed were).lookup entry.1 = none → addedRefusals stringify entry.1 entry.2 = []

theorem succeeds (unrefused : (validateRegistrySuccession stringify prior current).refusals = []) :
    ∃ were are, Succeeds stringify prior current were are := by
  unfold validateRegistrySuccession at unrefused
  simp only [List.append_eq_nil_iff, List.flatMap_eq_nil_iff] at unrefused
  obtain ⟨⟨⟨first, second⟩, carried⟩, added⟩ := unrefused
  obtain ⟨were, sameWere, indexedWere, distinct⟩ := @index_unrefused stringify _ [] _ List.nodup_nil first
  obtain ⟨are, sameAre, indexedAre, apart⟩ := @index_unrefused stringify _ [] _ List.nodup_nil second
  rw [indexedWere, indexedAre] at carried added
  refine ⟨were, are, sameWere, sameAre, distinct, apart, carried, fun entry listed fresh => added entry ?_⟩
  exact List.mem_filter.mpr ⟨listed, by simpa using congrArg Option.isNone fresh⟩

variable {were are : List ((JsString × JsString) × JsonFields)}

theorem mem_entries {records : List JsonValue} (same : records.map identity = were.map some) :
    (name, fields) ∈ were ↔ ∃ record ∈ records, identity record = some (name, fields) := by
  have images := congrArg (some (name, fields) ∈ ·) same
  simpa [eq_comm] using (iff_of_eq images).symm

theorem entry_names {records : List JsonValue} (same : records.map identity = were.map some) (listed : (name, fields) ∈ were) :
    Json.object fields ∈ records ∧ fields.lookup (units "familyId") = some (.string name.1) ∧
      fields.lookup (units "version") = some (.string name.2) := by
  obtain ⟨record, member, identified⟩ := (mem_entries same).mp listed
  obtain ⟨rfl, named⟩ := identity_some.mp identified
  exact ⟨member, named⟩

theorem names_ordinary : (units "familyId" ≠ units "state" ∧ units "familyId" ≠ protoKey) ∧
    (units "version" ≠ units "state" ∧ units "version" ≠ protoKey) := by decide

/-- A carried record is unchanged, and its transition is allowed. -/
theorem carried_unchanged (succession : Succeeds stringify prior current were are) (was : (name, fields) ∈ were)
    (key : keyOf other = keyOf name) (now : (other, others) ∈ are) :
    other = name ∧ fieldChanges (withoutState fields) (withoutState others) [] = [] ∧
      successionTransition stringify (stateOf fields) (stateOf others) = .allowed := by
  have found : (keyed are).lookup (keyOf name) = some others := by
    rw [← key]
    exact lookup_of_mem succession.apart (List.mem_map_of_mem now)
  have unrefused := succession.carried _ (List.mem_map_of_mem was)
  rw [priorRefusals, found] at unrefused
  obtain ⟨unmutated, transition⟩ := List.append_eq_nil_iff.mp unrefused
  have unchanged := List.map_eq_nil_iff.mp unmutated
  obtain ⟨_, wasFamily, wasVersion⟩ := entry_names succession.prior was
  obtain ⟨_, nowFamily, nowVersion⟩ := entry_names succession.current now
  refine ⟨Prod.ext ?_ ?_, unchanged, ?_⟩
  · exact (text_unchanged names_ordinary.1 unchanged wasFamily nowFamily).symm
  · exact (text_unchanged names_ordinary.2 unchanged wasVersion nowVersion).symm
  · split at transition
    next allowed => exact allowed
    next => cases transition

/-- Every record of the prior revision is carried. -/
theorem carried_entry (succession : Succeeds stringify prior current were are) (was : (name, fields) ∈ were) :
    ∃ others, (name, others) ∈ are := by
  have unrefused := succession.carried _ (List.mem_map_of_mem was)
  rw [priorRefusals] at unrefused
  split at unrefused
  next => cases unrefused
  next others found =>
    obtain ⟨⟨other, _⟩, listed, pair⟩ := List.mem_map.mp (mem_of_lookup found)
    obtain ⟨key, rfl⟩ := Prod.mk.inj pair
    rw [← (carried_unchanged succession was key listed).1]
    exact ⟨_, listed⟩

def ReleaseState.rank : ReleaseState → Nat
  | released => 0
  | deprecated => 1
  | retired => 2

/-- The state a record is in, if it is one. -/
def stateIn : JsonValue → Option ReleaseState
  | .object fields => ReleaseState.known (stateOf fields)
  | _ => none

theorem transition_allowed {source target : JsValue} (allowed : successionTransition stringify source target = .allowed) :
    ∃ from_state to_state, ReleaseState.known source = some from_state ∧ ReleaseState.known target = some to_state ∧
      from_state.rank ≤ to_state.rank ∧ to_state.rank ≤ from_state.rank + 1 := by
  unfold successionTransition at allowed
  split at allowed
  next first second knownFirst knownSecond =>
    refine ⟨first, second, knownFirst, knownSecond, ?_⟩
    cases first <;> cases second <;> first | decide | cases allowed
  next => cases allowed

theorem added_released (unrefused : addedRefusals stringify (keyOf name) fields = []) :
    stateIn (.object fields) = some .released := by
  unfold addedRefusals at unrefused
  split at unrefused
  next same =>
    have text : stateOf fields = .json (.string (units "Released")) := by
      unfold JsValue.same at same
      split at same <;> simp_all
    rw [stateIn, text]
    decide
  next => cases unrefused

/-- No two versions of a record are told apart by a property named `__proto__`: neither has
one, and of two objects at one path below both or neither have one. -/
structure Unprototyped (was now : JsonValue) : Prop where
  was_bare : was.child (.key protoKey) = none
  now_bare : now.child (.key protoKey) = none
  below : Aligned was now

/-- What a step keeps of a record. -/
structure Keeps (was now : JsonValue) (steps : Nat) : Prop where
  rest : Json.DeepEqual (rest was) (rest now)
  states : ∃ source target, stateIn was = some source ∧ stateIn now = some target ∧
    source.rank ≤ target.rank ∧ target.rank ≤ source.rank + steps

theorem names_distinct (succession : Succeeds stringify prior current were are) : (current.map nameOf).Nodup := by
  have names : current.map nameOf = are.map fun entry => some entry.1 := by
    have images := congrArg (List.map (Option.map Prod.fst)) succession.current
    rw [List.map_map, List.map_map] at images
    exact images
  have keys : (keyed are).map Prod.fst = (are.map fun entry => some entry.1).map fun name => (name.map keyOf).getD [] := by
    rw [List.map_map, List.map_map]
    rfl
  have apart := succession.apart
  rw [keys] at apart
  rw [names]
  exact List.Nodup.of_map _ apart

/-- A step carries every record of a name, once and unchanged. -/
theorem step_keeps (unrefused : (validateRegistrySuccession stringify prior current).refusals = [])
    (comparable : ∀ was ∈ prior, ∀ now ∈ current, nameOf was = nameOf now → Unprototyped was now)
    {was : JsonValue} (member : was ∈ prior) (named : nameOf was = some name) :
    ∃ now, (current.filter fun record => nameOf record = some name) = [now] ∧ Keeps was now 1 := by
  obtain ⟨were, are, succession⟩ := succeeds unrefused
  obtain ⟨⟨_, fields⟩, identified, rfl⟩ := Option.map_eq_some_iff.mp named
  have listed := (mem_entries succession.prior).mpr ⟨was, member, identified⟩
  obtain ⟨others, carried⟩ := carried_entry succession listed
  obtain ⟨_, unchanged, allowed⟩ := carried_unchanged succession listed rfl carried
  obtain ⟨now, present, same⟩ := (mem_entries succession.current).mp carried
  have nowNamed : nameOf now = some _ := Option.map_eq_some_iff.mpr ⟨_, same, rfl⟩
  obtain ⟨first, second, below⟩ := comparable was member now present (named.trans nowNamed.symm)
  obtain ⟨rfl, _⟩ := identity_some.mp identified
  obtain ⟨rfl, _⟩ := identity_some.mp same
  refine ⟨_, ?_, rest_unchanged ⟨first, second⟩ below unchanged, transition_allowed allowed⟩
  rw [← nowNamed]
  exact filter_alone (names_distinct succession) present

/-- A record a step brings in starts at Released. -/
theorem step_added (unrefused : (validateRegistrySuccession stringify prior current).refusals = [])
    (member : record ∈ current) (named : nameOf record = some name) (fresh : ∀ was ∈ prior, nameOf was ≠ some name) :
    stateIn record = some .released := by
  obtain ⟨were, are, succession⟩ := succeeds unrefused
  obtain ⟨⟨_, fields⟩, identified, rfl⟩ := Option.map_eq_some_iff.mp named
  have listed := (mem_entries succession.current).mpr ⟨record, member, identified⟩
  obtain ⟨rfl, _⟩ := identity_some.mp identified
  refine added_released (succession.added _ (List.mem_map_of_mem listed) ?_)
  by_contra found
  obtain ⟨others, held⟩ := Option.ne_none_iff_exists'.mp found
  obtain ⟨⟨other, _⟩, earlier, pair⟩ := List.mem_map.mp (mem_of_lookup held)
  obtain ⟨key, rfl⟩ := Prod.mk.inj pair
  obtain ⟨was, inside, same⟩ := (mem_entries succession.prior).mp earlier
  refine fresh was inside ?_
  rw [nameOf, same, (carried_unchanged succession earlier key.symm listed).1]
  rfl

end Steps

section History

variable {stringify : JsValue → Option JsString} {revisions : List (List JsonValue)} {was now later : JsonValue}

theorem Keeps.trans {first second : Nat} (earlier : Keeps was now first) (after : Keeps now later second) :
    Keeps was later (first + second) := by
  obtain ⟨source, middle, began, reached, forward, bounded⟩ := earlier.states
  obtain ⟨again, target, same, ended, onward, within⟩ := after.states
  rw [reached] at same
  cases same
  exact ⟨earlier.rest.trans after.rest, source, target, began, ended, by omega, by omega⟩

/-- Along a history whose every step refuses nothing and compares no property named
`__proto__`, an identity once there is there once ever after, unchanged but for a state that
moves forward, a step a revision; and an identity a step brings in starts at Released. -/
theorem released_permanent
    (accepted : ∀ step prior current, revisions[step]? = some prior → revisions[step + 1]? = some current →
      (validateRegistrySuccession stringify prior current).refusals = [])
    (comparable : ∀ step prior current, revisions[step]? = some prior → revisions[step + 1]? = some current →
      ∀ was ∈ prior, ∀ now ∈ current, nameOf was = nameOf now → Unprototyped was now) :
    (∀ start count prior current was name, revisions[start]? = some prior → revisions[start + count + 1]? = some current →
      was ∈ prior → nameOf was = some name →
        ∃ now, (current.filter fun record => nameOf record = some name) = [now] ∧ Keeps was now (count + 1)) ∧
    (∀ step prior current record name, revisions[step]? = some prior → revisions[step + 1]? = some current →
      record ∈ current → nameOf record = some name → (∀ was ∈ prior, nameOf was ≠ some name) →
        stateIn record = some .released) := by
  refine ⟨fun start count prior current was name began ended member named => ?_,
    fun step prior current record name began ended member named fresh =>
      step_added (accepted step prior current began ended) member named fresh⟩
  induction count generalizing current with
  | zero =>
    exact step_keeps (accepted start prior current began ended) (comparable start prior current began ended) member named
  | succ count ih =>
    obtain ⟨within, _⟩ := List.getElem?_eq_some_iff.mp ended
    have before : start + count + 1 < revisions.length := by omega
    obtain ⟨middle, between⟩ : ∃ middle, revisions[start + count + 1]? = some middle :=
      ⟨_, List.getElem?_eq_getElem before⟩
    obtain ⟨now, alone, kept⟩ := ih middle between
    have listed : now ∈ middle.filter fun record => nameOf record = some name := by
      rw [alone]
      exact List.mem_cons_self
    obtain ⟨present, same⟩ := List.mem_filter.mp listed
    obtain ⟨later, once, onward⟩ := step_keeps (accepted _ middle current between ended)
      (comparable _ middle current between ended) present (of_decide_eq_true same)
    exact ⟨later, once, kept.trans onward⟩

/-- Records of the same texts but for their state and what is named `__proto__` are unchanged to the comparison. -/
theorem texts_unchanged {fields others : JsonFields}
    (agree : ∀ name, name ≠ units "state" ∧ name ≠ protoKey → fields.lookup name = others.lookup name)
    (texts : ∀ field ∈ fields, ∃ text, field.2 = .string text) :
    fieldChanges (withoutState fields) (withoutState others) [] = [] := by
  unfold fieldChanges
  rw [if_neg (by simp [copies_distinct]), if_pos ⟨rfl, rfl⟩, List.flatMap_eq_nil_iff]
  intro ⟨name, listed⟩ _
  have copied {fields : JsonFields} (own : name ∈ (withoutState fields).keys) :
      (name ≠ units "state" ∧ name ≠ protoKey) ∧ ∃ value, fields.lookup name = some value := by
    obtain ⟨field, kept, rfl⟩ := List.mem_map.mp own
    obtain ⟨member, named⟩ := List.mem_filter.mp kept
    exact ⟨of_decide_eq_true named, mem_keys.mp (List.mem_map_of_mem member)⟩
  have read : ∃ named : name ≠ units "state" ∧ name ≠ protoKey, ∃ value, fields.lookup name = some value := by
    rcases mem_comparedKeys.mp listed with own | own
    · obtain ⟨named, found⟩ := copied own
      exact ⟨named, found⟩
    · obtain ⟨named, found⟩ := copied own
      rw [← agree name named] at found
      exact ⟨named, found⟩
  obtain ⟨named, value, found⟩ := read
  obtain ⟨text, rfl⟩ := texts _ (mem_of_lookup found)
  dsimp only
  rw [copied_read named found, copied_read named ((agree name named).symm.trans found)]
  unfold fieldChanges
  rw [if_pos (by simp [JsValue.same])]

theorem single_unrefused {fields others : JsonFields} {name : JsString × JsString}
    (before : identity (.object fields) = some (name, fields)) (after : identity (.object others) = some (name, others))
    (unchanged : fieldChanges (withoutState fields) (withoutState others) [] = [])
    (allowed : successionTransition stringify (stateOf fields) (stateOf others) = .allowed) :
    (validateRegistrySuccession stringify [.object fields] [.object others]).refusals = [] := by
  simp [validateRegistrySuccession, index, before, after, priorRefusals, carriedRefusals, unchanged, allowed]

/-- The fields of a record of texts in a state. -/
def texts (state : String) (more : List (String × String)) : JsonFields :=
  (("familyId", "demo") :: ("version", "1.0.0") :: ("state", state) :: more).map fun (name, value) =>
    (units name, .string (units value))

theorem texts_text {state : String} {more : List (String × String)} :
    ∀ field ∈ texts state more, ∃ text, field.2 = .string text := by
  intro field listed
  obtain ⟨entry, _, rfl⟩ := List.mem_map.mp listed
  exact ⟨_, rfl⟩

theorem texts_unprototyped (state other : String) : Unprototyped (.object (texts state [])) (.object (texts other [])) := by
  have bare (state : String) : (texts state []).lookup protoKey = none := rfl
  refine ⟨bare state, bare other, fun path fields others first second => ?_⟩
  cases path with
  | nil =>
    cases first
    cases second
    rw [bare, bare]
  | cons step rest =>
    cases step with
    | index place => cases first
    | key name =>
      rw [Json.find] at first
      obtain ⟨value, found, inner⟩ := Option.bind_eq_some_iff.mp first
      obtain ⟨text, rfl⟩ := texts_text _ (mem_of_lookup found)
      cases rest with
      | nil => cases inner
      | cons step rest => cases step <;> cases inner

theorem deprecation_unrefused :
    (validateRegistrySuccession (fun _ => none) [.object (texts "Released" [])] [.object (texts "Deprecated" [])]).refusals = [] := by
  refine single_unrefused rfl rfl (texts_unchanged (fun name named => ?_) texts_text) rfl
  have skipped : (name == units "state") = false := by simpa using named.1
  simp only [texts, List.map_cons, List.map_nil, List.lookup_cons, skipped]

theorem deprecation_keeps :
    ∃ now, ([.object (texts "Deprecated" [])].filter fun record => nameOf record = some (units "demo", units "1.0.0")) = [now] ∧
      Keeps (.object (texts "Released" [])) now 1 := by
  refine (@released_permanent (fun _ => none) [[.object (texts "Released" [])], [.object (texts "Deprecated" [])]] ?_ ?_).1
    0 0 _ _ _ _ rfl rfl List.mem_cons_self rfl
  · intro step prior current began ended
    cases step with
    | zero =>
      cases began
      cases ended
      exact deprecation_unrefused
    | succ step => cases ended
  · intro step prior current began ended was member now present _
    cases step with
    | zero =>
      cases began
      cases ended
      rw [List.mem_singleton.mp member, List.mem_singleton.mp present]
      exact texts_unprototyped _ _
    | succ step => cases ended

/-- The field is not compared, so its value changes without a refusal. -/
theorem protoField_mutated :
    (validateRegistrySuccession (fun _ => none) [.object (texts "Released" [("__proto__", "first")])]
      [.object (texts "Released" [("__proto__", "second")])]).refusals = [] ∧
    nameOf (.object (texts "Released" [("__proto__", "first")])) =
      nameOf (.object (texts "Released" [("__proto__", "second")])) ∧
    ¬ Json.DeepEqual (rest (.object (texts "Released" [("__proto__", "first")])))
      (rest (.object (texts "Released" [("__proto__", "second")]))) := by
  refine ⟨single_unrefused rfl rfl (texts_unchanged (fun name named => ?_) texts_text) rfl, rfl, fun equal => ?_⟩
  · have skipped : (name == units "__proto__") = false := by simpa [protoKey] using named.2
    simp only [texts, List.map_cons, List.map_nil, List.lookup_cons, skipped]
  · have marked : some (Json.Shape.string (units "first")) = some (Json.Shape.string (units "second")) := equal [.key protoKey]
    exact absurd (Json.Shape.string.inj (Option.some.inj marked)) (by decide)

end History

end SecureHome.Toolchain
