import SecureHome.Proofs.SettledForm

/-! Parsed documents have one canonical text exactly if they differ in orders alone. -/

namespace SecureHome.Governance
open Lib

variable {path : List JsString} {value : Value} {name : String} {step : JsString} {key : SortedBy}

section Keys

mutual

/-- Whether `String` gives a text for a value. -/
def hasText : Value → Bool
  | .array items => haveTexts items
  | .object _ => false
  | _ => true

def haveTexts : List Value → Bool
  | [] => true
  | item :: rest => hasText item && haveTexts rest

end

namespace SortedBy

/-- The properties members are compared by. -/
def keys : SortedBy → Value → List (Option Value)
  | property name, member => [read member name]
  | either name otherwise, member => [orElse (read member name) (read member otherwise)]
  | joined first second, member => [read member first, read member second]
  | properties names, member => names.map (read member)
  | text, _ => []

def names : SortedBy → List String
  | property name => [name]
  | either name otherwise => [name, otherwise]
  | joined first second => [first, second]
  | properties names => names
  | text => []

def byText : SortedBy → Bool
  | text => true
  | _ => false

/-- Members with texts for their keys, no two the same. -/
def apart (key : SortedBy) (members : List Value) : Bool :=
  (members.all fun member => (key.keys member).all (·.all hasText)) && decide (members.map key.texts).Nodup

theorem texts_of_keys (keyed : key.byText = false) {one other : Value} (same : key.keys one = key.keys other) : key.texts one = key.texts other := by
  cases key with
  | property name =>
    obtain ⟨same, _⟩ := List.cons.inj same
    rw [texts, texts, same]
  | either name otherwise =>
    obtain ⟨same, _⟩ := List.cons.inj same
    rw [texts, texts, same]
  | joined first second =>
    obtain ⟨same, rest⟩ := List.cons.inj same
    obtain ⟨same', _⟩ := List.cons.inj rest
    rw [texts, texts, same, same']
  | properties names =>
    change names.map (read one) = names.map (read other) at same
    change names.map (textOf ∘ read one) = names.map (textOf ∘ read other)
    rw [← List.map_map, same, List.map_map]
  | text => cases keyed

end SortedBy

mutual

/-- The keys arrays are sorted by, where they count, tell their members apart. -/
def keysApart (counts : SortedBy → Bool) (path : List JsString) : Value → Bool
  | .array items => keysApartItems counts path 0 items && (sortedBy path).all fun key => !counts key || key.apart items
  | .object fields => keysApartFields counts path fields
  | _ => true

def keysApartItems (counts : SortedBy → Bool) (path : List JsString) (index : ℕ) : List Value → Bool
  | [] => true
  | item :: rest => keysApart counts (path ++ [units index.repr]) item && keysApartItems counts path (index + 1) rest

def keysApartFields (counts : SortedBy → Bool) (path : List JsString) : List (JsString × Value) → Bool
  | [] => true
  | (key, value) :: rest => keysApart counts (path ++ [key]) value && keysApartFields counts path rest

end

/-- The names whose arrays are sorted. -/
def sortedNames : List JsString :=
  entityArrayKeys ++ ["historicalCompletions", "decisionEvidence", "sources", "rows", "planningSources", "primitiveSourceTuples",
    "members"].map units ++ setArrayKeys

theorem sortedBy_other (other : step ∉ sortedNames) : sortedBy (path ++ [step]) = none := by
  unfold sortedNames at other
  simp only [List.mem_append, List.mem_map, not_or, not_exists, not_and] at other
  obtain ⟨⟨entity, named⟩, set⟩ := other
  have apart (name : String) (listed : name ∈ ["historicalCompletions", "decisionEvidence", "sources", "rows", "planningSources",
      "primitiveSourceTuples", "members"]) : step ≠ units name := fun same => named name listed same.symm
  unfold sortedBy
  simp only [List.getLast?_concat, Option.any_some, List.contains_iff_mem, entity, set, Option.some.injEq,
    apart "historicalCompletions" (by decide), apart "decisionEvidence" (by decide), apart "sources" (by decide), apart "rows" (by decide),
    apart "planningSources" (by decide), apart "primitiveSourceTuples" (by decide), apart "members" (by decide), decide_false,
    Bool.false_and, if_false, Bool.false_eq_true]

theorem sortedBy_index (index : ℕ) : sortedBy (path ++ [units index.repr]) = none := by
  apply sortedBy_other
  have letters : (["adrs", "questions", "gates", "landings", "externalReferences", "historicalCompletions", "decisionEvidence", "sources",
      "rows", "planningSources", "primitiveSourceTuples", "members", "resolves", "supersedes", "requires", "sources", "scope",
      "waivedMinimumArtifacts", "policyEvidenceIdentities", "factClasses", "generatedRegions"].map units).all
      (fun name => !name.all isDecimal) = true := by decide
  intro listed
  have found := List.all_eq_true.mp letters _ listed
  rw [(Digits.repr_decimal index).2.1] at found
  cases found

/-- The properties members are compared by are no sorted arrays. -/
theorem sortedBy_names (sorted : sortedBy path = some key) : ∀ name ∈ key.names, units name ∉ sortedNames := by
  have every : ∀ key ∈ [SortedBy.property "id", .property "landingId", .property "adrId",
      .properties ["path", "revision", "contentSha256", "selector"], .either "id" "path", .joined "revision" "path", .property "path", .text],
      ∀ name ∈ key.names, units name ∉ sortedNames := by decide
  apply every
  unfold sortedBy at sorted
  dsimp only at sorted
  repeat' split at sorted
  all_goals first
    | cases sorted; done
    | cases sorted; simp

mutual

/-- A value with a text has nothing to sort. -/
theorem text_canonical : (value : Value) → {path : List JsString} → sortedBy path = none → hasText value = true → canonicalizeValue path value = value
  | .null, _, _, _ => rfl
  | .boolean _, _, _, _ => rfl
  | .number _, _, _, _ => rfl
  | .string _, _, _, _ => rfl
  | .array items, path, unsorted, texts => by
    rw [canonicalizeValue, orderMembers_eq, unsorted, texts_canonical items texts]
  | .object _, _, _, texts => nomatch texts

theorem texts_canonical : (items : List Value) → {path : List JsString} → {index : ℕ} → haveTexts items = true →
    canonicalizeItems path index items = items
  | [], _, _, _ => rfl
  | item :: rest, path, index, texts => by
    obtain ⟨here, later⟩ := Bool.and_eq_true_iff.mp texts
    rw [canonicalizeItems, text_canonical item (sortedBy_index index) here, texts_canonical rest later]

end

theorem read_canonical (unsorted : units name ∉ sortedNames) (texts : (read value name).all hasText = true) :
    read (canonicalizeValue path value) name = read value name := by
  unfold read at texts ⊢
  rw [child_canonical]
  cases held : value.child (.key (units name)) with
  | none => rfl
  | some found =>
    rw [held] at texts
    rw [Option.map_some, text_canonical found (sortedBy_other unsorted) texts]

theorem orElse_canonical {otherwise : String} (unsorted : units name ∉ sortedNames) (unsorted' : units otherwise ∉ sortedNames)
    (texts : (orElse (read value name) (read value otherwise)).all hasText = true) :
    orElse (read (canonicalizeValue path value) name) (read (canonicalizeValue path value) otherwise) =
      orElse (read value name) (read value otherwise) := by
  cases held : read value name with
  | none =>
    rw [held] at texts
    rw [read_canonical unsorted (by rw [held]; rfl), held]
    exact read_canonical unsorted' texts
  | some found =>
    cases found with
    | null =>
      rw [held] at texts
      rw [read_canonical unsorted (by rw [held]; rfl), held]
      exact read_canonical unsorted' texts
    | _ =>
      rw [held] at texts
      rw [read_canonical unsorted (by rw [held]; exact texts), held]
      rfl

theorem keys_canonical (unsorted : ∀ name ∈ key.names, units name ∉ sortedNames) (texts : (key.keys value).all (·.all hasText) = true) :
    key.keys (canonicalizeValue path value) = key.keys value := by
  have each := List.all_eq_true.mp texts
  cases key with
  | property name => exact congrArg (fun held => [held]) (read_canonical (unsorted name (by simp [SortedBy.names])) (each _ (by simp [SortedBy.keys])))
  | either name otherwise =>
    exact congrArg (fun held => [held]) (orElse_canonical (unsorted name (by simp [SortedBy.names]))
      (unsorted otherwise (by simp [SortedBy.names])) (each _ (by simp [SortedBy.keys])))
  | joined first second =>
    rw [SortedBy.keys, SortedBy.keys, read_canonical (unsorted first (by simp [SortedBy.names])) (each _ (by simp [SortedBy.keys])),
      read_canonical (unsorted second (by simp [SortedBy.names])) (each _ (by simp [SortedBy.keys]))]
  | properties names =>
    exact List.map_congr_left fun name listed => read_canonical (unsorted name listed) (each _ (List.mem_map.mpr ⟨name, listed, rfl⟩))
  | text => rfl

end Keys

section Orders

variable {fields others : Fields Double} {one other : Json Double}

mutual

/-- Values that differ in the order of properties and of the arrays that are sorted, and in the sign of zeros. -/
inductive Reordered : List JsString → Json Double → Json Double → Prop where
  | null {path : List JsString} : Reordered path .null .null
  | boolean {path : List JsString} {value : Bool} : Reordered path (.boolean value) (.boolean value)
  | number {path : List JsString} {one other : Double} (same : one.unsigned = other.unsigned) : Reordered path (.number one) (.number other)
  | string {path : List JsString} {value : JsString} : Reordered path (.string value) (.string value)
  | array {path : List JsString} {items moved others : List (Json Double)} (each : EachReordered path 0 items moved)
    (order : moved = others ∨ (sortedBy path).isSome = true ∧ moved.Perm others) : Reordered path (.array items) (.array others)
  | object {path : List JsString} {fields moved others : Fields Double} (each : FieldsReordered path fields moved)
    (order : moved.Perm others) : Reordered path (.object fields) (.object others)

inductive EachReordered : List JsString → ℕ → List (Json Double) → List (Json Double) → Prop where
  | nil {path : List JsString} {index : ℕ} : EachReordered path index [] []
  | cons {path : List JsString} {index : ℕ} {one other : Json Double} {items others : List (Json Double)}
    (here : Reordered (path ++ [units index.repr]) one other) (later : EachReordered path (index + 1) items others) :
    EachReordered path index (one :: items) (other :: others)

inductive FieldsReordered : List JsString → Fields Double → Fields Double → Prop where
  | nil {path : List JsString} : FieldsReordered path [] []
  | cons {path : List JsString} {key : JsString} {one other : Json Double} {fields others : Fields Double}
    (here : Reordered (path ++ [key]) one other) (later : FieldsReordered path fields others) :
    FieldsReordered path ((key, one) :: fields) ((key, other) :: others)

end

/-- A member of an array in its canonical form. -/
abbrev memberForm (path : List JsString) (item : Json Double) : Value := canonicalizeValue (path ++ [memberStep]) (written item)

abbrev fieldForm (path : List JsString) (field : JsString × Json Double) : JsString × Value :=
  (field.1, canonicalizeValue (path ++ [field.1]) (written field.2))

theorem array_form (items : List (Json Double)) :
    canonicalizeValue path (written (.array items)) = .array (orderMembers path (items.map (memberForm path))) := by
  rw [written_items, canonicalizeValue_array, List.map_map]
  rfl

theorem object_form (fields : Fields Double) : canonicalizeValue path (written (.object fields)) =
    .object (orderFields (preferredNames (written (.object fields)) path) (fields.map (fieldForm path))) := by
  rw [written_fields, canonicalizeValue_object, List.map_map]
  rfl

theorem memberForm_index (item : Json Double) (index : ℕ) :
    canonicalizeValue (path ++ [units index.repr]) (written item) = memberForm path item :=
  canonicalizeValue_same ((SamePath.refl path).index index 0) _

/-- Lists of one image up to their order are alike, item by item, in some order. -/
theorem moved_of_perm {Item Image : Type} {image : Item → Image} {items others : List Item}
    (moved : (items.map image).Perm (others.map image)) : ∃ between : List Item, items.map image = between.map image ∧ between.Perm others :=
  (congrFun (congrFun (List.eq_map_comp_perm image) (items.map image)) others).mpr moved

theorem number_unsigned {one other : Double} (same : NumberText.of one.token = NumberText.of other.token) : one.unsigned = other.unsigned := by
  have texts : stringify (written (.number one)) = stringify (written (.number other)) := congrArg NumberText.text same
  have first := @text_parsed (.number one) _ trivial ⟨[], _, [], rfl, stringify_text (.number one), rfl, rfl⟩
  have second := @text_parsed (.number other) _ trivial ⟨[], _, [], rfl, stringify_text (.number other), rfl, rfl⟩
  rw [texts] at first
  exact Json.number.inj (Except.ok.inj (first.symm.trans second))

mutual

/-- Values of one canonical form differ in orders alone. -/
theorem reordered_of_form : (one : Json Double) → {path : List JsString} → {other : Json Double} →
    canonicalizeValue path (written one) = canonicalizeValue path (written other) → Reordered path one other
  | .null, _, other, same => by
    cases other with
    | null => exact .null
    | _ => cases same
  | .boolean value, _, other, same => by
    cases other with
    | boolean other =>
      cases same
      exact .boolean
    | _ => cases same
  | .number value, _, other, same => by
    cases other with
    | number other => exact .number (number_unsigned (Json.number.inj same))
    | _ => cases same
  | .string value, _, other, same => by
    cases other with
    | string other =>
      cases same
      exact .string
    | _ => cases same
  | .array items, path, other, same => by
    cases other with
    | array others =>
      rw [array_form, array_form, Json.array.injEq] at same
      cases sorted : sortedBy path with
      | none =>
        rw [orderMembers_eq, orderMembers_eq, sorted] at same
        exact .array (each_of_forms items same) (.inl rfl)
      | some key =>
        have moved := (orderMembers_perm path (items.map (memberForm path))).symm.trans
          (same ▸ orderMembers_perm path (others.map (memberForm path)))
        obtain ⟨between, alike, order⟩ := moved_of_perm moved
        exact .array (each_of_forms items alike) (.inr ⟨by rw [sorted]; rfl, order⟩)
    | _ => cases same
  | .object fields, path, other, same => by
    cases other with
    | object others =>
      rw [object_form, object_form, Json.object.injEq] at same
      have moved := (orderFields_perm _ (fields.map (fieldForm path))).symm.trans (same ▸ orderFields_perm _ (others.map (fieldForm path)))
      obtain ⟨between, alike, order⟩ := moved_of_perm moved
      exact .object (fields_of_forms fields alike) order
    | _ => cases same

theorem each_of_forms : (items : List (Json Double)) → {path : List JsString} → {index : ℕ} → {others : List (Json Double)} →
    items.map (memberForm path) = others.map (memberForm path) → EachReordered path index items others
  | [], _, _, others, same => by
    rw [List.map_eq_nil_iff.mp same.symm]
    exact .nil
  | item :: rest, path, index, others, same => by
    cases others with
    | nil => cases same
    | cons other others =>
      obtain ⟨here, later⟩ := List.cons.inj same
      refine .cons (reordered_of_form item ?_) (each_of_forms rest later)
      rw [memberForm_index, memberForm_index]
      exact here

theorem fields_of_forms : (fields : List (JsString × Json Double)) → {path : List JsString} → {others : Fields Double} →
    fields.map (fieldForm path) = others.map (fieldForm path) → FieldsReordered path fields others
  | [], _, others, same => by
    rw [List.map_eq_nil_iff.mp same.symm]
    exact .nil
  | (key, value) :: rest, path, others, same => by
    cases others with
    | nil => cases same
    | cons other others =>
      obtain ⟨name, other⟩ := other
      obtain ⟨here, later⟩ := List.cons.inj same
      obtain ⟨rfl, here⟩ := Prod.mk.inj here
      exact .cons (reordered_of_form value here) (fields_of_forms rest later)

end

end Orders

section Forms

variable {items others : List (Json Double)} {fields : Fields Double}

/-- Keys are what they were in the canonical form. -/
theorem texts_form (sorted : sortedBy path = some key) (keyed : key.byText = false) (apart : key.apart (items.map written) = true)
    {item : Json Double} (member : item ∈ items) : key.texts (memberForm path item) = key.texts (written item) := by
  apply SortedBy.texts_of_keys keyed
  apply keys_canonical (sortedBy_names sorted)
  exact List.all_eq_true.mp (Bool.and_eq_true_iff.mp apart).1 _ (List.mem_map_of_mem member)

theorem memberForm_unique {one other : Json Double} (unrepeated : one.Unrepeated) (unrepeated' : other.Unrepeated)
    (same : stringify (memberForm path one) = stringify (memberForm path other)) : memberForm path one = memberForm path other := by
  obtain ⟨form, is_form⟩ := canonical_written one (path ++ [memberStep])
  obtain ⟨form', is_form'⟩ := canonical_written other (path ++ [memberStep])
  have settled := canonical_settled (written one) ((Json.unrepeated_map one).mpr unrepeated) (path ++ [memberStep])
  have settled' := canonical_settled (written other) ((Json.unrepeated_map other).mpr unrepeated') (path ++ [memberStep])
  unfold memberForm at same ⊢
  rw [← is_form] at same settled ⊢
  rw [← is_form'] at same settled' ⊢
  exact stringify_unique ((Json.settled_map form).mp settled) ((Json.settled_map form').mp settled') same

/-- What an array is sorted by tells the forms of its members apart. -/
theorem forms_apart (sorted : sortedBy path = some key) (unrepeated : Json.EachUnrepeated items)
    (apart : (!!key.byText || key.apart (items.map written)) = true) :
    ∀ one ∈ items.map (memberForm path), ∀ other ∈ items.map (memberForm path), key.texts one = key.texts other → one = other := by
  have values := Json.eachUnrepeated_iff.mp unrepeated
  intro one member other member' same
  obtain ⟨item, held, rfl⟩ := List.mem_map.mp member
  obtain ⟨item', held', rfl⟩ := List.mem_map.mp member'
  cases keyed : key.byText with
  | true =>
    cases key with
    | text => exact memberForm_unique (values item held) (values item' held') (List.cons.inj same).1
    | _ => cases keyed
  | false =>
    rw [keyed] at apart
    rw [texts_form sorted keyed apart held, texts_form sorted keyed apart held'] at same
    have distinct := of_decide_eq_true (Bool.and_eq_true_iff.mp apart).2
    rw [List.map_map] at distinct
    rw [List.inj_on_of_nodup_map distinct held held' same]

theorem orderMembers_same (unrepeated : Json.EachUnrepeated items)
    (apart : (sortedBy path).all (fun key => !!key.byText || key.apart (items.map written)) = true)
    (order : (sortedBy path).isSome = true) (moved : (items.map (memberForm path)).Perm (others.map (memberForm path))) :
    orderMembers path (items.map (memberForm path)) = orderMembers path (others.map (memberForm path)) := by
  obtain ⟨key, sorted⟩ := Option.isSome_iff_exists.mp order
  rw [sorted] at apart
  rw [orderMembers_eq, orderMembers_eq, sorted]
  exact key.ranks.insertionSort_perm moved (forms_apart sorted unrepeated apart)

/-- The arrays that are sorted by keys. -/
abbrev everyKey (key : SortedBy) : Bool := !key.byText

mutual

theorem form_of_reordered : {path : List JsString} → {one other : Json Double} → Reordered path one other → one.Unrepeated →
    keysApart everyKey path (written one) = true → canonicalizeValue path (written one) = canonicalizeValue path (written other)
  | _, _, _, .null, _, _ => rfl
  | _, _, _, .boolean, _, _ => rfl
  | _, _, _, @Reordered.number _ one other same, _, _ => by
    have tokens : one.token = other.token := by rw [← unsigned_token one, same, unsigned_token]
    change Json.number (NumberText.of one.token) = Json.number (NumberText.of other.token)
    rw [tokens]
  | _, _, _, .string, _, _ => rfl
  | path, _, _, .array each order, unrepeated, apart => by
    rw [written_items, keysApart] at apart
    obtain ⟨below, apart⟩ := Bool.and_eq_true_iff.mp apart
    have forms := forms_of_each each unrepeated below
    rw [array_form, array_form]
    rcases order with rfl | ⟨sorted, moved⟩
    · rw [forms]
    · rw [orderMembers_same unrepeated apart sorted (forms ▸ moved.map (memberForm path))]
  | path, _, _, @Reordered.object _ fields between others each order, ⟨distinct, unrepeated⟩, apart => by
    rw [written_fields, keysApart] at apart
    have forms := forms_of_fields each unrepeated apart
    have moved : (fields.map (fieldForm path)).Perm (others.map (fieldForm path)) := forms ▸ order.map (fieldForm path)
    have names : ((fields.map (fieldForm path)).map Prod.fst).Nodup := by
      rw [List.map_map]
      exact distinct
    have typed : isText (read (written (.object fields)) "type") historicalCompletionType =
        isText (read (written (.object others)) "type") historicalCompletionType := by
      rw [← @type_canonical path (written (.object fields)), ← @type_canonical path (written (.object others)), object_form, object_form]
      have found := @lookup_perm _ _ _ _ _ (units "type") _
        (((orderFields_perm (preferredNames (written (.object fields)) path) _).trans moved).trans (orderFields_perm
          (preferredNames (written (.object others)) path) _).symm) ((((orderFields_perm _ _).map Prod.fst).nodup_iff).mpr names)
      exact congrArg (fun held => isText held historicalCompletionType) found
    rw [object_form, object_form, preferredNames_same typed]
    exact congrArg Json.object (orderFields_same (few_preferred _ path) moved names)

theorem forms_of_each : {path : List JsString} → {index : ℕ} → {items others : List (Json Double)} → EachReordered path index items others →
    Json.EachUnrepeated items → keysApartItems everyKey path index (items.map written) = true →
    items.map (memberForm path) = others.map (memberForm path)
  | _, _, _, _, .nil, _, _ => rfl
  | path, index, _, _, .cons here later, ⟨first, rest⟩, apart => by
    obtain ⟨apart, apart'⟩ := Bool.and_eq_true_iff.mp apart
    have form := form_of_reordered here first apart
    rw [memberForm_index, memberForm_index] at form
    rw [List.map_cons, List.map_cons, form, forms_of_each later rest apart']

theorem forms_of_fields : {path : List JsString} → {fields others : Fields Double} → FieldsReordered path fields others →
    Json.FieldsUnrepeated fields → keysApartFields everyKey path (fields.map fun field => (field.1, written field.2)) = true →
    fields.map (fieldForm path) = others.map (fieldForm path)
  | _, _, _, .nil, _, _ => rfl
  | path, _, _, .cons here later, ⟨first, rest⟩, apart => by
    obtain ⟨apart, apart'⟩ := Bool.and_eq_true_iff.mp apart
    rw [List.map_cons, List.map_cons, forms_of_fields later rest apart']
    exact congrArg (· :: _) (Prod.ext rfl (form_of_reordered here first apart))

end

end Forms

section Texts

variable {form other : Json Double} {text text' : JsString}

theorem canonicalSerialize_eq_iff {one other : Value} :
    canonicalSerialize one = canonicalSerialize other ↔ canonicalizeValue [] one = canonicalizeValue [] other := by
  constructor
  · intro same
    have ends : Follows IsEnd (units "\n") := follows_cons (.inr (.inl rfl))
    exact (value_reads (canonicalizeValue [] one) [] ends ends same).1
  · intro same
    exact congrArg (fun value => renderCanonical [] value ++ units "\n") same

/-- Parsed objects have no name twice. -/
theorem parsed_unrepeated (parsed : parseStrictJson text = .ok form) : form.Unrepeated := by
  obtain ⟨tree, spelled⟩ := jsonText_of_parsed parsed
  exact Json.unrepeated_parsed tree ((parse_decided spelled).mp parsed).2

/-- A canonical text is read back as the canonical form. -/
theorem canonical_parsed (unrepeated : form.Unrepeated) : ∃ again, parseStrictJson (canonicalSerialize (written form)) = .ok again ∧
    written again = canonicalizeValue [] (written form) := by
  obtain ⟨settled, is_form⟩ := canonical_written form []
  have orderly := canonical_settled (written form) ((Json.unrepeated_map form).mpr unrepeated) []
  unfold canonicalSerialize
  rw [← is_form] at orderly ⊢
  exact ⟨_, render_parsed ((Json.settled_map settled).mp orderly), written_unsigned⟩

theorem canonical_text_again (unrepeated : form.Unrepeated) {again : Json Double} (is_form : written again = canonicalizeValue [] (written form)) :
    canonicalSerialize (written again) = canonicalSerialize (written form) := by
  rw [canonicalSerialize_eq_iff, is_form, canonical_again (written form) ((Json.unrepeated_map form).mpr unrepeated)]

theorem canonical_text_unique (unrepeated : form.Unrepeated) (apart : keysApart everyKey [] (written form) = true) :
    canonicalSerialize (written form) = canonicalSerialize (written other) ↔ Reordered [] form other := by
  rw [canonicalSerialize_eq_iff]
  exact ⟨reordered_of_form form, fun reordered => form_of_reordered reordered unrepeated apart⟩

/-- Where the keys of sorted arrays tell their members apart, the canonical text of a document is
read back as its canonical form, has itself for one, and is that of the documents that differ from
it in orders alone. -/
theorem canonical_normal (parsed : parseStrictJson text = .ok form) (apart : keysApart everyKey [] (written form) = true) :
    (∃ again, parseStrictJson (canonicalSerialize (written form)) = .ok again ∧ written again = canonicalizeValue [] (written form) ∧
        canonicalSerialize (written again) = canonicalSerialize (written form)) ∧
      ∀ text' other, parseStrictJson text' = .ok other → keysApart everyKey [] (written other) = true →
        (canonicalSerialize (written form) = canonicalSerialize (written other) ↔ Reordered [] form other) := by
  have unrepeated := parsed_unrepeated parsed
  obtain ⟨again, reads, is_form⟩ := canonical_parsed unrepeated
  refine ⟨⟨again, reads, is_form, canonical_text_again unrepeated is_form⟩, fun _ _ _ _ => ?_⟩
  exact canonical_text_unique unrepeated apart

section Sources

/-- The arrays sorted by one text of a member, that is not all of it. -/
def oneKey : SortedBy → Bool
  | .property _ => true
  | .either _ _ => true
  | .joined _ _ => true
  | _ => false

def source (label : String) : Json Double := .object [(units "label", .string (units label))]

def evidence (sources : List (Json Double)) : Json Double :=
  .object [(units "decisionEvidence", .array [.object [(units "adrId", .string (units "ADR")), (units "sources", .array sources)]])]

theorem source_settled (label : String) : (source label).Settled := ⟨List.nodup_singleton _, rfl, trivial, trivial⟩

theorem evidence_settled {sources : List (Json Double)} (settled : Json.EachSettled sources) : (evidence sources).Settled :=
  ⟨List.nodup_singleton _, rfl, ⟨⟨show [units "adrId", units "sources"].Nodup by decide, rfl, trivial, settled, trivial⟩, trivial⟩, trivial⟩

theorem evidence_parsed {sources : List (Json Double)} (settled : Json.EachSettled sources) (unsigned : Json.mapItems Double.unsigned sources = sources) :
    parseStrictJson (renderCanonical [] (written (evidence sources)) ++ units "\n") = .ok (evidence sources) := by
  have parsed := render_parsed (evidence_settled settled)
  simp only [evidence, Json.map, Json.mapItems, Json.mapFields, unsigned] at parsed
  exact parsed

theorem canonical_normal_evidence : ∃ again, parseStrictJson (canonicalSerialize (written (evidence [source "a"]))) = .ok again ∧
    written again = canonicalizeValue [] (written (evidence [source "a"])) ∧
    canonicalSerialize (written again) = canonicalSerialize (written (evidence [source "a"])) :=
  (canonical_normal (@evidence_parsed [source "a"] ⟨source_settled "a", trivial⟩ rfl) (by decide +kernel)).1

/-- Sources with the same keys keep the order they are given in. -/
theorem sources_tied : ∃ one other text text', parseStrictJson text = .ok one ∧ parseStrictJson text' = .ok other ∧
    keysApart oneKey [] (written one) = true ∧ keysApart oneKey [] (written other) = true ∧ Reordered [] one other ∧
    canonicalSerialize (written one) ≠ canonicalSerialize (written other) := by
  refine ⟨evidence [source "a", source "b"], evidence [source "b", source "a"], _, _,
    @evidence_parsed [source "a", source "b"] ⟨source_settled "a", source_settled "b", trivial⟩ rfl,
    @evidence_parsed [source "b", source "a"] ⟨source_settled "b", source_settled "a", trivial⟩ rfl, by decide +kernel, by decide +kernel, ?_, by decide +kernel⟩
  have each : EachReordered [units "decisionEvidence", units "0", units "sources"] 0 [source "a", source "b"] [source "a", source "b"] :=
    .cons (.object (.cons .string .nil) (List.Perm.refl _)) (.cons (.object (.cons .string .nil) (List.Perm.refl _)) .nil)
  exact .object (.cons (.array (.cons (.object (.cons .string (.cons (.array each (.inr ⟨by decide, List.Perm.swap _ _ _⟩)) .nil))
    (List.Perm.refl _)) .nil) (.inl rfl)) .nil) (List.Perm.refl _)

end Sources

end Texts

end SecureHome.Governance
