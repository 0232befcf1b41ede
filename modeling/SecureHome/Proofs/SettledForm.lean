import Mathlib.Data.Set.List
import SecureHome.Proofs.PlacePaths
import SecureHome.Proofs.RenderedText
import SecureHome.Proofs.StrictJson

/-! A canonical form is read back from its text, and is its own canonical form. -/

namespace SecureHome.Governance
open Lib

variable {path : List JsString} {value : Value}

/-- The step into an array, whichever member it is of. -/
abbrev memberStep : JsString := units (0 : ℕ).repr

theorem canonicalizeItems_map (items : List Value) (index : ℕ) :
    canonicalizeItems path index items = items.map (canonicalizeValue (path ++ [memberStep])) := by
  induction items generalizing index with
  | nil => rfl
  | cons item rest ih => rw [canonicalizeItems, ih, List.map_cons, canonicalizeValue_same ((SamePath.refl path).index index 0)]

def canonicalField (path : List JsString) (field : JsString × Value) : JsString × Value := (field.1, canonicalizeValue (path ++ [field.1]) field.2)

theorem canonicalizeFields_map (fields : Record) : canonicalizeFields path fields = fields.map (canonicalField path) := by
  induction fields with
  | nil => rfl
  | cons field rest ih => rw [canonicalizeFields, ih, List.map_cons, canonicalField]

theorem canonicalField_names (fields : Record) : (fields.map (canonicalField path)).map Prod.fst = fields.map Prod.fst := by
  rw [List.map_map]
  rfl

theorem orderMembers_perm (path : List JsString) (members : List Value) : (orderMembers path members).Perm members := by
  rw [orderMembers_eq]
  cases sortedBy path with
  | none => exact List.Perm.refl _
  | some key => exact List.perm_insertionSort _ _

theorem orderMembers_again (path : List JsString) (members : List Value) :
    orderMembers path (orderMembers path members) = orderMembers path members := by
  rw [orderMembers_eq, orderMembers_eq]
  cases sortedBy path with
  | none => rfl
  | some key => exact key.ranks.insertionSort_again members

/-- The names an object is written with first. -/
def preferredNames (object : Value) (path : List JsString) : List JsString :=
  ((objectKind object path).map fun kind => kind.order.map units).getD []

def orderFields (preferred : List JsString) (fields : Record) : Record :=
  enumerated (fields.insertionSort fun one other => keyBefore preferred one.1 other.1)

theorem canonicalizeValue_array (items : List Value) :
    canonicalizeValue path (.array items) = .array (orderMembers path (items.map (canonicalizeValue (path ++ [memberStep])))) := by
  rw [canonicalizeValue, canonicalizeItems_map]

theorem canonicalizeValue_object (fields : Record) : canonicalizeValue path (.object fields) =
    .object (orderFields (preferredNames (.object fields) path) (fields.map (canonicalField path))) := by
  rw [canonicalizeValue, canonicalizeFields_map]
  rfl

theorem orderFields_perm (preferred : List JsString) (fields : Record) : (orderFields preferred fields).Perm fields :=
  (enumerated_perm _).trans (List.perm_insertionSort _ _)

/-- An object is of the kind its place and its type give it. -/
theorem preferredNames_same {one other : Value}
    (typed : isText (read one "type") historicalCompletionType = isText (read other "type") historicalCompletionType) :
    preferredNames one path = preferredNames other path := by
  unfold preferredNames objectKind
  rw [typed]

theorem few_preferred (object : Value) (path : List JsString) : (preferredNames object path).length < 9007199254740991 := order_few _

/-- Properties of distinct names are ordered in one way. -/
theorem orderFields_same {preferred : List JsString} {fields others : Record} (few : preferred.length < 9007199254740991)
    (moved : fields.Perm others) (distinct : (fields.map Prod.fst).Nodup) : orderFields preferred fields = orderFields preferred others := by
  unfold orderFields
  rw [(names_rank few).insertionSort_perm moved fun one member other member' same => List.inj_on_of_nodup_map distinct member member' same]

section Written

theorem all_written {values : List Value} (each : ∀ value ∈ values, ∃ form, written form = value) :
    ∃ forms : List (Json Double), forms.map written = values := by
  have range : values ∈ Set.range (List.map written) := by
    rw [Set.range_list_map]
    exact each
  exact range

theorem fields_written {fields : Record} (each : ∀ field ∈ fields, ∃ form, written form = field.2) :
    ∃ forms : Fields Double, (forms.map fun field => (field.1, written field.2)) = fields := by
  have range : fields ∈ Set.range (List.map fun field : JsString × Json Double => (field.1, written field.2)) := by
    rw [Set.range_list_map]
    intro field member
    obtain ⟨form, same⟩ := each field member
    exact ⟨(field.1, form), Prod.ext rfl same⟩
  exact range

mutual

/-- The canonical form of a parsed value is one. -/
theorem canonical_written : (value : Json Double) → (path : List JsString) → ∃ form, written form = canonicalizeValue path (written value)
  | .null, _ => ⟨.null, rfl⟩
  | .boolean value, _ => ⟨.boolean value, rfl⟩
  | .number value, _ => ⟨.number value, rfl⟩
  | .string value, _ => ⟨.string value, rfl⟩
  | .array items, path => by
    have each := items_canonical_written items (path ++ [memberStep])
    rw [written_items, canonicalizeValue_array, List.map_map]
    have inside : ∀ value ∈ orderMembers path (items.map (canonicalizeValue (path ++ [memberStep]) ∘ written)), ∃ form, written form = value := by
      intro value member
      obtain ⟨item, held, rfl⟩ := List.mem_map.mp ((orderMembers_perm path _).mem_iff.mp member)
      exact each item held
    obtain ⟨forms, same⟩ := all_written inside
    exact ⟨.array forms, by rw [written_items, same]⟩
  | .object fields, path => by
    have each := fields_canonical_written fields path
    rw [written_fields, canonicalizeValue_object, List.map_map]
    generalize preferredNames _ path = preferred
    have inside : ∀ field ∈ orderFields preferred (fields.map (canonicalField path ∘ fun field => (field.1, written field.2))),
        ∃ form, written form = field.2 := by
      intro field member
      obtain ⟨field, held, rfl⟩ := List.mem_map.mp ((orderFields_perm _ _).mem_iff.mp member)
      exact each field held
    obtain ⟨forms, same⟩ := fields_written inside
    exact ⟨.object forms, by rw [written_fields, same]⟩

theorem items_canonical_written : (items : List (Json Double)) → (path : List JsString) →
    ∀ item ∈ items, ∃ form, written form = canonicalizeValue path (written item)
  | [], _ => fun _ member => absurd member List.not_mem_nil
  | item :: rest, path => List.forall_mem_cons.mpr ⟨canonical_written item path, items_canonical_written rest path⟩

theorem fields_canonical_written : (fields : List (JsString × Json Double)) → (path : List JsString) →
    ∀ field ∈ fields, ∃ form, written form = canonicalizeValue (path ++ [field.1]) (written field.2)
  | [], _ => fun _ member => absurd member List.not_mem_nil
  | (_, value) :: rest, path => List.forall_mem_cons.mpr ⟨canonical_written value _, fields_canonical_written rest path⟩

end

end Written

section Settled

mutual

theorem canonical_settled : (value : Value) → value.Unrepeated → (path : List JsString) → (canonicalizeValue path value).Settled
  | .null, _, _ => trivial
  | .boolean _, _, _ => trivial
  | .number _, _, _ => trivial
  | .string _, _, _ => trivial
  | .array items, unrepeated, path => by
    have each := items_settled items unrepeated (path ++ [memberStep])
    rw [canonicalizeValue_array]
    refine Json.eachSettled_iff.mpr fun value member => ?_
    obtain ⟨item, held, rfl⟩ := List.mem_map.mp ((orderMembers_perm path _).mem_iff.mp member)
    exact each item held
  | .object fields, ⟨distinct, unrepeated⟩, path => by
    have each := fields_settled fields unrepeated path
    rw [canonicalizeValue_object]
    refine ⟨?_, enumerated_again _, Json.fieldsSettled_iff.mpr fun field member => ?_⟩
    · rw [((orderFields_perm _ _).map Prod.fst).nodup_iff, canonicalField_names]
      exact distinct
    · obtain ⟨field, held, rfl⟩ := List.mem_map.mp ((orderFields_perm _ _).mem_iff.mp member)
      exact each field held

theorem items_settled : (items : List Value) → Json.EachUnrepeated items → (path : List JsString) →
    ∀ item ∈ items, (canonicalizeValue path item).Settled
  | [], _, _ => fun _ member => absurd member List.not_mem_nil
  | item :: rest, ⟨here, later⟩, path => List.forall_mem_cons.mpr ⟨canonical_settled item here path, items_settled rest later path⟩

theorem fields_settled : (fields : List (JsString × Value)) → Json.FieldsUnrepeated fields → (path : List JsString) →
    ∀ field ∈ fields, (canonicalizeValue (path ++ [field.1]) field.2).Settled
  | [], _, _ => fun _ member => absurd member List.not_mem_nil
  | (_, value) :: rest, ⟨here, later⟩, path => List.forall_mem_cons.mpr ⟨canonical_settled value here _, fields_settled rest later path⟩

end

end Settled

section Again

/-- The type of an object is that of its canonical form. -/
theorem type_canonical (value : Value) :
    isText (read (canonicalizeValue path value) "type") historicalCompletionType = isText (read value "type") historicalCompletionType := by
  unfold read
  rw [child_canonical]
  cases value.child (.key (units "type")) with
  | none => rfl
  | some held => cases held <;> rfl

mutual

/-- A canonical form is its own. -/
theorem canonical_again : (value : Value) → value.Unrepeated → (path : List JsString) →
    canonicalizeValue path (canonicalizeValue path value) = canonicalizeValue path value
  | .null, _, _ => rfl
  | .boolean _, _, _ => rfl
  | .number _, _, _ => rfl
  | .string _, _, _ => rfl
  | .array items, unrepeated, path => by
    have each := items_canonical_again items unrepeated (path ++ [memberStep])
    rw [canonicalizeValue_array, canonicalizeValue_array]
    have members : (orderMembers path (items.map (canonicalizeValue (path ++ [memberStep])))).map (canonicalizeValue (path ++ [memberStep])) =
        orderMembers path (items.map (canonicalizeValue (path ++ [memberStep]))) := by
      refine (List.map_congr_left fun value member => ?_).trans (List.map_id _)
      obtain ⟨item, held, rfl⟩ := List.mem_map.mp ((orderMembers_perm path _).mem_iff.mp member)
      exact each item held
    rw [members, orderMembers_again]
  | .object fields, ⟨distinct, unrepeated⟩, path => by
    have each := fields_canonical_again fields unrepeated path
    have typed := @preferredNames_same path _ _ (@type_canonical path (.object fields))
    have few := few_preferred (.object fields) path
    rw [canonicalizeValue_object] at typed ⊢
    rw [canonicalizeValue_object, typed]
    generalize preferredNames (.object fields) path = preferred at few
    have members : (orderFields preferred (fields.map (canonicalField path))).map (canonicalField path) =
        orderFields preferred (fields.map (canonicalField path)) := by
      refine (List.map_congr_left fun field member => ?_).trans (List.map_id _)
      obtain ⟨field, held, rfl⟩ := List.mem_map.mp ((orderFields_perm _ _).mem_iff.mp member)
      exact Prod.ext rfl (each field held)
    rw [members]
    refine congrArg Json.object (orderFields_same few (orderFields_perm _ _) ?_)
    rw [((orderFields_perm _ _).map Prod.fst).nodup_iff, canonicalField_names]
    exact distinct

theorem items_canonical_again : (items : List Value) → Json.EachUnrepeated items → (path : List JsString) →
    ∀ item ∈ items, canonicalizeValue path (canonicalizeValue path item) = canonicalizeValue path item
  | [], _, _ => fun _ member => absurd member List.not_mem_nil
  | item :: rest, ⟨here, later⟩, path => List.forall_mem_cons.mpr ⟨canonical_again item here path, items_canonical_again rest later path⟩

theorem fields_canonical_again : (fields : List (JsString × Value)) → Json.FieldsUnrepeated fields → (path : List JsString) →
    ∀ field ∈ fields, canonicalizeValue (path ++ [field.1]) (canonicalizeValue (path ++ [field.1]) field.2) = canonicalizeValue (path ++ [field.1]) field.2
  | [], _, _ => fun _ member => absurd member List.not_mem_nil
  | (_, value) :: rest, ⟨here, later⟩, path => List.forall_mem_cons.mpr ⟨canonical_again value here _, fields_canonical_again rest later path⟩

end

end Again

section Reading

variable {form : Json Double}

theorem unsigned_token (double : Double) : double.unsigned.token = double.token := by
  unfold Double.unsigned
  split
  next none_left =>
    unfold Double.token
    rw [dif_pos none_left, dif_pos (show (Double.zero false).isZero from rfl)]
  next => rfl

/-- The sign of a zero is not written. -/
theorem written_unsigned : written (form.map Double.unsigned) = written form := by
  unfold written
  rw [Json.map_map]
  congr 1
  funext number
  exact congrArg NumberText.of (unsigned_token number)

mutual

theorem spelt_parsed : (form : Json Double) → form.Settled → (spelt form).parsed = some (form.map Double.unsigned)
  | .null, _ => rfl
  | .boolean _, _ => rfl
  | .number number, _ => by
    change (number.token.number).map Json.number = _
    rw [Double.token_number]
    rfl
  | .string _, _ => rfl
  | .array items, settled => by
    change (Json.parsedItems (Json.mapItems Double.token items)).map Json.array = _
    rw [items_parsed items settled]
    rfl
  | .object fields, ⟨distinct, settled, values⟩ => by
    change (Json.parsedFields (Json.mapFields Double.token fields)).map Json.objectOf = _
    rw [fields_parsed fields values, Option.map_some, Json.map, Json.mapFields_eq, Json.objectOf_settled]
    · rw [Json.names_convert]
      exact distinct
    · exact (Json.enumerated_convert distinct).mpr settled

theorem items_parsed : (items : List (Json Double)) → Json.EachSettled items →
    Json.parsedItems (Json.mapItems Double.token items) = some (Json.mapItems Double.unsigned items)
  | [], _ => rfl
  | item :: rest, ⟨here, later⟩ => by
    have first := spelt_parsed item here
    unfold spelt at first
    rw [Json.mapItems, Json.parsedItems, first, items_parsed rest later]
    rfl

theorem fields_parsed : (fields : List (JsString × Json Double)) → Json.FieldsSettled fields →
    Json.parsedFields (Json.mapFields Double.token fields) = some (Json.mapFields Double.unsigned fields)
  | [], _ => rfl
  | (_, value) :: rest, ⟨here, later⟩ => by
    have first := spelt_parsed value here
    unfold spelt at first
    rw [Json.mapFields, Json.parsedFields, first, fields_parsed rest later]
    rfl

end

theorem text_parsed {text : JsString} (settled : form.Settled) (spelled : JsonText text (spelt form)) :
    parseStrictJson text = .ok (form.map Double.unsigned) :=
  (parse_decided spelled).mpr ⟨(Json.unrepeated_map form).mpr (Json.Settled.unrepeated form settled), spelt_parsed form settled⟩

/-- What is rendered is read back. -/
theorem render_parsed (settled : form.Settled) :
    parseStrictJson (renderCanonical [] (written form) ++ units "\n") = .ok (form.map Double.unsigned) :=
  text_parsed settled ⟨[], _, units "\n", rfl, render_text form (rfl : Blank []), rfl, rfl⟩

/-- Settled values of one text are one value. -/
theorem stringify_unique {other : Json Double} (settled : form.Settled) (settled' : other.Settled)
    (same : stringify (written form) = stringify (written other)) : written form = written other := by
  have first := text_parsed settled ⟨[], _, [], rfl, stringify_text form, rfl, rfl⟩
  have second := text_parsed settled' ⟨[], _, [], rfl, stringify_text other, rfl, rfl⟩
  rw [same] at first
  have values : form.map Double.unsigned = other.map Double.unsigned := Except.ok.inj (first.symm.trans second)
  rw [← written_unsigned, values, written_unsigned]

end Reading

end SecureHome.Governance
