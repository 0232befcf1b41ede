import SecureHome.Proofs.CanonicalText
import SecureHome.Proofs.StrictJson

/-! What is rendered of a value is a text of JSON, and read back as it. -/

namespace SecureHome.Governance
open Lib

variable {text string rest : JsString} {value : Json Double} {tree : Json NumberToken}

section Strings

theorem hexDigit_hexadecimal {digit : ℕ} (small : digit < 16) : isHexadecimal (hexDigit digit) = true ∧ hexadecimal (hexDigit digit) = digit := by
  have every : ∀ digit : Fin 16, isHexadecimal (hexDigit digit.val) = true ∧ hexadecimal (hexDigit digit.val) = digit.val := by decide
  exact every ⟨digit, small⟩

theorem stringText_escape {unit : UInt16} (spelled : StringText text string) : StringText (escapeUnit unit ++ text) (unit :: string) := by
  have bound := unit.toNat_lt
  obtain ⟨first, one⟩ := hexDigit_hexadecimal (by omega : unit.toNat / 0x1000 < 16)
  obtain ⟨second, two⟩ := hexDigit_hexadecimal (by omega : unit.toNat / 0x100 % 0x10 < 16)
  obtain ⟨third, three⟩ := hexDigit_hexadecimal (by omega : unit.toNat / 0x10 % 0x10 < 16)
  obtain ⟨fourth, four⟩ := hexDigit_hexadecimal (by omega : unit.toNat % 0x10 < 16)
  have number : unit.toNat / 0x1000 * 0x1000 + unit.toNat / 0x100 % 0x10 * 0x100 + unit.toNat / 0x10 % 0x10 * 0x10 +
      unit.toNat % 0x10 = unit.toNat := by omega
  have coded := @StringText.code (hexDigit (unit.toNat / 0x1000)) (hexDigit (unit.toNat / 0x100 % 0x10))
    (hexDigit (unit.toNat / 0x10 % 0x10)) (hexDigit (unit.toNat % 0x10)) _ _ (by simp [first, second, third, fourth]) spelled
  rw [one, two, three, four, number, UInt16.ofNat_toNat] at coded
  exact coded

theorem stringText_unit {unit : UInt16} (spelled : StringText text string) : StringText (quoteUnit unit ++ text) (unit :: string) := by
  unfold quoteUnit
  split
  next same => rw [same]; exact .short (by decide) spelled
  next no_quote =>
  split
  next same => rw [same]; exact .short (by decide) spelled
  next no_escape =>
  split
  next same => rw [same]; exact .short (by decide) spelled
  split
  next same => rw [same]; exact .short (by decide) spelled
  split
  next same => rw [same]; exact .short (by decide) spelled
  split
  next same => rw [same]; exact .short (by decide) spelled
  split
  next same => rw [same]; exact .short (by decide) spelled
  split
  · exact stringText_escape spelled
  next plain =>
    simp only [Bool.or_eq_true, decide_eq_true_eq, not_or, Nat.not_lt] at plain
    exact .plain plain.1.1 no_quote no_escape spelled

theorem stringText_quote (string : JsString) : StringText (quoteUnits string) string := by
  induction string using quoteUnits.induct with
  | case1 => exact .nil
  | case2 unit =>
    have one := @stringText_unit _ _ unit .nil
    rw [List.append_nil] at one
    exact one
  | case3 high low rest pairs ih =>
    rw [quoteUnits, if_pos pairs]
    simp only [isHigh, isLow, Bool.and_eq_true, decide_eq_true_eq] at pairs
    have plain {unit : UInt16} {text string : JsString} (large : 0xD800 ≤ unit.toNat) (spelled : StringText text string) :
        StringText (unit :: text) (unit :: string) := by
      refine .plain (Nat.le_trans (by decide) large) ?_ ?_ spelled <;> rintro rfl <;> exact absurd large (by decide)
    exact plain pairs.1.1 (plain (Nat.le_trans (by decide) pairs.2.1) ih)
  | case4 unit next rest alone ih =>
    rw [quoteUnits, if_neg alone]
    exact stringText_unit ih

theorem valueText_quote (string : JsString) : ValueText (quote string) (.string string) := .string (stringText_quote string)

end Strings

section Lists

variable {lead gap tail : JsString} {texts : List JsString}

/-- Values with commas and blanks between them. -/
theorem itemsText_joined {trees : List (Json NumberToken)} (leads : Blank lead) (gaps : Blank gap) (tails : Blank tail)
    (spelled : List.Forall₂ ValueText texts trees) (some_texts : texts ≠ []) :
    ItemsText (lead ++ (0x2c :: gap).intercalate texts ++ tail) trees := by
  induction spelled generalizing lead with
  | nil => exact absurd rfl some_texts
  | @cons text tree texts trees here others ih =>
    cases others with
    | nil =>
      rw [List.intercalate_singleton]
      exact .last leads here tails
    | cons next others =>
      have more := ItemsText.more leads here (rfl : Blank []) (ih gaps (List.cons_ne_nil _ _))
      rw [List.intercalate_cons_cons]
      simpa only [List.append_assoc, List.cons_append, List.nil_append] using more

/-- The text of a property, whatever blanks are around it. -/
def Spells (text : JsString) (field : JsString × Json NumberToken) : Prop :=
  ∀ lead tail : JsString, Blank lead → Blank tail → FieldText (lead ++ text ++ tail) field

theorem fieldsText_joined {trees : Fields NumberToken} (leads : Blank lead) (gaps : Blank gap) (tails : Blank tail)
    (spelled : List.Forall₂ Spells texts trees) (some_texts : texts ≠ []) :
    FieldsText (lead ++ (0x2c :: gap).intercalate texts ++ tail) trees := by
  induction spelled generalizing lead with
  | nil => exact absurd rfl some_texts
  | @cons text tree texts trees here others ih =>
    cases others with
    | nil =>
      rw [List.intercalate_singleton]
      exact .last (here _ _ leads tails)
    | cons next others =>
      have more := FieldsText.more (here lead [] leads rfl) (ih gaps (List.cons_ne_nil _ _))
      rw [List.intercalate_cons_cons]
      simpa only [List.append_assoc, List.cons_append, List.nil_append] using more

theorem spells_field {key name : JsString} (named : StringText name key) (spelled : ValueText text tree) (gaps : Blank gap) :
    Spells (0x22 :: (name ++ [0x22]) ++ 0x3a :: gap ++ text) (key, tree) := by
  intro lead tail leads tails
  have field := FieldText.field leads named (rfl : Blank []) gaps spelled tails
  simpa only [List.append_assoc, List.cons_append, List.nil_append] using field

theorem intercalate_indented (some_texts : texts ≠ []) :
    (0x2c :: gap).intercalate (texts.map (lead ++ ·)) = lead ++ (0x2c :: (gap ++ lead)).intercalate texts := by
  induction texts with
  | nil => exact absurd rfl some_texts
  | cons text texts ih =>
    cases texts with
    | nil => simp only [List.map_cons, List.map_nil, List.intercalate_singleton]
    | cons next texts =>
      have rest := ih (List.cons_ne_nil _ _)
      rw [List.map_cons] at rest
      rw [List.map_cons, List.map_cons, List.intercalate_cons_cons, rest, List.intercalate_cons_cons]
      simp only [List.append_assoc, List.cons_append]

end Lists

section Rendering

variable {indentation : JsString}

/-- A value, its numbers as they are written. -/
def spelt (value : Json Double) : Json NumberToken := value.map Double.token

theorem written_items (items : List (Json Double)) : written (.array items) = .array (items.map written) := by
  unfold written
  rw [Json.map, Json.mapItems_eq]

theorem written_fields (fields : Fields Double) : written (.object fields) = .object (fields.map fun field => (field.1, written field.2)) := by
  unfold written
  rw [Json.map, Json.mapFields_eq]

theorem spelt_items (items : List (Json Double)) : spelt (.array items) = .array (items.map spelt) := by
  unfold spelt
  rw [Json.map, Json.mapItems_eq]

theorem spelt_fields (fields : Fields Double) : spelt (.object fields) = .object (fields.map fun field => (field.1, spelt field.2)) := by
  unfold spelt
  rw [Json.map, Json.mapFields_eq]

theorem indented (blanks : Blank indentation) : Blank (indentation ++ units "  ") := blank_append blanks rfl

/-- Parts on lines of their own are parts with blanks between them. -/
theorem linesText_joined {close : UInt16} {parts : List JsString} (some_parts : parts ≠ []) : linesText indentation close parts =
    (0x0a :: (indentation ++ units "  ")) ++ (0x2c :: (0x0a :: (indentation ++ units "  "))).intercalate parts ++ (0x0a :: indentation) ++ [close] := by
  unfold linesText
  rw [@intercalate_indented (indentation ++ units "  ") [0x0a] parts some_parts]
  simp only [List.append_assoc, List.cons_append, List.nil_append]

theorem lines_blank (blanks : Blank indentation) : Blank (0x0a :: (indentation ++ units "  ")) ∧ Blank (0x0a :: indentation) :=
  ⟨@blank_append [0x0a] _ rfl (indented blanks), @blank_append [0x0a] _ rfl blanks⟩

/-- An array whose members are texts of JSON is one. -/
theorem render_items {items : List (Json Double)} (blanks : Blank indentation)
    (members : ∀ item ∈ items, ValueText (renderCanonical (indentation ++ units "  ") (written item)) (spelt item)) :
    ValueText (renderCanonical indentation (written (.array items))) (spelt (.array items)) := by
  rw [written_items, spelt_items]
  obtain ⟨layout, whole, fits⟩ := @render_array indentation (items.map written)
  have spelled : List.Forall₂ ValueText ((items.map written).map (renderCanonical (indentation ++ units "  "))) (items.map spelt) := by
    rw [List.map_map, List.forall₂_map_left_iff, List.forall₂_map_right_iff, List.forall₂_same]
    exact members
  have some_texts (other : layout ≠ .empty) : (items.map written).map (renderCanonical (indentation ++ units "  ")) ≠ [] := by
    intro none_left
    exact other (fits.mpr (List.map_eq_nil_iff.mp none_left))
  rw [whole]
  cases layout with
  | empty =>
    rw [List.map_eq_nil_iff.mp (fits.mp rfl)]
    exact .emptyArray (rfl : Blank [])
  | inline =>
    have joined := itemsText_joined (rfl : Blank []) (rfl : Blank [0x20]) (rfl : Blank []) spelled (some_texts nofun)
    rw [List.nil_append, List.append_nil] at joined
    exact .array joined
  | lines =>
    have joined := itemsText_joined (lines_blank blanks).1 (lines_blank blanks).1 (lines_blank blanks).2 spelled (some_texts nofun)
    rw [Layout.body, linesText_joined (some_texts nofun)]
    exact .array joined

theorem spells_rendered {key : JsString} (spelled : ValueText (renderCanonical indentation (written value)) tree) :
    Spells (renderField indentation (key, written value)) (key, tree) := by
  have colon : units ": " = 0x3a :: [0x20] := by decide
  unfold renderField quote
  rw [colon]
  exact spells_field (stringText_quote key) spelled (rfl : Blank [0x20])

/-- An object whose properties are texts of JSON is one. -/
theorem render_fields {fields : Fields Double} (blanks : Blank indentation)
    (members : ∀ field ∈ fields, ValueText (renderCanonical (indentation ++ units "  ") (written field.2)) (spelt field.2)) :
    ValueText (renderCanonical indentation (written (.object fields))) (spelt (.object fields)) := by
  rw [written_fields, spelt_fields]
  rcases @render_object indentation (fields.map fun field => (field.1, written field.2)) with ⟨empty, whole⟩ | ⟨nonempty, whole⟩
  · rw [whole, List.map_eq_nil_iff.mp empty]
    exact .emptyObject (rfl : Blank [])
  · have spelled : List.Forall₂ Spells ((fields.map fun field => (field.1, written field.2)).map (renderField (indentation ++ units "  ")))
        (fields.map fun field => (field.1, spelt field.2)) := by
      rw [List.map_map, List.forall₂_map_left_iff, List.forall₂_map_right_iff, List.forall₂_same]
      exact fun field member => spells_rendered (members field member)
    have some_texts : (fields.map fun field => (field.1, written field.2)).map (renderField (indentation ++ units "  ")) ≠ [] :=
      fun none_left => nonempty (List.map_eq_nil_iff.mp none_left)
    have joined := fieldsText_joined (lines_blank blanks).1 (lines_blank blanks).1 (lines_blank blanks).2 spelled some_texts
    rw [whole, linesText_joined some_texts]
    exact .object joined

mutual

/-- What is rendered of a value is a text of it. -/
theorem render_text : (value : Json Double) → {indentation : JsString} → Blank indentation →
    ValueText (renderCanonical indentation (written value)) (spelt value)
  | .null, _, _ => .null
  | .boolean _, _, _ => .boolean
  | .number _, _, _ => .number
  | .string string, _, _ => valueText_quote string
  | .array items, _, blanks => render_items blanks (render_texts items (indented blanks))
  | .object fields, _, blanks => render_fields blanks (render_field_texts fields (indented blanks))

theorem render_texts : (items : List (Json Double)) → {indentation : JsString} → Blank indentation →
    ∀ item ∈ items, ValueText (renderCanonical indentation (written item)) (spelt item)
  | [], _, _ => fun _ member => absurd member List.not_mem_nil
  | item :: rest, _, blanks => List.forall_mem_cons.mpr ⟨render_text item blanks, render_texts rest blanks⟩

theorem render_field_texts : (fields : List (JsString × Json Double)) → {indentation : JsString} → Blank indentation →
    ∀ field ∈ fields, ValueText (renderCanonical indentation (written field.2)) (spelt field.2)
  | [], _, _ => fun _ member => absurd member List.not_mem_nil
  | (_, value) :: rest, _, blanks => List.forall_mem_cons.mpr ⟨render_text value blanks, render_field_texts rest blanks⟩

end

end Rendering

section Stringified

theorem stringifyItems_map (items : List Value) : stringifyItems items = items.map stringify := by
  induction items with
  | nil => rfl
  | cons item rest ih => rw [stringifyItems, ih, List.map_cons]

def stringifyField (field : JsString × Value) : JsString := quote field.1 ++ units ":" ++ stringify field.2

theorem stringifyFields_map (fields : Record) : stringifyFields fields = fields.map stringifyField := by
  induction fields with
  | nil => rfl
  | cons field rest ih => rw [stringifyFields, ih, List.map_cons, stringifyField]

theorem units_marks : units "[" = [0x5b] ∧ units "]" = [0x5d] ∧ units "," = [0x2c] ∧ units ":" = [0x3a] ∧ units "\x7b" = [0x7b] ∧
    units "\x7d" = [0x7d] := by decide

theorem stringify_items {items : List (Json Double)} (members : ∀ item ∈ items, ValueText (stringify (written item)) (spelt item)) :
    ValueText (stringify (written (.array items))) (spelt (.array items)) := by
  rw [written_items, spelt_items, stringify, stringifyItems_map, units_marks.1, units_marks.2.1, units_marks.2.2.1]
  have spelled : List.Forall₂ ValueText ((items.map written).map stringify) (items.map spelt) := by
    rw [List.map_map, List.forall₂_map_left_iff, List.forall₂_map_right_iff, List.forall₂_same]
    exact members
  cases items with
  | nil => exact .emptyArray (rfl : Blank [])
  | cons item items =>
    have joined := itemsText_joined (rfl : Blank []) (rfl : Blank []) (rfl : Blank []) spelled (List.cons_ne_nil _ _)
    rw [List.nil_append, List.append_nil] at joined
    exact .array joined

theorem stringify_fields {fields : Fields Double} (members : ∀ field ∈ fields, ValueText (stringify (written field.2)) (spelt field.2)) :
    ValueText (stringify (written (.object fields))) (spelt (.object fields)) := by
  rw [written_fields, spelt_fields, stringify, stringifyFields_map, units_marks.2.2.1, units_marks.2.2.2.2.1, units_marks.2.2.2.2.2]
  have spelled : List.Forall₂ Spells ((fields.map fun field => (field.1, written field.2)).map stringifyField)
      (fields.map fun field => (field.1, spelt field.2)) := by
    rw [List.map_map, List.forall₂_map_left_iff, List.forall₂_map_right_iff, List.forall₂_same]
    intro field member
    change Spells (quote field.1 ++ units ":" ++ stringify (written field.2)) _
    rw [units_marks.2.2.2.1]
    exact spells_field (stringText_quote field.1) (members field member) (rfl : Blank [])
  cases fields with
  | nil => exact .emptyObject (rfl : Blank [])
  | cons field fields =>
    have joined := fieldsText_joined (rfl : Blank []) (rfl : Blank []) (rfl : Blank []) spelled (List.cons_ne_nil _ _)
    rw [List.nil_append, List.append_nil] at joined
    exact .object joined

mutual

theorem stringify_text : (value : Json Double) → ValueText (stringify (written value)) (spelt value)
  | .null => .null
  | .boolean _ => .boolean
  | .number _ => .number
  | .string string => valueText_quote string
  | .array items => stringify_items (stringify_texts items)
  | .object fields => stringify_fields (stringify_field_texts fields)

theorem stringify_texts : (items : List (Json Double)) → ∀ item ∈ items, ValueText (stringify (written item)) (spelt item)
  | [] => fun _ member => absurd member List.not_mem_nil
  | item :: rest => List.forall_mem_cons.mpr ⟨stringify_text item, stringify_texts rest⟩

theorem stringify_field_texts : (fields : List (JsString × Json Double)) →
    ∀ field ∈ fields, ValueText (stringify (written field.2)) (spelt field.2)
  | [] => fun _ member => absurd member List.not_mem_nil
  | (_, value) :: rest => List.forall_mem_cons.mpr ⟨stringify_text value, stringify_field_texts rest⟩

end

end Stringified

end SecureHome.Governance
