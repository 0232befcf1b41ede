import SecureHome.Proofs.CanonicalText

/-! The canonical form of a value, property by property. -/

namespace SecureHome.Governance
open Lib

variable {path : List JsString} {value : Value} {key : JsString} {name : String} {text : JsString}

theorem keyBefore_alike {preferred : List JsString} {left right : JsString} (same : left = right) : keyBefore preferred left right = true := by
  subst same
  unfold keyBefore
  split <;> simp

theorem lookup_canonicalizeFields {fields : Record} :
    (canonicalizeFields path fields).lookup key = (fields.lookup key).map (canonicalizeValue (path ++ [key])) := by
  induction fields with
  | nil => rfl
  | cons first rest ih =>
    obtain ⟨other, value⟩ := first
    rw [canonicalizeFields, List.lookup_cons, List.lookup_cons, ih]
    by_cases same : key = other
    · subst same
      rw [beq_self_eq_true]
      rfl
    · rw [beq_false_of_ne same]

/-- A property of a canonical form is the canonical form of the property. -/
theorem child_canonical : (canonicalizeValue path value).child (.key key) = (value.child (.key key)).map (canonicalizeValue (path ++ [key])) := by
  cases value with
  | object fields =>
    rw [canonicalizeValue]
    change (enumerated _).lookup key = (fields.lookup key).map _
    rw [lookup_enumerated, lookup_insertionSort (fun _ _ same => keyBefore_alike same), lookup_canonicalizeFields]
  | _ =>
    simp only [canonicalizeValue]
    rfl

theorem canonicalizeValue_string : canonicalizeValue path value = .string text ↔ value = .string text := by
  cases value <;> simp [canonicalizeValue]

theorem canonicalizeItems_strings {items : List Value} {index : Nat} {texts : List JsString} :
    canonicalizeItems path index items = texts.map .string ↔ items = texts.map .string := by
  induction items generalizing index texts with
  | nil => cases texts <;> simp [canonicalizeItems]
  | cons first rest ih =>
    cases texts with
    | nil => simp [canonicalizeItems]
    | cons text texts => rw [canonicalizeItems, List.map_cons, List.cons_eq_cons, List.cons_eq_cons, canonicalizeValue_string, ih]

/-- A property that is a string is one in the canonical form, and the same. -/
theorem canonical_child_string {value : Option Value} :
    (canonical value).child (.key key) = some (.string text) ↔ (value.getD .null).child (.key key) = some (.string text) := by
  unfold canonical
  rw [child_canonical, child_canonical, Option.map_map]
  cases (value.getD .null).child (.key key) with
  | none => simp
  | some held => simp [canonicalizeValue_string]

theorem orderMembers_unordered {items : List Value} : orderMembers [] items = items := by simp [orderMembers]

/-- A list of strings keeps its order. -/
theorem canonical_strings {value : Option Value} {texts : List JsString} :
    canonical value = .array (texts.map .string) ↔ value = some (.array (texts.map .string)) := by
  unfold canonical
  cases value with
  | none => simp [canonicalizeValue]
  | some value =>
    cases value with
    | array items =>
      simp only [Option.getD_some, canonicalizeValue, orderMembers_unordered, Json.array.injEq, Option.some.injEq, canonicalizeItems_strings]
    | _ => simp [canonicalizeValue]

end SecureHome.Governance
