import SecureHome.Lib.DoubleText
import SecureHome.Proofs.ArrayOrder

/-! The canonical form of a value does not depend on the indices on its path. -/

namespace SecureHome.Governance
open Lib

/-- Steps that differ at most in an index. -/
def SameStep (one other : JsString) : Prop := one = other ∨ (∃ index : ℕ, one = units index.repr) ∧ ∃ index : ℕ, other = units index.repr

abbrev SamePath : List JsString → List JsString → Prop := List.Forall₂ SameStep

variable {path path' : List JsString} {name : String} {step : JsString}

theorem SamePath.refl : (path : List JsString) → SamePath path path
  | [] => .nil
  | _ :: path => .cons (.inl rfl) (SamePath.refl path)

theorem SamePath.key (same : SamePath path path') : SamePath (path ++ [step]) (path' ++ [step]) :=
  List.rel_append same (.cons (.inl rfl) .nil)

theorem SamePath.index (same : SamePath path path') (index other : ℕ) :
    SamePath (path ++ [units index.repr]) (path' ++ [units other.repr]) :=
  List.rel_append same (.cons (.inr ⟨⟨index, rfl⟩, other, rfl⟩) .nil)

/-- A name that is not all digits is no index. -/
theorem name_no_index (letters : (units name).all isDecimal = false) (index : ℕ) : units name ≠ units index.repr := by
  intro same
  rw [same, (Digits.repr_decimal index).2.1] at letters
  cases letters

theorem SamePath.isEmpty (same : SamePath path path') : path.isEmpty = path'.isEmpty := by cases same <;> rfl

theorem SamePath.contains (same : SamePath path path') (letters : (units name).all isDecimal = false) :
    path.contains (units name) = path'.contains (units name) := by
  induction same with
  | nil => rfl
  | @cons one other _ _ step _ ih =>
    rw [List.contains_cons, List.contains_cons, ih]
    rcases step with rfl | ⟨⟨index, rfl⟩, other, rfl⟩
    · rfl
    · rw [beq_false_of_ne (name_no_index letters index), beq_false_of_ne (name_no_index letters other)]

theorem SamePath.getLast (same : SamePath path path') : Option.Rel SameStep path.getLast? path'.getLast? := by
  have reversed : SamePath path.reverse path'.reverse := List.rel_reverse same
  rw [← List.head?_reverse, ← List.head?_reverse]
  generalize path.reverse = one at reversed ⊢
  generalize path'.reverse = other at reversed ⊢
  cases reversed with
  | nil => exact .none
  | cons step _ => exact .some step

theorem SamePath.keyed (same : SamePath path path') (letters : (units name).all isDecimal = false) :
    decide (path.getLast? = some (units name)) = decide (path'.getLast? = some (units name)) := by
  have last := same.getLast
  generalize path.getLast? = one at last
  generalize path'.getLast? = other at last
  cases last with
  | none => rfl
  | some step =>
    rcases step with rfl | ⟨⟨index, rfl⟩, other, rfl⟩
    · rfl
    · rw [decide_eq_false fun found => name_no_index letters index (Option.some.inj found).symm,
        decide_eq_false fun found => name_no_index letters other (Option.some.inj found).symm]

theorem SamePath.keyedAny (same : SamePath path path') {names : List String}
    (letters : names.all (fun name => !(units name).all isDecimal) = true) :
    (names.any fun name => path.getLast? = some (units name)) = names.any fun name => path'.getLast? = some (units name) := by
  rw [Bool.eq_iff_iff, List.any_eq_true, List.any_eq_true]
  refine exists_congr fun name => and_congr_right fun member => ?_
  rw [same.keyed (by simpa using List.all_eq_true.mp letters name member)]

theorem SamePath.listed (same : SamePath path path') {names : List String} (letters : names.all (fun name => !(units name).all isDecimal) = true) :
    (path.getLast?.any ((names.map units).contains ·)) = path'.getLast?.any ((names.map units).contains ·) := by
  have outside (index : ℕ) : (names.map units).contains (units index.repr) = false := by
    rw [Bool.eq_false_iff]
    intro listed
    obtain ⟨name, member, found⟩ := List.mem_map.mp (List.contains_iff_mem.mp listed)
    exact name_no_index (by simpa using List.all_eq_true.mp letters name member) index found
  have last := same.getLast
  generalize path.getLast? = one at last
  generalize path'.getLast? = other at last
  cases last with
  | none => rfl
  | some step =>
    rcases step with rfl | ⟨⟨index, rfl⟩, other, rfl⟩
    · rfl
    · rw [Option.any_some, Option.any_some, outside, outside]

theorem SamePath.sortedBy (same : SamePath path path') : sortedBy path = sortedBy path' := by
  have collections_letters : collections.all (fun name => !(units name).all isDecimal) = true := by decide
  have sets_letters : ["resolves", "supersedes", "requires", "sources", "scope", "waivedMinimumArtifacts", "policyEvidenceIdentities",
    "factClasses", "generatedRegions"].all (fun name => !(units name).all isDecimal) = true := by decide
  have sets : setArrayKeys = ["resolves", "supersedes", "requires", "sources", "scope", "waivedMinimumArtifacts",
    "policyEvidenceIdentities", "factClasses", "generatedRegions"].map units := rfl
  unfold Governance.sortedBy entityArrayKeys
  rw [sets]
  dsimp only
  have keyed (name : String) (letters : (units name).all isDecimal = false) := @SamePath.keyed _ _ name same letters
  simp only [keyed "historicalCompletions" (by decide), keyed "decisionEvidence" (by decide), keyed "sources" (by decide),
    keyed "rows" (by decide), keyed "planningSources" (by decide), keyed "primitiveSourceTuples" (by decide), keyed "members" (by decide),
    @SamePath.contains _ _ "decisionEvidence" same (by decide), @SamePath.contains _ _ "genesisCompletion" same (by decide),
    same.listed collections_letters, same.listed sets_letters]

theorem SamePath.objectKind (same : SamePath path path') (object : Value) : objectKind object path = objectKind object path' := by
  unfold Governance.objectKind
  dsimp only
  have keyed (names : List String) (letters : names.all (fun name => !(units name).all isDecimal) = true) :=
    @SamePath.keyedAny _ _ same names letters
  have within (name : String) (letters : (units name).all isDecimal = false) := @SamePath.contains _ _ name same letters
  simp only [same.isEmpty, keyed ["predicate"] (by decide), keyed ["authorityAnchor", "authority"] (by decide),
    keyed ["delivery"] (by decide), keyed ["completion"] (by decide), keyed ["withdrawal"] (by decide),
    keyed ["replacement"] (by decide), keyed ["attestation"] (by decide),
    keyed ["identity", "deliveredIdentity", "mergedEvidenceIdentity", "evidenceManifestIdentity", "findingsIdentity"] (by decide),
    within "adrs" (by decide), within "questions" (by decide), within "gates" (by decide), within "landings" (by decide)]

theorem SamePath.orderMembers (same : SamePath path path') (members : List Value) : orderMembers path members = orderMembers path' members := by
  rw [orderMembers_eq, orderMembers_eq, same.sortedBy]

mutual

theorem canonicalizeValue_same : {path path' : List JsString} → SamePath path path' → (value : Value) →
    canonicalizeValue path value = canonicalizeValue path' value
  | _, _, _, .null => rfl
  | _, _, _, .boolean _ => rfl
  | _, _, _, .number _ => rfl
  | _, _, _, .string _ => rfl
  | _, _, same, .array items => by rw [canonicalizeValue, canonicalizeValue, same.orderMembers, canonicalizeItems_same same items 0 0]
  | _, _, same, .object fields => by
    rw [canonicalizeValue, canonicalizeValue, same.objectKind, canonicalizeFields_same same fields]

theorem canonicalizeItems_same : {path path' : List JsString} → SamePath path path' → (items : List Value) → (index other : ℕ) →
    canonicalizeItems path index items = canonicalizeItems path' other items
  | _, _, _, [], _, _ => rfl
  | _, _, same, item :: rest, index, other => by
    rw [canonicalizeItems, canonicalizeItems, canonicalizeValue_same (same.index index other) item,
      canonicalizeItems_same same rest (index + 1) (other + 1)]

theorem canonicalizeFields_same : {path path' : List JsString} → SamePath path path' → (fields : List (JsString × Value)) →
    canonicalizeFields path fields = canonicalizeFields path' fields
  | _, _, _, [] => rfl
  | _, _, same, (key, value) :: rest => by
    rw [canonicalizeFields, canonicalizeFields, canonicalizeValue_same same.key value, canonicalizeFields_same same rest]

end

end SecureHome.Governance
