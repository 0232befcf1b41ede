import SecureHome.Proofs.JsonParse
import SecureHome.Proofs.RenderedText
import SecureHome.Toolchain.PolicySchema

/-! The validator reports nothing exactly for what meets the schema in its own sense: unique by text,
and with no look at booleans. Where that is not JSON Schema's sense, the two part. -/

namespace SecureHome.Proofs.PolicySchema
open Lib Governance Toolchain
open Schema (Rules Meets Keeps HasType Accepts)

section Fuel

variable {definitions : Definitions} {fuel : ℕ} {schema : Schema} {value : Json Lib.Double} {place : JsString} {problems : List JsString}

theorem mapM_more {Item : Type} {items : List Item} {check more : Item → Option (List JsString)} {nested : List (List JsString)}
    (each : ∀ item problems, check item = some problems → more item = some problems) (checked : items.mapM check = some nested) :
    items.mapM more = some nested := by
  induction items generalizing nested with
  | nil => exact checked
  | cons item rest ih =>
    rw [List.mapM_cons] at checked ⊢
    obtain ⟨first, here, checked⟩ := Option.bind_eq_some_iff.mp checked
    obtain ⟨others, later, same⟩ := Option.bind_eq_some_iff.mp checked
    exact Option.bind_eq_some_iff.mpr ⟨first, each item first here, Option.bind_eq_some_iff.mpr ⟨others, ih later, same⟩⟩

/-- A check that finds what another one finds. -/
theorem validateNode_more {check more : Json Lib.Double → Schema → JsString → Option (List JsString)} {keywords : Keywords}
    {items : Option Schema}
    {properties : List (Key × Schema)} (each : ∀ value schema place problems, check value schema place = some problems →
      more value schema place = some problems) (checked : validateNode check keywords items properties value place = some problems) :
    validateNode more keywords items properties value place = some problems := by
  unfold validateNode at checked ⊢
  dsimp only at checked ⊢
  split at checked
  next => exact checked
  next =>
    cases value with
    | array members =>
      obtain ⟨nested, members_checked, same⟩ := Option.map_eq_some_iff.mp checked
      refine Option.map_eq_some_iff.mpr ⟨nested, ?_, same⟩
      cases items with
      | none => exact members_checked
      | some schema => exact mapM_more (fun member problems here => each _ _ _ problems here) members_checked
    | _ => exact checked
  next =>
    cases value with
    | object fields =>
      obtain ⟨nested, fields_checked, same⟩ := Option.map_eq_some_iff.mp checked
      refine Option.map_eq_some_iff.mpr ⟨nested, mapM_more (fun property problems here => ?_) fields_checked, same⟩
      cases found : fields.lookup property.1.1 with
      | none => rwa [found] at here
      | some held =>
        rw [found] at here
        exact each _ _ _ problems here
    | _ => exact checked
  next => exact checked

/-- More fuel changes no result. -/
theorem validate_more (checked : validateAgainstSchema definitions fuel value schema place = some problems) :
    validateAgainstSchema definitions (fuel + 1) value schema place = some problems := by
  induction fuel generalizing schema value place problems with
  | zero => cases checked
  | succ fuel ih =>
    cases schema with
    | ref name =>
      rw [validateAgainstSchema] at checked ⊢
      cases found : definitions.lookup name with
      | none => rwa [found] at checked
      | some target =>
        rw [found] at checked
        exact ih checked
    | node keywords items properties =>
      rw [validateAgainstSchema] at checked ⊢
      exact validateNode_more (fun value schema place problems here => ih here) checked

theorem validate_enough {more : ℕ} (enough : fuel ≤ more)
    (checked : validateAgainstSchema definitions fuel value schema place = some problems) :
    validateAgainstSchema definitions more value schema place = some problems := by
  induction enough with
  | refl => exact checked
  | step _ ih => exact validate_more ih

end Fuel

section Keywords

variable {keywords : Keywords} {value one other : Json Lib.Double} {shown problem : JsString}

theorem reportIf_nil {wrong : Bool} : reportIf wrong problem = [] ↔ wrong = false := by cases wrong <;> simp [reportIf]

theorem sameNumber_iff {number : Lib.Double} : sameNumber value number = true ↔ value.Equal (.number number) := by
  unfold Json.Equal
  rw [Json.deepEqual_iff]
  cases value
  case number held =>
    change decide (held.unsigned = number.unsigned) = true ↔ _
    rw [decide_eq_true_iff]
    constructor
    · intro same
      exact ⟨congrArg Json.Shape.number same, fun step => by cases step <;> exact .none⟩
    · rintro ⟨same, _⟩
      exact Json.Shape.number.inj same
  all_goals exact iff_of_false Bool.false_ne_true fun ⟨impossible, _⟩ => by cases impossible

theorem constProblems_nil : constProblems keywords value shown = [] ↔
    (∀ number, keywords.const = some number → value.Equal (.number number)) ∧
      ∀ names, keywords.enum = some names → ∃ name ∈ names, value = .string name := by
  unfold constProblems
  rw [List.append_eq_nil_iff]
  refine and_congr ?_ ?_
  · cases keywords.const with
    | none => simp
    | some number => simp [reportIf_nil, sameNumber_iff]
  · cases keywords.enum with
    | none => simp
    | some names =>
      dsimp only
      rw [reportIf_nil, Bool.not_eq_false', List.any_eq_true]
      constructor
      · rintro ⟨name, listed, same⟩ _ ⟨⟩
        refine ⟨name, listed, ?_⟩
        cases value
        case string text => exact congrArg Json.string (of_decide_eq_true same)
        all_goals cases same
      · intro one_of
        obtain ⟨name, listed, rfl⟩ := one_of names rfl
        exact ⟨name, listed, decide_eq_true rfl⟩

theorem scalarValues_pos {text : JsString} : 0 < (scalarValues text).length ↔ 0 < text.length := by
  rw [← @length_toWellFormed text, toWellFormed]
  cases scalarValues text with
  | nil => simp
  | cons character rest =>
    have some_units : utf16 character ≠ [] := by
      unfold utf16
      split <;> simp
    simp [List.length_pos_iff, some_units]

theorem stringProblems_nil {text : JsString} (short : ∀ least, keywords.minLength = some least → least ≤ 1) :
    stringProblems keywords text shown = [] ↔ (∀ least, keywords.minLength = some least → least ≤ (scalarValues text).length) ∧
      ∀ pattern, keywords.pattern = some pattern → pattern.test text = true := by
  unfold stringProblems
  rw [List.append_eq_nil_iff]
  refine and_congr ?_ ?_
  · cases length : keywords.minLength with
    | none => simp
    | some least =>
      have small := short least length
      have positive := @scalarValues_pos text
      simp only [reportIf_nil, decide_eq_false_iff_not, Option.some.injEq, forall_eq']
      omega
  · cases keywords.pattern with
    | none => simp
    | some pattern => simp [reportIf_nil]

/-- How the validator compares items. -/
def texts (members : List (Json Lib.Double)) : List JsString := members.map fun member => stringify (written member)

theorem arrayProblems_nil {members : List (Json Lib.Double)} : arrayProblems keywords members shown = [] ↔
    (∀ least, keywords.minItems = some least → least ≤ members.length) ∧ (∀ most, keywords.maxItems = some most → members.length ≤ most) ∧
      (keywords.uniqueItems = true → (texts members).Nodup) := by
  have distinct : (texts members).dedup.length = members.length ↔ (texts members).Nodup := by
    have long : (texts members).length = members.length := List.length_map _
    rw [← long, ← List.dedup_eq_self]
    exact ⟨(List.dedup_sublist _).eq_of_length, congrArg List.length⟩
  unfold arrayProblems
  rw [List.append_eq_nil_iff, List.append_eq_nil_iff, and_assoc]
  refine and_congr ?_ (and_congr ?_ ?_)
  · cases keywords.minItems with
    | none => simp
    | some least => simp [reportIf_nil]
  · cases keywords.maxItems with
    | none => simp
    | some most => simp [reportIf_nil]
  · rw [reportIf_nil, ← distinct]
    unfold texts
    cases keywords.uniqueItems <;> simp

theorem objectProblems_nil {declared : List Key} {fields : Fields Lib.Double} : objectProblems keywords declared fields shown = [] ↔
    (∀ key ∈ keywords.required, (fields.lookup key.1).isSome = true) ∧
      (keywords.additionalProperties = false → ∀ field ∈ fields, ∃ key ∈ declared, key.1 = field.1) := by
  unfold objectProblems
  rw [List.append_eq_nil_iff, List.flatMap_eq_nil_iff]
  refine and_congr ?_ ?_
  · refine forall₂_congr fun key _ => ?_
    rw [reportIf_nil]
    cases fields.lookup key.1 <;> simp
  · cases keywords.additionalProperties with
    | true => simp
    | false =>
      rw [if_neg Bool.false_ne_true, List.flatMap_eq_nil_iff]
      simp only [reportIf_nil, Bool.not_eq_false', List.any_eq_true, decide_eq_true_eq, true_imp_iff]

end Keywords

section Interpreter

variable {definitions : Definitions} {fuel : ℕ} {schema : Schema} {value : Json Lib.Double} {place : JsString} {keywords : Keywords}
  {items : Option Schema} {properties : List (Key × Schema)}

/-- Every keyword stands beside the type it applies to, and a length asks for one unit at most. -/
def suited (keywords : Keywords) (items : Option Schema) (properties : List (Key × Schema)) : Bool :=
  keywords.minLength.all (· ≤ 1) &&
    match keywords.type with
    | some .string => true
    | some .array => true
    | some .object => true
    | _ => keywords.minLength.isNone && keywords.pattern.isNone && keywords.minItems.isNone && keywords.maxItems.isNone &&
        !keywords.uniqueItems && keywords.required.isEmpty && keywords.additionalProperties && items.isNone && properties.isEmpty

/-- The schema is suited in every part, and its references end within the fuel. -/
def settles (definitions : Definitions) : ℕ → Schema → Bool
  | 0, _ => false
  | fuel + 1, .ref name => (definitions.lookup name).any (settles definitions fuel)
  | fuel + 1, .node keywords items properties =>
    suited keywords items properties && items.all
        (settles definitions fuel) && properties.all fun property => settles definitions fuel property.2

/-- The rules the validator goes by. -/
def textual : Rules := ⟨fun members => (texts members).Nodup, fun _ => True, True⟩

/-- A check answers, with nothing exactly if its value is right. -/
def Reports (result : Option (List JsString)) (right : Prop) : Prop := ∃ problems, result = some problems ∧ (problems = [] ↔ right)

theorem mapM_reports {Item : Type} {list : List Item} {check : Item → Option (List JsString)} {right : Item → Prop}
    (each : ∀ item ∈ list, Reports (check item) (right item)) :
    ∃ nested, list.mapM check = some nested ∧ (nested.flatten = [] ↔ ∀ item ∈ list, right item) := by
  induction list with
  | nil => exact ⟨[], rfl, by simp⟩
  | cons item rest ih =>
    rw [List.forall_mem_cons] at each
    obtain ⟨problems, here, sound⟩ := each.1
    obtain ⟨nested, later, sounds⟩ := ih each.2
    refine ⟨problems :: nested, ?_, ?_⟩
    · rw [List.mapM_cons]
      exact Option.bind_eq_some_iff.mpr ⟨problems, here, Option.bind_eq_some_iff.mpr ⟨nested, later, rfl⟩⟩
    · rw [List.flatten_cons, List.append_eq_nil_iff, List.forall_mem_cons, sound, sounds]

theorem meets_node : Meets textual definitions (.node keywords items properties) value ↔
    Keeps keywords (properties.map Prod.fst) value ∧
      (keywords.uniqueItems = true → ∀ members, value = .array members → (texts members).Nodup) ∧
      (∀ schema, items = some schema → ∀ members, value = .array members → ∀ member ∈ members, Meets textual definitions schema member) ∧
      ∀ key schema, (key, schema) ∈ properties → ∀ fields, value = .object fields → ∀ held, fields.lookup key.1 = some held →
        Meets textual definitions schema held := by
  constructor
  · rintro (_ | ⟨others, unique, _, each, fields⟩)
    exact ⟨others trivial, unique, each, fields⟩
  · rintro ⟨others, unique, each, fields⟩
    exact .node (fun _ => others) unique (fun _ => trivial) each fields

theorem nestedMembers_reports {check : Json Lib.Double → Schema → JsString → Option (List JsString)}
    {members : List (Json Lib.Double)} {shown : JsString}
    {right : Schema → Json Lib.Double → Prop}
    (each : ∀ schema, items = some schema → ∀ member place, Reports (check member schema place) (right schema member)) :
    ∃ nested, nestedMembers check items members shown = some nested ∧
      (nested.flatten = [] ↔ ∀ schema, items = some schema → ∀ member ∈ members, right schema member) := by
  cases items with
  | none => exact ⟨[], rfl, by simp⟩
  | some schema =>
    obtain ⟨nested, checked, sound⟩ := @mapM_reports _ members.zipIdx (fun member => check member.1 schema (memberPlace shown member.2))
      (fun member => right schema member.1) fun member _ => each schema rfl member.1 _
    refine ⟨nested, checked, sound.trans ?_⟩
    constructor
    · rintro all _ ⟨⟩ member listed
      obtain ⟨index, inside, rfl⟩ := List.getElem_of_mem listed
      exact all (members[index], index) (List.mem_zipIdx_iff_getElem?.mpr (List.getElem?_eq_getElem inside))
    · intro all member listed
      exact all schema rfl member.1 (List.fst_mem_of_mem_zipIdx listed)

theorem nestedFields_reports {check : Json Lib.Double → Schema → JsString → Option (List JsString)} {fields : Fields Lib.Double}
    {right : Schema → Json Lib.Double → Prop}
    (each : ∀ property ∈ properties, ∀ held place, Reports (check held property.2 place) (right property.2 held)) :
    ∃ nested, nestedFields check properties fields place = some nested ∧
      (nested.flatten = [] ↔ ∀ key schema, (key, schema) ∈ properties → ∀ held, fields.lookup key.1 = some held → right schema held) := by
  unfold nestedFields
  exact Exists.imp (fun nested held => ⟨held.1, held.2.trans
      ⟨fun all key schema listed => all (key, schema) listed, fun all property listed => all _ _ listed⟩⟩)
    (@mapM_reports _ properties _ (fun property => ∀ held, fields.lookup property.1.1 = some held → right property.2 held)
      fun property listed => by
        cases found : fields.lookup property.1.1 with
        | none => exact ⟨[], rfl, by simp⟩
        | some held =>
          obtain ⟨problems, checked, sound⟩ := each property listed held (fieldPlace place property.1.1)
          refine ⟨problems, checked, sound.trans ⟨?_, fun all => all held rfl⟩⟩
          rintro right _ ⟨⟩
          exact right)

theorem reports_wrong {type : JsonType} {problem : JsString} (typed : keywords.type = some type) (other : type ≠ .boolean)
    (wrong : ¬ HasType value type) : Reports (some [problem]) (Meets textual definitions (.node keywords items properties) value) :=
  ⟨[problem], rfl, iff_of_false (List.cons_ne_nil _ _) fun meets => wrong ((meets_node.mp meets).1.type type typed other)⟩

theorem string_reports {text : JsString} {shown : JsString} (typed : keywords.type = some .string)
    (short : ∀ least, keywords.minLength = some least → least ≤ 1) :
    Reports (some (constProblems keywords (.string text) shown ++ stringProblems keywords text shown))
      (Meets textual definitions (.node keywords items properties) (.string text)) := by
  refine ⟨_, rfl, ?_⟩
  rw [List.append_eq_nil_iff, constProblems_nil, stringProblems_nil short, meets_node]
  constructor
  · rintro ⟨⟨const, enum⟩, minLength, pattern⟩
    refine ⟨⟨const, enum, fun type same _ => ?_, ?_, ?_, fun _ _ _ same => (nomatch same), fun _ _ _ same => (nomatch same),
      fun _ _ _ same => (nomatch same), fun _ _ same => (nomatch same)⟩, fun _ _ same => (nomatch same), fun _ _ _ same => (nomatch same),
      fun _ _ _ _ same => (nomatch same)⟩
    · cases typed.symm.trans same
      exact ⟨text, rfl⟩
    · rintro least length _ ⟨⟩
      exact minLength least length
    · rintro asked here _ ⟨⟩
      exact pattern asked here
  · rintro ⟨kept, _⟩
    exact ⟨⟨kept.const, kept.enum⟩, fun least length => kept.minLength least length text rfl,
        fun asked here => kept.pattern asked here text rfl⟩

theorem array_reports {members : List (Json Lib.Double)} {shown : JsString} {nested : List (List JsString)} (typed :
    keywords.type = some .array)
    (sound : nested.flatten = [] ↔ ∀ schema, items = some schema → ∀ member ∈ members, Meets textual definitions schema member) :
    Reports (some (constProblems keywords (.array members) shown ++ arrayProblems keywords members shown ++ nested.flatten))
      (Meets textual definitions (.node keywords items properties) (.array members)) := by
  refine ⟨_, rfl, ?_⟩
  rw [List.append_eq_nil_iff, List.append_eq_nil_iff, constProblems_nil, arrayProblems_nil, sound, meets_node]
  constructor
  · rintro ⟨⟨⟨const, enum⟩, minItems, maxItems, unique⟩, each⟩
    refine ⟨⟨const, enum, fun type same _ => ?_, fun _ _ _ same => (nomatch same), fun _ _ _ same => (nomatch same), ?_, ?_,
      fun _ _ _ same => (nomatch same), fun _ _ same => (nomatch same)⟩, ?_, ?_, fun _ _ _ _ same => (nomatch same)⟩
    · cases typed.symm.trans same
      exact ⟨members, rfl⟩
    · rintro least length _ ⟨⟩
      exact minItems least length
    · rintro most length _ ⟨⟩
      exact maxItems most length
    · rintro asked _ ⟨⟩
      exact unique asked
    · rintro schema there _ ⟨⟩
      exact each schema there
  · rintro ⟨kept, unique, each, _⟩
    exact ⟨⟨⟨kept.const, kept.enum⟩, fun least length => kept.minItems least length members rfl,
      fun most length => kept.maxItems most length members rfl, fun asked => unique asked members rfl⟩,
      fun schema there => each schema there members rfl⟩

theorem object_reports {fields : Fields Lib.Double} {shown : JsString} {nested : List (List JsString)} (typed : keywords.type = some .object)
    (sound : nested.flatten = [] ↔ ∀ key schema, (key, schema) ∈ properties → ∀ held, fields.lookup key.1 = some held →
      Meets textual definitions schema held) :
    Reports (some (constProblems keywords (.object fields) shown ++ objectProblems keywords
        (properties.map Prod.fst) fields shown ++ nested.flatten))
      (Meets textual definitions (.node keywords items properties) (.object fields)) := by
  refine ⟨_, rfl, ?_⟩
  rw [List.append_eq_nil_iff, List.append_eq_nil_iff, constProblems_nil, objectProblems_nil, sound, meets_node]
  constructor
  · rintro ⟨⟨⟨const, enum⟩, required, closed⟩, nested⟩
    refine ⟨⟨const, enum, fun type same _ => ?_, fun _ _ _ same => (nomatch same), fun _ _ _ same =>
        (nomatch same), fun _ _ _ same => (nomatch same),
      fun _ _ _ same => (nomatch same), ?_, ?_⟩, fun _ _ same => (nomatch same), fun _ _ _ same => (nomatch same), ?_⟩
    · cases typed.symm.trans same
      exact ⟨fields, rfl⟩
    · rintro key listed _ ⟨⟩
      exact required key listed
    · rintro asked _ ⟨⟩
      exact closed asked
    · rintro key schema listed _ ⟨⟩
      exact nested key schema listed
  · rintro ⟨kept, _, _, nested⟩
    exact ⟨⟨⟨kept.const, kept.enum⟩, fun key listed => kept.required key listed fields rfl,
        fun asked => kept.additionalProperties asked fields rfl⟩,
      fun key schema listed => nested key schema listed fields rfl⟩

/-- A schema of no type that is looked at asks for its `const` and its `enum`. -/
theorem other_reports {shown : JsString} (untyped : ∀ type, keywords.type = some type → type = .boolean)
    (suits : suited keywords items properties = true) :
    Reports (some (constProblems keywords value shown)) (Meets textual definitions (.node keywords items properties) value) := by
  have bare : keywords.minLength = none ∧ keywords.pattern = none ∧ keywords.minItems = none ∧ keywords.maxItems = none ∧
      keywords.uniqueItems = false ∧ keywords.required = [] ∧ keywords.additionalProperties = true ∧ items = none ∧ properties = [] := by
    unfold suited at suits
    cases typed : keywords.type with
    | none => simpa [typed, and_assoc] using (Bool.and_eq_true_iff.mp suits).2
    | some type =>
      obtain rfl := untyped type typed
      simpa [typed, and_assoc] using (Bool.and_eq_true_iff.mp suits).2
  obtain ⟨minLength, pattern, minItems, maxItems, unique, required, closed, rfl, rfl⟩ := bare
  refine ⟨_, rfl, ?_⟩
  rw [constProblems_nil, meets_node]
  constructor
  · rintro ⟨const, enum⟩
    refine ⟨⟨const, enum, fun type same other => absurd (untyped type same) other, ?_, ?_, ?_, ?_, ?_, ?_⟩, ?_, ?_, ?_⟩
    · intro least length
      cases minLength.symm.trans length
    · intro asked here
      cases pattern.symm.trans here
    · intro least length
      cases minItems.symm.trans length
    · intro most length
      cases maxItems.symm.trans length
    · intro key listed
      rw [required] at listed
      cases listed
    · intro asked
      cases closed.symm.trans asked
    · intro asked
      cases unique.symm.trans asked
    · intro schema impossible
      cases impossible
    · intro key schema impossible
      cases impossible
  · rintro ⟨kept, _⟩
    exact ⟨kept.const, kept.enum⟩

theorem validateNode_reports {check : Json Lib.Double → Schema → JsString → Option (List JsString)}
    (suits : suited keywords items properties = true)
    (members_report : ∀ schema, items = some schema → ∀ member place, Reports (check member schema place)
        (Meets textual definitions schema member))
    (fields_report : ∀ property ∈ properties, ∀ held place, Reports (check held property.2 place)
        (Meets textual definitions property.2 held)) :
    Reports (validateNode check keywords items properties value place) (Meets textual definitions
        (.node keywords items properties) value) := by
  unfold validateNode
  cases typed : keywords.type with
  | none => exact other_reports (fun type same => by cases typed.symm.trans same) suits
  | some type =>
    cases type with
    | string =>
      cases value with
      | string text =>
        refine string_reports typed fun least length => ?_
        have small := (Bool.and_eq_true_iff.mp suits).1
        rw [length] at small
        exact of_decide_eq_true small
      | _ => exact reports_wrong typed (by decide) fun ⟨_, same⟩ => by cases same
    | array =>
      cases value with
      | array members =>
        obtain ⟨nested, checked, sound⟩ := @nestedMembers_reports items check members (whereOf place)
            (Meets textual definitions) members_report
        dsimp only
        rw [checked]
        exact array_reports typed sound
      | _ => exact reports_wrong typed (by decide) fun ⟨_, same⟩ => by cases same
    | object =>
      cases value with
      | object fields =>
        obtain ⟨nested, checked, sound⟩ := @nestedFields_reports place properties check fields (Meets textual definitions) fields_report
        dsimp only
        rw [checked]
        exact object_reports typed sound
      | _ => exact reports_wrong typed (by decide) fun ⟨_, same⟩ => by cases same
    | boolean => exact other_reports (fun type same => by cases typed.symm.trans same; rfl) suits

/-- The validator ends, and reports nothing exactly for what meets the schema by its own rules. -/
theorem validate_reports (ends : settles definitions fuel schema = true) :
    Reports (validateAgainstSchema definitions fuel value schema place) (Meets textual definitions schema value) := by
  induction fuel generalizing schema value place with
  | zero => cases ends
  | succ fuel ih =>
    cases schema with
    | ref name =>
      obtain ⟨target, found, further⟩ := (Option.any_eq_true ..).mp ends
      obtain ⟨problems, checked, sound⟩ := @ih target value place further
      refine ⟨problems, ?_, sound.trans ⟨.ref found, .reached found⟩⟩
      rw [validateAgainstSchema, found]
      exact checked
    | node keywords items properties =>
      obtain ⟨inner, each⟩ := Bool.and_eq_true_iff.mp ends
      obtain ⟨suits, members⟩ := Bool.and_eq_true_iff.mp inner
      rw [validateAgainstSchema]
      refine validateNode_reports suits (fun schema there member place => ih ?_) fun property listed held place => ih ?_
      · rw [there] at members
        exact members
      · exact List.all_eq_true.mp each property listed

end Interpreter

section Agreement

variable {definitions : Definitions} {schema : Schema} {value one other : Json Lib.Double}

/-- Every keyword but that items are unique and that a boolean is one. -/
def otherRules : Rules := ⟨fun _ => True, fun _ => True, True⟩

/-- No unique array has two items of one text. -/
def textRules : Rules := ⟨fun members => (texts members).Nodup, fun _ => True, False⟩

/-- No unique array has two items that are equal, and a boolean is one. -/
def valueRules : Rules := ⟨List.Pairwise fun one other => ¬ one.Equal other, (HasType · .boolean), False⟩

/-- Values of one text are equal. -/
theorem equal_of_text (same : stringify (written one) = stringify (written other)) : one.Equal other := by
  have trees : spelt one = spelt other := by
    refine jsonText_unique ⟨[], _, [], rfl, stringify_text one, rfl, (List.append_nil _).symm⟩ ?_
    rw [same]
    exact ⟨[], _, [], rfl, stringify_text other, rfl, (List.append_nil _).symm⟩
  have again (form : Json Lib.Double) : (spelt form).map (fun token => token.number.getD
      (Lib.Double.zero false)) = form.map Lib.Double.unsigned := by
    unfold spelt
    rw [Json.map_map]
    congr 1
    funext double
    rw [Function.comp_apply, Lib.Double.token_number, Option.getD_some]
  unfold Json.Equal
  rw [← again, ← again, trees]
  exact .refl _

theorem texts_distinct {members : List (Json Lib.Double)} (apart : members.Pairwise fun one other => ¬ one.Equal other) :
    (texts members).Nodup := by
  unfold texts List.Nodup
  rw [List.pairwise_map]
  exact apart.imp fun unequal same => unequal (equal_of_text same)

theorem textual_iff : Meets textual definitions schema value ↔
    Meets otherRules definitions schema value ∧ Meets textRules definitions schema value := by
  constructor
  · intro meets
    exact ⟨meets.mono id (fun _ _ => trivial) fun _ => id, meets.mono False.elim (fun _ => id) fun _ => id⟩
  · rintro ⟨others, distinct⟩
    exact (others.both distinct).mono (fun _ => .inl trivial) (fun _ => And.right) fun _ _ => trivial

theorem accepts_iff : Accepts definitions schema value ↔
    Meets otherRules definitions schema value ∧ Meets valueRules definitions schema value := by
  constructor
  · intro meets
    exact ⟨meets.mono id (fun _ _ => trivial) fun _ _ => trivial, meets.mono False.elim (fun _ => id) fun _ => id⟩
  · rintro ⟨others, distinct⟩
    exact (others.both distinct).mono (fun _ => .inl trivial) (fun _ => And.right) fun _ => And.right

theorem text_of_value (distinct : Meets valueRules definitions schema value) : Meets textRules definitions schema value :=
  distinct.mono id (fun _ => texts_distinct) fun _ _ => trivial

/-- The validator returns these problems for a value, with whatever fuel is enough. -/
def Returns (value : Json Lib.Double) (problems : List JsString) : Prop :=
  ∃ enough, ∀ fuel, enough ≤ fuel → validateAgainstSchema boundaryDefinitions fuel value boundariesSchema [] = some problems

/-- The validator ends on a value, and reports nothing for it exactly if JSON Schema accepts it. -/
def Agrees (value : Json Lib.Double) : Prop :=
  (∃ problems, Returns value problems) ∧ (Returns value [] ↔ Accepts boundaryDefinitions boundariesSchema value)

theorem boundaries_settle : settles boundaryDefinitions 16 boundariesSchema = true := by decide +kernel

theorem returns_sound (value : Json Lib.Double) : ∃ problems, Returns value problems ∧
    (problems = [] ↔ Meets textual boundaryDefinitions boundariesSchema value) := by
  obtain ⟨problems, checked, sound⟩ := @validate_reports boundaryDefinitions 16 boundariesSchema value [] boundaries_settle
  exact ⟨problems, ⟨16, fun fuel enough => validate_enough enough checked⟩, sound⟩

theorem returns_unique {first second : List JsString} (here : Returns value first) (there : Returns value second) : first = second := by
  obtain ⟨enough, here⟩ := here
  obtain ⟨more, there⟩ := there
  exact Option.some.inj ((here (max enough more) (Nat.le_max_left _ _)).symm.trans (there _ (Nat.le_max_right _ _)))

theorem returns_nil : Returns value [] ↔ Meets textual boundaryDefinitions boundariesSchema value := by
  obtain ⟨problems, returned, sound⟩ := returns_sound value
  rw [← sound]
  constructor
  · intro none_found
    exact returns_unique returned none_found
  · rintro rfl
    exact returned

/-- The validator agrees with JSON Schema on a value exactly if another keyword is broken, if a unique
array repeats a text, or if equal items of a unique array are one text and every boolean is one. -/
theorem validator_agrees_iff (value : Json Lib.Double) : Agrees value ↔
    ¬ Meets otherRules boundaryDefinitions boundariesSchema value ∨ ¬ Meets textRules boundaryDefinitions boundariesSchema value ∨
      Meets valueRules boundaryDefinitions boundariesSchema value := by
  obtain ⟨problems, returned, _⟩ := returns_sound value
  have ends : ∃ problems, Returns value problems := ⟨problems, returned⟩
  have stronger := @text_of_value boundaryDefinitions boundariesSchema value
  unfold Agrees
  rw [returns_nil, textual_iff, accepts_iff]
  tauto

def record (fields : List (String × Json Lib.Double)) : Json Lib.Double := .object (fields.map fun field => (units field.1, field.2))

def said (text : String) : Json Lib.Double := .string (units text)

def bytesOf (path : String) : Json Lib.Double := record [("path", said path), ("projection", said "bytes")]

/-- A policy of one class. -/
def policy (composite : Json Lib.Double) : Json Lib.Double := record
  [("schemaVersion", .number schemaVersion), ("compatibilityConsumers", .array [said "scripts/lint.mjs"]),
    ("platforms", .array [said "ubuntu-24.04", said "ubuntu-24.04-arm"]),
    ("maintenanceClasses", .array [record [("id", said "lint-engine"), ("composite", composite), ("allows", .array [said "pin"]),
      ("allowedProjections", .array [bytesOf "pnpm-lock.yaml"])]]),
    ("subjectIsolation", record [("deniedToSubject", .array [said "GITHUB_TOKEN"]), ("processBoundary", said "container"),
      ("containerControls", .array [said "non-root"]), ("image", record [("reference", said "node"),
        ("digest", said "sha256:0000000000000000000000000000000000000000000000000000000000000000")])]),
    ("protectedProjections", .array [bytesOf "scripts"]), ("maintenanceVerifierAuthorities", .array [said "scripts"]),
    ("subjectCommandPacks", .array [record [("classId", said "lint-engine"), ("commands", .array [record [("id", said "run"),
      ("binary", record [("package", said "oxlint"), ("bin", said "oxlint")]), ("argv", .array []), ("cwd", said "."),
      ("inputs", .array [record [("path", said "a"), ("source", said "candidate")]]), ("expect", record [("outcome", said "success")])]])]])]

/-- Nothing is reported for a policy that calls a class composite in a text, and the schema does not accept it. -/
theorem composite_text_agrees_not : ¬ Agrees (policy (said "yes")) := by
  rintro ⟨_, agrees⟩
  have validated : validateAgainstSchema boundaryDefinitions 16 (policy (said "yes")) boundariesSchema [] = some [] := by
    unfold policy bytesOf record said
    simp only [List.map_cons, List.map_nil, units_literal]
    decide +kernel
  have returned : Returns (policy (said "yes")) [] := ⟨16, fun fuel enough => validate_enough enough validated⟩
  have accepted := agrees.mp returned
  have classes := accepted.field (show (Key.named "maintenanceClasses" rfl, uniqueArray 1 (reference "maintenanceClass")) ∈ _
    by simp) rfl
  have held : Meets .standard boundaryDefinitions maintenanceClass _ := (classes.item List.mem_cons_self).reached rfl
  have composite := held.field (show (Key.named "composite" rfl, Schema.node { type := some .boolean } none []) ∈ _
    by simp) rfl
  cases composite with
  | node _ _ boolean _ _ =>
    obtain ⟨_, impossible⟩ := boolean rfl
    cases impossible

end Agreement

end SecureHome.Proofs.PolicySchema
