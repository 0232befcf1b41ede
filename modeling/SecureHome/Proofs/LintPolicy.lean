import SecureHome.Lint.Policy
import SecureHome.Lib.Fallible
import Mathlib.Data.List.Induction

/-! What the policy says of a role is what the engine is given and what it is held to. -/

namespace SecureHome.Proofs.LintPolicy
open Lib Lint Governance

section Agreement

/-- A policy row that lists the role and whose replacement mapping is a rule. -/
structure Realised (policy : Policy) (mappings : Mappings) (role : JsString) (row : Row) (mapped : Mapping) (ruleId : JsString) : Prop where
  listed : row ∈ policy.policies
  applies : role ∈ row.roles
  translated : mapped ∈ mappings.mappings
  engine : mapped.engine = units "replacement"
  names : mapped.policy = row.id
  mechanism : mapped.mechanism = units "rule"
  rule : mapped.ruleId = some ruleId

def ownOptions (_ : Mapping) (row : Row) : Option Value := row.options.lookup (units "values")

/-- The rules of a configuration are those of the rows, each with its severity and the options that count. -/
def Generated (options : Mapping → Row → Option Value) (policy : Policy) (mappings : Mappings) (role : JsString) (config : Config) : Prop :=
  ∀ ruleId entry, (ruleId, entry) ∈ config.rules ↔
    ∃ row mapped, Realised policy mappings role row mapped ruleId ∧ entryOf (severityFor row) (options mapped row) = some entry

/-- An entry with no later one of its bare name. -/
def Last (rules : Record) (rule : JsString × Value) : Prop :=
  ∃ before after, rules = before ++ rule :: after ∧ ∀ other ∈ after, bareRuleName other.1 ≠ bareRuleName rule.1

/-- What the engine applies are the rows of the role, and the entries that count for a blocking row fail the build. -/
structure Enforced (counts : Record → JsString × Value → Prop) (policy : Policy) (mappings : Mappings) (role : JsString) (live : Live) :
    Prop where
  claimed : ∀ rule ∈ live.rules, ∃! row, ∃ mapped ruleId, Realised policy mappings role row mapped ruleId ∧
    bareRuleName ruleId = bareRuleName rule.1
  applied : ∀ row mapped ruleId, Realised policy mappings role row mapped ruleId →
    ∃ rule ∈ live.rules, bareRuleName rule.1 = bareRuleName ruleId
  denied : ∀ rule, counts live.rules rule → ∀ row mapped ruleId, Realised policy mappings role row mapped ruleId →
    bareRuleName ruleId = bareRuleName rule.1 → row.blocking = true → isDeny (severityOf rule.2) = true

/-- No rule is one the configuration cannot carry, and rows on one rule agree on its entry. -/
structure Apart (policy : Policy) (mappings : Mappings) (role : JsString) : Prop where
  own : ∀ row mapped ruleId, Realised policy mappings role row mapped ruleId → ruleId ≠ units "__proto__"
  agree : ∀ row mapped other mapped' ruleId, Realised policy mappings role row mapped ruleId →
    Realised policy mappings role other mapped' ruleId →
    entryOf (severityFor row) (optionsFor mapped row) = entryOf (severityFor other) (optionsFor mapped' other)

end Agreement

section Integrity

variable {policy : Policy} {mappings : Mappings}

@[simp] theorem refuse_eq_nil {found : Bool} {problem : JsString} : Lint.refuse found problem = [] ↔ found = false := by
  cases found <;> simp [Lint.refuse]

theorem policyProblems_nil {ids : List JsString} {rows : List Row} (quiet : policyProblems ids rows = []) :
    (rows.map (·.id)).Nodup ∧ ∀ row ∈ rows, row.id ∉ ids := by
  induction rows generalizing ids with
  | nil => simp
  | cons row rest ih =>
    obtain ⟨here, later⟩ := List.append_eq_nil_iff.mp quiet
    obtain ⟨distinct, apart⟩ := ih later
    have fresh : row.id ∉ ids := by
      simp only [rowProblems, List.append_eq_nil_iff, refuse_eq_nil, decide_eq_false_iff_not] at here
      exact here.1.1.1.1
    constructor
    · rw [List.map_cons, List.nodup_cons]
      refine ⟨?_, distinct⟩
      intro again
      obtain ⟨other, listed, same⟩ := List.mem_map.mp again
      exact apart other listed (by simp [same])
    · intro other listed
      rcases List.mem_cons.mp listed with rfl | listed
      · exact fresh
      · exact fun known => apart other listed (List.mem_cons_of_mem _ known)

theorem mappingProblems_nil {ids seen : List JsString} {rows : List Mapping} (quiet : mappingProblems ids seen rows = []) :
    (rows.map fun row => mappingKey row.policy row.engine).Nodup ∧ ∀ row ∈ rows, mappingKey row.policy row.engine ∉ seen := by
  induction rows generalizing seen with
  | nil => simp
  | cons row rest ih =>
    simp only [mappingProblems, List.append_eq_nil_iff, refuse_eq_nil, decide_eq_false_iff_not] at quiet
    obtain ⟨⟨fresh, _⟩, later⟩ := quiet
    obtain ⟨distinct, apart⟩ := ih later
    constructor
    · rw [List.map_cons, List.nodup_cons]
      refine ⟨?_, distinct⟩
      intro again
      obtain ⟨other, listed, same⟩ := List.mem_map.mp again
      exact apart other listed (by simp [same])
    · intro other listed
      rcases List.mem_cons.mp listed with rfl | listed
      · exact fresh
      · exact fun known => apart other listed (List.mem_cons_of_mem _ known)

variable (integral : checkReferentialIntegrity policy mappings = [])
include integral

/-- A policy has one mapping for an engine. -/
theorem one_mapping {one other : Mapping} (listed : one ∈ mappings.mappings) (listed' : other ∈ mappings.mappings)
    (named : one.policy = other.policy) (engine : one.engine = other.engine) : one = other := by
  have quiet := (List.append_eq_nil_iff.mp (List.append_eq_nil_iff.mp integral).1).2
  apply List.inj_on_of_nodup_map (mappingProblems_nil quiet).1 listed listed'
  rw [named, engine]

theorem one_row {one other : Row} (listed : one ∈ policy.policies) (listed' : other ∈ policy.policies) (same : one.id = other.id) :
    one = other := by
  have quiet := (List.append_eq_nil_iff.mp (List.append_eq_nil_iff.mp integral).1).1
  exact List.inj_on_of_nodup_map (policyProblems_nil quiet).1 listed listed' same

theorem lookup_replacement {id : JsString} {mapped : Mapping} : (replacementOf mappings).lookup id = some mapped ↔
    mapped ∈ mappings.mappings ∧ mapped.engine = units "replacement" ∧ mapped.policy = id := by
  unfold replacementOf
  rw [lookup_puts_iff]
  · simp [and_assoc]
  · intro one listed other listed' named
    simp only [List.mem_filter, decide_eq_true_eq] at listed listed'
    exact one_mapping integral listed.1 listed'.1 named (listed.2.trans listed'.2.symm)

theorem lookup_ruleFor {id : JsString} {ruleId : Option JsString} : (ruleFor mappings).lookup id = some ruleId ↔
    ∃ mapped ∈ mappings.mappings, mapped.engine = units "replacement" ∧ mapped.mechanism = units "rule" ∧ mapped.policy = id ∧
      mapped.ruleId = ruleId := by
  unfold ruleFor
  rw [lookup_puts_iff]
  · simp [and_assoc]
  · intro one listed other listed' named
    simp only [List.mem_filter, decide_eq_true_eq] at listed listed'
    rw [one_mapping integral listed.1 listed'.1 named (listed.2.1.trans listed'.2.1.symm)]

end Integrity

section Generation

variable {policy : Policy} {mappings : Mappings} {role : JsString} {replacement : List (JsString × Mapping)} {row : Row}

theorem ruleOf_some {ruleId : JsString} {entry : Value} : ruleOf replacement role row = .ok (some (ruleId, entry)) ↔
    role ∈ row.roles ∧ ∃ mapped, replacement.lookup row.id = some mapped ∧ mapped.mechanism = units "rule" ∧ mapped.ruleId = some ruleId ∧
      entryOf (severityFor row) (optionsFor mapped row) = some entry := by
  unfold ruleOf
  by_cases applies : role ∈ row.roles
  · rw [if_neg (not_not.mpr applies)]
    cases found : replacement.lookup row.id with
    | none => simp
    | some mapped =>
      dsimp only
      by_cases rule : mapped.mechanism = units "rule"
      · rw [if_neg (not_not.mpr rule)]
        cases named : mapped.ruleId with
        | none => simp [named]
        | some ruleId =>
          cases made : entryOf (severityFor row) (optionsFor mapped row) <;> simp [applies, rule, named, made]
      · simp [rule]
  · simp [applies]

/-- The rule a row adds. -/
def added (replacement : List (JsString × Mapping)) (role : JsString) (row : Row) : Option (JsString × Value) :=
  (ruleOf replacement role row).toOption.join

theorem added_some {rule : JsString × Value} : added replacement role row = some rule ↔ ruleOf replacement role row = .ok (some rule) := by
  unfold added
  cases ruleOf replacement role row with
  | error problem => simp [Except.toOption]
  | ok found => simp [Except.toOption]

/-- The rows are added one after another, and none of them fails. -/
theorem generated_rows {rows : List Row} {made after : Generating} (done : rows.foldlM (addRule replacement role) made = .ok after) :
    (∀ row ∈ rows, ∃ found, ruleOf replacement role row = .ok found) ∧
      after.rules = (rows.filterMap (added replacement role)).foldl (fun rules rule => setRule rules rule.1 rule.2) made.rules := by
  induction rows generalizing made with
  | nil =>
    cases done
    exact ⟨by simp, rfl⟩
  | cons row rest ih =>
    rw [List.foldlM_cons, then_ok] at done
    obtain ⟨next, step, done⟩ := done
    obtain ⟨found, ruled, rfl⟩ := map_ok.mp step
    obtain ⟨others, rules⟩ := ih done
    refine ⟨List.forall_mem_cons.mpr ⟨⟨found, ruled⟩, others⟩, ?_⟩
    cases found with
    | none =>
      have none_added : added replacement role row = none := by simp [added, ruled, Except.toOption]
      rw [rules, List.filterMap_cons_none none_added]
    | some rule => rw [rules, List.filterMap_cons_some (added_some.mpr ruled), List.foldl_cons]

variable (integral : checkReferentialIntegrity policy mappings = [])
include integral

/-- A row adds a rule exactly if one realises it. -/
theorem mem_added {ruleId : JsString} {entry : Value} :
    (ruleId, entry) ∈ policy.policies.filterMap (added (replacementOf mappings) role) ↔
      ∃ row mapped, Realised policy mappings role row mapped ruleId ∧ entryOf (severityFor row) (optionsFor mapped row) = some entry := by
  simp only [List.mem_filterMap, added_some, ruleOf_some, lookup_replacement integral]
  constructor
  · rintro ⟨row, listed, applies, mapped, ⟨translated, engine, names⟩, mechanism, rule, made⟩
    exact ⟨row, mapped, ⟨listed, applies, translated, engine, names, mechanism, rule⟩, made⟩
  · rintro ⟨row, mapped, ⟨listed, applies, translated, engine, names, mechanism, rule⟩, made⟩
    exact ⟨row, listed, applies, mapped, ⟨translated, engine, names⟩, mechanism, rule, made⟩

theorem generated_exactly {config : Config} (made : generateForRole policy mappings role = .ok config) (apart : Apart policy mappings role) :
    Generated optionsFor policy mappings role config := by
  obtain ⟨generating, done, rfl⟩ := map_ok.mp made
  obtain ⟨_, rules⟩ := generated_rows done
  intro ruleId entry
  dsimp only
  rw [← mem_added integral, (List.mergeSort_perm _ _).mem_iff, rules]
  -- Without the prototype every assignment is one of the object's own.
  have plain (rules : Record) (items : List (JsString × Value)) (own : ∀ rule ∈ items, rule.1 ≠ units "__proto__") :
      items.foldl (fun rules rule => setRule rules rule.1 rule.2) rules = items.foldl (fun rules rule => put rules rule.1 rule.2) rules :=
    List.foldl_ext _ _ _ fun rules rule listed => if_neg (own rule listed)
  rw [plain]
  · have distinct : (((policy.policies.filterMap (added (replacementOf mappings) role)).foldl
        (fun rules rule => put rules rule.1 rule.2) []).map Prod.fst).Nodup := puts_distinct List.nodup_nil
    constructor
    · intro listed
      obtain ⟨rule, member, rfl, rfl⟩ := lookup_of_puts (lookup_of_mem distinct listed)
      exact member
    · intro listed
      apply mem_of_lookup
      apply (lookup_puts_iff _).mpr
      · exact ⟨_, listed, rfl, rfl⟩
      · rintro ⟨one, value⟩ member ⟨other, value'⟩ member' rfl
        obtain ⟨row, mapped, realised, entry⟩ := (mem_added integral).mp member
        obtain ⟨row', mapped', realised', entry'⟩ := (mem_added integral).mp member'
        have same := apart.agree _ _ _ _ _ realised realised'
        rw [entry, entry'] at same
        exact Option.some.inj same
  · rintro ⟨ruleId, entry⟩ listed
    obtain ⟨row, mapped, realised, _⟩ := (mem_added integral).mp listed
    exact apart.own _ _ _ realised

end Generation

section Drift

variable {policy : Policy} {mappings : Mappings} {role : JsString} {row : Row}

/-- The rule a row is expected as. -/
def expectation (mappings : Mappings) (role : JsString) (row : Row) : Option (JsString × Expected) :=
  if role ∈ row.roles then ((ruleFor mappings).lookup row.id).join.map fun ruleId => (bareRuleName ruleId, ⟨row, ruleId⟩) else none

/-- Where no two rows are on one name, each is expected under its own. -/
theorem expectedRules_quiet {rows : List Row} {expected : List (JsString × Expected)} (distinct : (expected.map Prod.fst).Nodup)
    (quiet : (expectedRules mappings role expected rows).1 = []) :
    (expectedRules mappings role expected rows).2 = expected ++ rows.filterMap (expectation mappings role) ∧
      (((expectedRules mappings role expected rows).2).map Prod.fst).Nodup := by
  induction rows generalizing expected with
  | nil => simpa [expectedRules] using distinct
  | cons row rest ih =>
    rw [expectedRules] at quiet ⊢
    by_cases applies : role ∈ row.roles
    · rw [if_neg (not_not.mpr applies)] at quiet ⊢
      cases named : ((ruleFor mappings).lookup row.id).join with
      | none =>
        rw [named] at quiet
        rw [List.filterMap_cons_none (by simp [expectation, named])]
        exact ih distinct quiet
      | some ruleId =>
        rw [named] at quiet
        dsimp only at quiet ⊢
        cases clash : expected.lookup (bareRuleName ruleId) with
        | some other => simp [clash] at quiet
        | none =>
          have fresh : bareRuleName ruleId ∉ expected.map Prod.fst := by
            rw [mem_keys]
            simp [clash]
          have put_last : put expected (bareRuleName ruleId) ⟨row, ruleId⟩ = expected ++ [(bareRuleName ruleId, ⟨row, ruleId⟩)] :=
            put_fresh fresh
          rw [clash] at quiet
          dsimp only at quiet ⊢
          have later := ih (put_distinct distinct) quiet
          have here : expectation mappings role row = some (bareRuleName ruleId, ⟨row, ruleId⟩) := by simp [expectation, applies, named]
          rw [List.filterMap_cons_some here, List.append_cons, ← put_last]
          exact later
    · rw [if_pos applies] at quiet ⊢
      rw [List.filterMap_cons_none (by simp [expectation, applies])]
      exact ih distinct quiet

theorem lookup_appliedRules {live : Live} {rule : JsString × Value} (last : Last live.rules rule) :
    (appliedRules live).lookup (bareRuleName rule.1) = some rule.2 := by
  obtain ⟨before, after, rules, later⟩ := last
  have none_later : after.reverse.find? (fun other => bareRuleName other.1 == bareRuleName rule.1) = none := by
    apply List.find?_eq_none.mpr
    intro other listed
    simpa using later other (List.mem_reverse.mp listed)
  have found : (appliedRules live).lookup (bareRuleName rule.1) =
      ((live.rules.reverse.find? fun other => bareRuleName other.1 == bareRuleName rule.1).map Prod.snd).or ([].lookup (bareRuleName rule.1)) :=
    lookup_puts
  rw [found, rules, List.reverse_append, List.reverse_cons, List.append_assoc, List.find?_append, none_later]
  simp

theorem mem_appliedRules {live : Live} {bare : JsString} :
    bare ∈ (appliedRules live).map Prod.fst ↔ ∃ rule ∈ live.rules, bareRuleName rule.1 = bare := by
  unfold appliedRules
  induction live.rules using List.reverseRecOn with
  | nil => simp
  | append_singleton rules rule ih =>
    rw [List.foldl_append, List.foldl_cons, List.foldl_nil, mem_put_keys, ih]
    simp [or_and_right, exists_or, eq_comm, or_comm]

variable (integral : checkReferentialIntegrity policy mappings = [])
include integral

theorem mem_expectation {bare : JsString} {expected : Expected} :
    (bare, expected) ∈ policy.policies.filterMap (expectation mappings role) ↔
      bareRuleName expected.ruleId = bare ∧ ∃ mapped, Realised policy mappings role expected.row mapped expected.ruleId := by
  simp only [List.mem_filterMap, expectation, Option.ite_none_right_eq_some, Option.map_eq_some_iff, Option.join_eq_some_iff,
    lookup_ruleFor integral]
  constructor
  · rintro ⟨row, listed, applies, ruleId, ⟨mapped, translated, engine, mechanism, names, rule⟩, same⟩
    cases same
    exact ⟨rfl, mapped, listed, applies, translated, engine, names, mechanism, rule⟩
  · rintro ⟨rfl, mapped, listed, applies, translated, engine, names, mechanism, rule⟩
    exact ⟨_, listed, applies, _, ⟨mapped, translated, engine, mechanism, names, rule⟩, rfl⟩

/-- Where nothing is reported of a role, the engine applies what its rows say. -/
theorem enforced_role {live : Live} (quiet : roleProblems policy mappings role live = []) : Enforced Last policy mappings role live := by
  simp only [roleProblems, List.append_eq_nil_iff] at quiet
  obtain ⟨⟨⟨_, clashes⟩, unclaimed⟩, unenforced⟩ := quiet
  have none_yet : (([] : List (JsString × Expected)).map Prod.fst).Nodup := List.nodup_nil
  obtain ⟨expected, distinct⟩ := expectedRules_quiet none_yet clashes
  rw [List.nil_append] at expected
  rw [expected] at unclaimed unenforced distinct
  have within {row : Row} {mapped : Mapping} {ruleId : JsString} (realised : Realised policy mappings role row mapped ruleId) :
      (bareRuleName ruleId, (⟨row, ruleId⟩ : Expected)) ∈ policy.policies.filterMap (expectation mappings role) :=
    (mem_expectation integral).mpr ⟨rfl, mapped, realised⟩
  constructor
  · intro rule listed
    have named := List.flatMap_eq_nil_iff.mp unclaimed (bareRuleName rule.1) (mem_appliedRules.mpr ⟨rule, listed, rfl⟩)
    rw [refuse_eq_nil, decide_eq_false_iff_not, not_not] at named
    obtain ⟨⟨bare, row, ruleId⟩, member, same⟩ := List.mem_map.mp named
    obtain ⟨bared, mapped, realised⟩ := (mem_expectation integral).mp member
    refine ⟨row, ⟨mapped, ruleId, realised, bared.trans same⟩, ?_⟩
    rintro other ⟨mapped', ruleId', realised', bared'⟩
    have one := List.inj_on_of_nodup_map distinct (within realised) (within realised') (bared.trans (same.trans bared'.symm))
    exact (congrArg (fun rule => rule.2.row) one).symm
  · intro row mapped ruleId realised
    have enforced := List.flatMap_eq_nil_iff.mp unenforced _ (within realised)
    unfold enforcementProblems at enforced
    split at enforced
    · cases enforced
    next entry found => exact mem_appliedRules.mp (mem_keys.mpr ⟨entry, found⟩)
  · intro rule last row mapped ruleId realised same blocking
    have enforced := List.flatMap_eq_nil_iff.mp unenforced _ (within realised)
    rw [enforcementProblems, same, lookup_appliedRules last] at enforced
    simpa [blocking] using enforced

end Drift

section Agreement

/-- What a role's rows say is what its configuration has and what the engine applies. The overrides of a mapping win over the options
of its row. -/
theorem lint_policy_reaches_engine (policy : Policy) (mappings : Mappings) (role : JsString) (config : Config)
    (integral : checkReferentialIntegrity policy mappings = []) (made : generateForRole policy mappings role = .ok config) :
    (Apart policy mappings role → Generated optionsFor policy mappings role config) ∧
      ∀ resolved, checkPolicyDrift policy mappings resolved = [] → ∀ live, (role, live) ∈ resolved →
        Enforced Last policy mappings role live := by
  refine ⟨generated_exactly integral made, ?_⟩
  intro resolved quiet live listed
  have roles := (List.append_eq_nil_iff.mp quiet).1
  apply enforced_role integral
  exact List.flatMap_eq_nil_iff.mp roles (role, live) listed

def library : JsString := units "library"

def rowOf (id : String) (options : Record) : Row :=
  ⟨units id, [library], true, options, ⟨units "core-policy", units "core-policy/valid", units "core-policy/invalid"⟩⟩

def mappingOf (id ruleId : String) (options : Record) : Mapping :=
  ⟨units id, units "replacement", units "rule", some (units ruleId), options⟩

def oneRow (options : Record) : Policy := ⟨[rowOf "no-console" options]⟩

def oneMapping (ruleId : String) (options : Record) : Mappings := ⟨[units "replacement"], [mappingOf "no-console" ruleId options]⟩

def someOptions : Record := [(units "values", .array [])]

def oneRule (ruleId : String) (entry : Value) : Config :=
  ⟨units "./node_modules/oxlint/configuration_schema.json", [], OXLINT_CATEGORIES.map (·, units "off"), [(units ruleId, entry)]⟩

def errorEntry : Value := .string (units "error")

theorem oneRow_realised {ruleId : String} {options engineOptions : Record} :
    Realised (oneRow options) (oneMapping ruleId engineOptions) library (rowOf "no-console" options)
      (mappingOf "no-console" ruleId engineOptions) (units ruleId) := by
  constructor
  · exact List.mem_singleton_self _
  · exact List.mem_singleton_self _
  · exact List.mem_singleton_self _
  all_goals rfl

theorem oneRow_integral {options engineOptions : Record} {ruleId : String} :
    checkReferentialIntegrity (oneRow options) (oneMapping ruleId engineOptions) = [] := by rfl

theorem oneRow_generates : generateForRole (oneRow []) (oneMapping "no-console" []) library = .ok (oneRule "no-console" errorEntry) := by
  have rows : (oneRow []).policies.foldlM (addRule (replacementOf (oneMapping "no-console" [])) library) ⟨[], []⟩ =
      .ok ⟨[(units "no-console", errorEntry)], []⟩ := rfl
  rw [generateForRole, rows]
  simp [Except.map, oneRule]

theorem oneRow_apart : Apart (oneRow []) (oneMapping "no-console" []) library := by
  have only {row : Row} {mapped : Mapping} {ruleId : JsString}
      (realised : Realised (oneRow []) (oneMapping "no-console" []) library row mapped ruleId) :
      row = rowOf "no-console" [] ∧ mapped = mappingOf "no-console" "no-console" [] :=
    ⟨List.mem_singleton.mp realised.listed, List.mem_singleton.mp realised.translated⟩
  constructor
  · intro row mapped ruleId realised
    have rule := realised.rule
    rw [(only realised).2] at rule
    cases rule
    decide
  · intro row mapped other mapped' ruleId realised realised'
    rw [(only realised).1, (only realised).2, (only realised').1, (only realised').2]

def strong : Live := ⟨[], [(units "no-console", .string (units "deny"))]⟩

theorem lint_policy_reaches_engine_one :
    Generated optionsFor (oneRow []) (oneMapping "no-console" []) library (oneRule "no-console" errorEntry) ∧
      Enforced Last (oneRow []) (oneMapping "no-console" []) library strong := by
  obtain ⟨generated, enforced⟩ := lint_policy_reaches_engine _ _ _ _ (@oneRow_integral [] [] "no-console") oneRow_generates
  exact ⟨generated oneRow_apart, enforced [(library, strong)] rfl strong (List.mem_singleton_self _)⟩

/-- Every row reaches the engine with its own options, and no entry of a blocking row is weak. -/
def Unchanged (policy : Policy) (mappings : Mappings) (role : JsString) : Prop :=
  checkReferentialIntegrity policy mappings = [] → ∀ config, generateForRole policy mappings role = .ok config →
    Generated ownOptions policy mappings role config ∧ ∀ resolved, checkPolicyDrift policy mappings resolved = [] →
      ∀ live, (role, live) ∈ resolved → Enforced (fun rules rule => rule ∈ rules) policy mappings role live

theorem generates {policy : Policy} {mappings : Mappings} {role : JsString} {made : Generating}
    (rows : policy.policies.foldlM (addRule (replacementOf mappings) role) ⟨[], []⟩ = .ok made) :
    ∃ config, generateForRole policy mappings role = .ok config ∧ ∀ rule, rule ∈ config.rules ↔ rule ∈ made.rules := by
  refine ⟨_, map_ok.mpr ⟨made, rows, rfl⟩, ?_⟩
  intro rule
  exact (List.mergeSort_perm _ _).mem_iff

/-- A row whose own entry the configuration lacks does not reach the engine unchanged. -/
theorem not_unchanged {policy : Policy} {mappings : Mappings} {role ruleId : JsString} {made : Generating} {row : Row} {mapped : Mapping}
    {entry : Value} (integral : checkReferentialIntegrity policy mappings = [])
    (rows : policy.policies.foldlM (addRule (replacementOf mappings) role) ⟨[], []⟩ = .ok made)
    (realised : Realised policy mappings role row mapped ruleId) (own : entryOf (severityFor row) (ownOptions mapped row) = some entry)
    (lacks : (ruleId, entry) ∉ made.rules) : ¬ Unchanged policy mappings role := by
  intro unchanged
  obtain ⟨config, done, same⟩ := generates rows
  have generated := (unchanged integral config done).1 ruleId entry
  exact lacks ((same _).mp (generated.mpr ⟨row, mapped, realised, own⟩))

/-- Two rows on one rule, the second with options. -/
def twoRows : Policy := ⟨[rowOf "no-console" [], rowOf "no-alert" someOptions]⟩

def twoMappings : Mappings := ⟨[units "replacement"], [mappingOf "no-console" "no-console" [], mappingOf "no-alert" "no-console" []]⟩

theorem twoRows_realised : Realised twoRows twoMappings library (rowOf "no-console" []) (mappingOf "no-console" "no-console" [])
    (units "no-console") := by
  constructor
  · exact List.mem_cons_self
  · exact List.mem_singleton_self _
  · exact List.mem_cons_self
  all_goals rfl

/-- The weak entry is read over by the strong one of the same bare name. -/
def weakened : Live := ⟨[], [(units "vue/no-console", .string (units "allow")), (units "no-console", .string (units "deny"))]⟩

/-- Overrides replace the options of a row, a later row replaces an earlier one, a rule can be no property, and a weak entry can hide
behind a strong one. -/
theorem lint_policy_changes :
    ¬ Unchanged (oneRow []) (oneMapping "no-console" someOptions) library ∧
    ¬ Unchanged twoRows twoMappings library ∧
    ¬ Unchanged (oneRow []) (oneMapping "__proto__" []) library ∧
    ¬ Unchanged (oneRow []) (oneMapping "no-console" []) library := by
  have plain (entry : Value) : (units "no-console", errorEntry) ∉ [(units "no-console", Json.array [entry])] := by
    simp [errorEntry]
  refine ⟨?_, ?_, ?_, ?_⟩
  · exact not_unchanged oneRow_integral rfl oneRow_realised rfl (plain errorEntry)
  · exact not_unchanged rfl rfl twoRows_realised rfl (plain errorEntry)
  · exact not_unchanged oneRow_integral rfl oneRow_realised rfl List.not_mem_nil
  · intro unchanged
    have enforced := (unchanged oneRow_integral _ oneRow_generates).2 [(library, weakened)] rfl weakened (List.mem_singleton_self _)
    have denied := enforced.denied _ List.mem_cons_self _ _ _ oneRow_realised rfl rfl
    exact absurd denied (by decide +kernel)

end Agreement

end SecureHome.Proofs.LintPolicy
