import SecureHome.Lib.Association
import SecureHome.Governance.Canonical

/-! The lint policy and what is generated of it. A policy row says what is enforced for which
roles, a mapping says how an engine realises it, and the engine says what it applies. -/

namespace SecureHome.Lint
open Lib Governance

section Documents

structure Proof where
  shard : JsString
  valid : JsString
  invalid : JsString
  deriving DecidableEq, Repr

structure Row where
  id : JsString
  roles : List JsString
  blocking : Bool
  options : Record
  proof : Proof

structure Mapping where
  policy : JsString
  engine : JsString
  mechanism : JsString
  ruleId : Option JsString
  engineOptions : Record

structure Policy where
  policies : List Row

structure Mappings where
  engines : List JsString
  mappings : List Mapping

end Documents

section Generation

/-- The engine plugin a mapped rule belongs to, from its own namespace. -/
def pluginFor (ruleId : JsString) : JsString := if 0x2f ∈ ruleId then ruleId.takeWhile (· ≠ 0x2f) else units "eslint"

def codePoints : JsString → List JsString
  | [] => []
  | [unit] => [[unit]]
  | unit :: next :: rest => if isHigh unit && isLow next then [unit, next] :: codePoints rest else [unit] :: codePoints (next :: rest)

/-- What `...value` adds to a list, if it can be iterated. -/
def spread : Value → Option (List Value)
  | .array items => some items
  | .string text => some ((codePoints text).map .string)
  | .null | .boolean _ | .number _ | .object _ => none

/-- Overrides of the engine win where a mapping declares them. -/
def optionsFor (mapped : Mapping) (row : Row) : Option Value :=
  match mapped.engineOptions.lookup (units "values") with
  | none | some .null => row.options.lookup (units "values")
  | some values => some values

def severityFor (row : Row) : Value := .string (units (if row.blocking then "error" else "warn"))

/-- A severity, with the options behind it if there are any. -/
def entryOf (severity : Value) : Option Value → Option Value
  | none => some severity
  | some values => (spread values).map fun options => .array (severity :: options)

def replacementOf (mappings : Mappings) : List (JsString × Mapping) :=
  (mappings.mappings.filter (·.engine = units "replacement")).foldl (fun held mapped => put held mapped.policy mapped) []

/-- The rule a row of the role is realised by, with its entry. -/
def ruleOf (replacement : List (JsString × Mapping)) (role : JsString) (row : Row) :
    Except JsString (Option (JsString × Value)) :=
  if role ∉ row.roles then .ok none
  else
    match replacement.lookup row.id with
    | none => .error (units "policy \"" ++ row.id ++ units "\" has no replacement mapping; cannot generate a config")
    | some mapped =>
      if mapped.mechanism ≠ units "rule" then .ok none
      else
        match mapped.ruleId with
        | none => .error (units "Cannot read properties of undefined (reading 'includes')")
        | some ruleId =>
          match entryOf (severityFor row) (optionsFor mapped row) with
          | none => .error (units "options is not iterable")
          | some entry => .ok (some (ruleId, entry))

/-- An assignment to a property. That of `__proto__` is not one of the object's own. -/
def setRule (rules : Record) (ruleId : JsString) (entry : Value) : Record :=
  if ruleId = units "__proto__" then rules else put rules ruleId entry

structure Generating where
  rules : Record
  plugins : List JsString

def addRule (replacement : List (JsString × Mapping)) (role : JsString) (made : Generating) (row : Row) :
    Except JsString Generating :=
  (ruleOf replacement role row).map fun
    | none => made
    | some (ruleId, entry) =>
      { rules := setRule made.rules ruleId entry
        plugins := if pluginFor ruleId = units "eslint" ∨ pluginFor ruleId ∈ made.plugins then made.plugins
          else made.plugins ++ [pluginFor ruleId] }

/-- Every category the engine defines. -/
def OXLINT_CATEGORIES : List JsString :=
  ["correctness", "nursery", "pedantic", "perf", "restriction", "style", "suspicious"].map units

structure Config where
  «$schema» : JsString
  plugins : List JsString
  categories : List (JsString × JsString)
  rules : Record

def generateForRole (policy : Policy) (mappings : Mappings) (role : JsString) : Except JsString Config :=
  (policy.policies.foldlM (addRule (replacementOf mappings) role) ⟨[], []⟩).map fun made =>
    { «$schema» := units "./node_modules/oxlint/configuration_schema.json"
      plugins := made.plugins.mergeSort fun one other => decide (one ≤ other)
      categories := OXLINT_CATEGORIES.map (·, units "off")
      rules := made.rules.mergeSort fun one other => decide (one.1 ≤ other.1) }

end Generation

section Integrity

def refuse (found : Bool) (problem : JsString) : List JsString := if found then [problem] else []

def quoted (text : JsString) : JsString := units "\"" ++ text ++ units "\""

def rowProblems (ids : List JsString) (row : Row) : List JsString :=
  let inShard (file : JsString) : Bool := (row.proof.shard ++ units "/").isPrefixOf file
  refuse (row.id ∈ ids) (units "policy " ++ quoted row.id ++ units " is declared more than once") ++
  refuse (row.id.head? = some 0x40 || (0x2f : UInt16) ∈ row.id) (units "policy " ++ quoted row.id ++ units " carries a vendor-shaped identity") ++
  refuse (!decide row.roles.Nodup) (units "policy " ++ quoted row.id ++ units " repeats a role, so its applicability is ambiguous") ++
  refuse (!inShard row.proof.valid || !inShard row.proof.invalid)
    (units "policy " ++ quoted row.id ++ units " points at proof outside its own shard " ++ quoted row.proof.shard) ++
  refuse (row.proof.valid = row.proof.invalid)
    (units "policy " ++ quoted row.id ++ units " uses one file as both its positive and negative case")

def policyProblems : List JsString → List Row → List JsString
  | _, [] => []
  | ids, row :: rest => rowProblems ids row ++ policyProblems (row.id :: ids) rest

def mappingKey (policy engine : JsString) : JsString := policy ++ units "::" ++ engine

def mappingProblems (ids : List JsString) : List JsString → List Mapping → List JsString
  | _, [] => []
  | seen, row :: rest =>
    refuse (mappingKey row.policy row.engine ∈ seen)
      (units "policy " ++ quoted row.policy ++ units " has more than one " ++ row.engine ++ units " mapping") ++
    refuse (row.policy ∉ ids)
      (units "mapping for " ++ quoted row.policy ++ units " (" ++ row.engine ++ units ") references no known policy") ++
    mappingProblems ids (mappingKey row.policy row.engine :: seen) rest

/-- The properties neither schema can express, because each validates one file. -/
def checkReferentialIntegrity (policy : Policy) (mappings : Mappings) : List JsString :=
  let ids := policy.policies.map (·.id)
  let seen := mappings.mappings.map fun row => mappingKey row.policy row.engine
  policyProblems [] policy.policies ++ mappingProblems ids [] mappings.mappings ++
    ids.eraseDups.flatMap fun id => mappings.engines.flatMap fun engine =>
      refuse (mappingKey id engine ∉ seen)
        (units "policy " ++ quoted id ++ units " has no " ++ engine ++ units " mapping, so one engine would not enforce it")

end Integrity

section Drift

/-- The bare rule name, with any plugin namespace removed. -/
def bareRuleName (ruleId : JsString) : JsString := (ruleId.reverse.takeWhile (· ≠ 0x2f)).reverse

/-- What the engine reports that it applies for a role. -/
structure Live where
  categories : List (JsString × JsString)
  rules : Record

structure Expected where
  row : Row
  ruleId : JsString

def ruleFor (mappings : Mappings) : List (JsString × Option JsString) :=
  (mappings.mappings.filter fun mapped => mapped.engine = units "replacement" ∧ mapped.mechanism = units "rule").foldl
    (fun held mapped => put held mapped.policy mapped.ruleId) []

def categoryProblems (role : JsString) (live : Live) : List JsString :=
  live.categories.flatMap fun (category, state) => refuse (state ≠ units "off" && state ≠ units "allow")
    (units "role " ++ quoted role ++ units " leaves the " ++ quoted category ++ units " category on (" ++ state ++
      units "), so the engine enforces rules no policy decided")

/-- The rules the rows of a role resolve to, by their bare names. Two rows on one name are refused. -/
def expectedRules (mappings : Mappings) (role : JsString) :
    List (JsString × Expected) → List Row → List JsString × List (JsString × Expected)
  | expected, [] => ([], expected)
  | expected, row :: rest =>
    if role ∉ row.roles then expectedRules mappings role expected rest
    else
      match ((ruleFor mappings).lookup row.id).join with
      | none => expectedRules mappings role expected rest
      | some ruleId =>
        match expected.lookup (bareRuleName ruleId) with
        | some clash =>
          let later := expectedRules mappings role expected rest
          ((units "policies " ++ quoted clash.row.id ++ units " and " ++ quoted row.id ++ units " both resolve to the rule name " ++
            quoted (bareRuleName ruleId) ++ units " in role " ++ quoted role ++
            units ", so one disappearing would be invisible here") :: later.1, later.2)
        | none => expectedRules mappings role (put expected (bareRuleName ruleId) ⟨row, ruleId⟩) rest

def appliedRules (live : Live) : Record :=
  live.rules.foldl (fun applied rule => put applied (bareRuleName rule.1) rule.2) []

mutual

/-- The text of a value in a message. -/
def shown : Value → JsString
  | .null => units "null"
  | .boolean value => units (if value then "true" else "false")
  | .number value => value.text
  | .string value => value
  | .array items => (units ",").intercalate (showns items)
  | .object _ => units "[object Object]"

def showns : List Value → List JsString
  | [] => []
  | item :: rest => (match item with | .null => [] | other => shown other) :: showns rest

end

def severityOf : Value → Option Value
  | .array items => items.head?
  | entry => some entry

/-- The severities that fail a build, as the engine names them. -/
def isDeny : Option Value → Bool
  | some (.string severity) => severity = units "deny" || severity = units "error"
  | _ => false

def enforcementProblems (role : JsString) (applied : Record) (rule : JsString × Expected) : List JsString :=
  match applied.lookup rule.1 with
  | none => [units "policy " ++ quoted rule.2.row.id ++ units " claims role " ++ quoted role ++
      units " but the engine no longer enforces " ++ quoted rule.2.ruleId ++ units " there"]
  | some entry => refuse (rule.2.row.blocking && !isDeny (severityOf entry))
      (units "policy " ++ quoted rule.2.row.id ++ units " is blocking, but the engine applies " ++ quoted rule.2.ruleId ++
        units " in role " ++ quoted role ++ units " at " ++ quoted (((severityOf entry).map shown).getD (units "undefined")))

def roleProblems (policy : Policy) (mappings : Mappings) (role : JsString) (live : Live) : List JsString :=
  let (clashes, expected) := expectedRules mappings role [] policy.policies
  let applied := appliedRules live
  categoryProblems role live ++ clashes ++
    ((applied.map Prod.fst).flatMap fun bare => refuse (bare ∉ expected.map Prod.fst)
      (units "the engine enforces " ++ quoted bare ++ units " in role " ++ quoted role ++ units " but no policy row claims it there")) ++
    expected.flatMap (enforcementProblems role applied)

/-- The manifest must still describe what the engine does. -/
def checkPolicyDrift (policy : Policy) (mappings : Mappings) (resolved : List (JsString × Live)) : List JsString :=
  (resolved.flatMap fun (role, live) => roleProblems policy mappings role live) ++
    policy.policies.flatMap fun row => refuse (!row.blocking)
      (units "policy " ++ quoted row.id ++ units " is not blocking, yet every current policy blocks")

end Drift

end SecureHome.Lint
