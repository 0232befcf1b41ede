import SecureHome.Lib.Fallible
import SecureHome.Adapters.Coding.Wire
import SecureHome.Proofs.JsonParse
import SecureHome.Proofs.SettledForm

/-! The checks of the wire accept exactly the shape they declare, and what the running phase sends
has that shape wherever its free texts are not empty. -/

namespace SecureHome.Proofs.WireBoundary
open Lib Governance Adapters.Coding

section Shapes

/-- A record's keys are exactly these. -/
def Closed (record : Adapters.Coding.Record) (keys : List String) : Prop := ∀ key, key ∈ record.map Prod.fst ↔ key ∈ keys

def IsText (value : Option Adapters.Coding.Value) : Prop := ∃ text, value = some (.text text)

def IsFilled (value : Option Adapters.Coding.Value) : Prop := ∃ text, value = some (.text text) ∧ text ≠ ""

/-- A finite number with a property. -/
def IsNumber (holds : Numeral → Bool) (value : Option Adapters.Coding.Value) : Prop :=
  ∃ numeral, value = some (.number numeral) ∧ numeral.isFinite = true ∧ holds numeral = true

/-- An object of exactly these keys, with a property. -/
def IsObject (keys : List String) (holds : Adapters.Coding.Record → Prop) (value : Option Adapters.Coding.Value) : Prop :=
  ∃ record, value = some (.object record) ∧ Closed record keys ∧ holds record

def IsArray (holds : Adapters.Coding.Value → Prop) (value : Option Adapters.Coding.Value) : Prop :=
  ∃ entries, value = some (.array entries) ∧ ∀ entry ∈ entries, holds entry

def IsCredential (entry : Adapters.Coding.Value) : Prop :=
  IsObject ["env_var"] (fun record => ∃ name, record.lookup "env_var" = some (.text name) ∧ isEnvVar name = true) (some entry)

def IsMount (entry : Adapters.Coding.Value) : Prop :=
  IsObject ["path", "posture"] (fun record => (∃ path, record.lookup "path" = some (.text path) ∧ path.toList.head? = some '/') ∧
    (record.lookup "posture" = some (.text "read_only") ∨ record.lookup "posture" = some (.text "read_write"))) (some entry)

def IsDestination (entry : Adapters.Coding.Value) : Prop :=
  IsObject ["host", "port"] (fun record => IsFilled (record.lookup "host") ∧
    IsNumber (fun port => port.atLeast 1 && port.atMost 65535) (record.lookup "port")) (some entry)

def IsNetwork : Option Adapters.Coding.Value → Prop :=
  IsObject ["default", "granted_destinations"] fun network =>
    network.lookup "default" = some (.text "deny") ∧ IsArray IsDestination (network.lookup "granted_destinations")

def IsGrant : Option Adapters.Coding.Value → Prop :=
  IsObject ["tools", "mounts", "network", "credentials"] fun grant =>
    IsArray (fun tool => IsFilled (some tool)) (grant.lookup "tools") ∧ IsArray IsMount (grant.lookup "mounts") ∧
      IsNetwork (grant.lookup "network") ∧ IsArray IsCredential (grant.lookup "credentials")

def IsProfile : Option Adapters.Coding.Value → Prop :=
  IsObject ["name", "version", "digest"] fun profile => ∀ key ∈ ["name", "version", "digest"], IsFilled (profile.lookup key)

def IsInput : Option Adapters.Coding.Value → Prop :=
  IsObject ["kind", "task", "parameters"] fun input => input.lookup "kind" = some (.text "task") ∧ IsFilled (input.lookup "task") ∧
    ∃ parameters, input.lookup "parameters" = some (.object parameters) ∧ ∀ entry ∈ parameters, IsText (some entry.2)

def IsRouting : Option Adapters.Coding.Value → Prop :=
  IsObject ["routing_class", "model_route", "fallback"] fun routing =>
    ∀ key ∈ ["routing_class", "model_route", "fallback"], IsText (routing.lookup key)

def IsLimits : Option Adapters.Coding.Value → Prop :=
  IsObject limitKeys fun limits => ∀ key ∈ limitKeys, IsNumber (fun limit => !limit.atMost 0) (limits.lookup key)

def IsWorkspace : Option Adapters.Coding.Value → Prop :=
  IsObject ["session_ref", "root_ref"] fun workspace => ∀ key ∈ ["session_ref", "root_ref"], IsFilled (workspace.lookup key)

def invocationKeys : List String :=
  ["run_id", "generation", "adapter", "profile", "input", "grant", "routing", "limits", "credentials", "workspace"]

/-- The fields of an invocation, each of its declared shape. -/
structure InvocationFields (invocation : Adapters.Coding.Record) : Prop where
  runId : IsFilled (invocation.lookup "run_id")
  generation : IsNumber (fun _ => true) (invocation.lookup "generation")
  adapter : IsFilled (invocation.lookup "adapter")
  profile : IsProfile (invocation.lookup "profile")
  input : IsInput (invocation.lookup "input")
  grant : IsGrant (invocation.lookup "grant")
  routing : IsRouting (invocation.lookup "routing")
  limits : IsLimits (invocation.lookup "limits")
  credentials : IsArray IsCredential (invocation.lookup "credentials")
  workspace : IsWorkspace (invocation.lookup "workspace")

theorem invocationFields_iff {invocation : Adapters.Coding.Record} : InvocationFields invocation ↔
    IsFilled (invocation.lookup "run_id") ∧ IsNumber (fun _ => true) (invocation.lookup "generation") ∧
      IsFilled (invocation.lookup "adapter") ∧ IsProfile (invocation.lookup "profile") ∧ IsInput (invocation.lookup "input") ∧
      IsGrant (invocation.lookup "grant") ∧ IsRouting (invocation.lookup "routing") ∧ IsLimits (invocation.lookup "limits") ∧
      IsArray IsCredential (invocation.lookup "credentials") ∧ IsWorkspace (invocation.lookup "workspace") := by
  constructor
  · rintro ⟨runId, generation, adapter, profile, input, grant, routing, limits, credentials, workspace⟩
    exact ⟨runId, generation, adapter, profile, input, grant, routing, limits, credentials, workspace⟩
  · rintro ⟨runId, generation, adapter, profile, input, grant, routing, limits, credentials, workspace⟩
    exact ⟨runId, generation, adapter, profile, input, grant, routing, limits, credentials, workspace⟩

/-- The shape of an invocation, closed at every level. -/
def IsInvocation (raw : Adapters.Coding.Value) : Prop := IsObject invocationKeys InvocationFields (some raw)

end Shapes

section Checks

variable {Datum Other : Type} {value : Option Adapters.Coding.Value} {record : Adapters.Coding.Record} {place refusal : String}
  {keys : List String}

theorem expect_ok {holds : Bool} : expect holds refusal = .ok () ↔ holds = true := by
  unfold expect
  cases holds <;> simp

theorem expectSome_ok {datum : Option Datum} {held : Datum} : expectSome refusal datum = .ok held ↔ datum = some held := by
  cases datum <;> simp [expectSome]

theorem asRecord_some : asRecord value = some record ↔ value = some (.object record) := by
  unfold asRecord
  cases value with
  | none => simp
  | some value => cases value <;> simp [Value.record?]

theorem asArray_some {entries : List Adapters.Coding.Value} : asArray value = some entries ↔ value = some (.array entries) := by
  unfold asArray
  split <;> simp_all

theorem asString_some {text : String} : asString value = some text ↔ value = some (.text text) := by
  unfold asString
  split <;> simp_all

theorem asNumber_some {numeral : Numeral} : asNumber value = some numeral ↔ value = some (.number numeral) := by
  unfold asNumber
  split <;> simp_all

/-- Keys are checked to be exactly the listed ones. -/
theorem checkKeys_ok : checkKeys record place keys = .ok () ↔ Closed record keys := by
  unfold checkKeys Closed
  cases extra : record.find? fun entry => entry.1 ∉ keys with
  | some entry =>
    refine iff_of_false (fun impossible => by cases impossible) fun closed => ?_
    have listed := List.mem_map_of_mem (f := Prod.fst) (List.mem_of_find?_eq_some extra)
    have foreign := List.find?_some extra
    exact of_decide_eq_true foreign ((closed entry.1).mp listed)
  | none =>
    have known : ∀ key, key ∈ record.map Prod.fst → key ∈ keys := by
      intro key listed
      obtain ⟨entry, member, rfl⟩ := List.mem_map.mp listed
      simpa using List.find?_eq_none.mp extra entry member
    dsimp only
    cases absent : keys.find? fun key => (record.lookup key).isNone with
    | some key =>
      refine iff_of_false (fun impossible => by cases impossible) fun closed => ?_
      have missing := List.find?_some absent
      obtain ⟨value, found⟩ := mem_keys.mp ((closed key).mpr (List.mem_of_find?_eq_some absent))
      rw [found] at missing
      cases missing
    | none =>
      refine iff_of_true rfl fun key => ⟨known key, fun member => mem_keys.mpr (Option.ne_none_iff_exists'.mp ?_)⟩
      simpa using List.find?_eq_none.mp absent key member

theorem checkObject_ok : checkObject value place keys = .ok record ↔ value = some (.object record) ∧ Closed record keys := by
  unfold checkObject
  rw [then_ok]
  constructor
  · rintro ⟨held, found, checked⟩
    obtain ⟨_, closed, same⟩ := then_ok.mp checked
    cases same
    exact ⟨asRecord_some.mp (expectSome_ok.mp found), checkKeys_ok.mp closed⟩
  · rintro ⟨found, closed⟩
    exact ⟨record, expectSome_ok.mpr (asRecord_some.mpr found), then_ok.mpr ⟨(), checkKeys_ok.mpr closed, rfl⟩⟩

/-- A check of an array takes it if each entry's check does. -/
theorem checkList_ok {check : Adapters.Coding.Value → String → Checked Datum} {holds : Adapters.Coding.Value → Prop}
    (each : ∀ entry place, (∃ datum, check entry place = .ok datum) ↔ holds entry) :
    (∃ data, checkList check value place = .ok data) ↔ IsArray holds value := by
  have entries (list : List Adapters.Coding.Value) (index : ℕ) :
      (∃ data, checkEntries check place index list = .ok data) ↔ ∀ entry ∈ list, holds entry := by
    induction list generalizing index with
    | nil => simp [checkEntries]
    | cons entry rest ih =>
      rw [checkEntries, List.forall_mem_cons, ← each entry (place ++ "[" ++ toString index ++ "]"), ← ih (index + 1)]
      constructor
      · rintro ⟨data, checked⟩
        obtain ⟨datum, here, checked⟩ := then_ok.mp checked
        obtain ⟨others, later, _⟩ := then_ok.mp checked
        exact ⟨⟨datum, here⟩, others, later⟩
      · rintro ⟨⟨datum, here⟩, others, later⟩
        exact ⟨datum :: others, then_ok.mpr ⟨datum, here, then_ok.mpr ⟨others, later, rfl⟩⟩⟩
  unfold checkList IsArray
  constructor
  · rintro ⟨data, checked⟩
    obtain ⟨list, found, checked⟩ := then_ok.mp checked
    exact ⟨list, asArray_some.mp (expectSome_ok.mp found), (entries list 0).mp ⟨data, checked⟩⟩
  · rintro ⟨list, found, each⟩
    obtain ⟨data, checked⟩ := (entries list 0).mpr each
    exact ⟨data, then_ok.mpr ⟨list, expectSome_ok.mpr (asArray_some.mpr found), checked⟩⟩

/-- A sequence of checks passes if each does, the later ones on what the first answers. -/
theorem passes_then {first : Checked Datum} {next : Datum → Checked Other} :
    (∃ result, (first >>= next) = .ok result) ↔ ∃ datum, first = .ok datum ∧ ∃ result, next datum = .ok result := by
  constructor
  · rintro ⟨result, passed⟩
    obtain ⟨datum, here, later⟩ := then_ok.mp passed
    exact ⟨datum, here, result, later⟩
  · rintro ⟨datum, here, result, later⟩
    exact ⟨result, then_ok.mpr ⟨datum, here, later⟩⟩

/-- A check whose answer nothing after it depends on. -/
theorem passes_and {first : Checked Datum} {next : Datum → Checked Other} {holds holds' : Prop}
    (here : (∃ datum, first = .ok datum) ↔ holds) (later : ∀ datum, (∃ result, next datum = .ok result) ↔ holds') :
    (∃ result, (first >>= next) = .ok result) ↔ holds ∧ holds' := by
  rw [passes_then, ← here]
  constructor
  · rintro ⟨datum, passed, rest⟩
    exact ⟨⟨datum, passed⟩, (later datum).mp rest⟩
  · rintro ⟨⟨datum, passed⟩, rest⟩
    exact ⟨datum, passed, (later datum).mpr rest⟩

theorem passes_expect {holds : Bool} : (∃ result, expect holds refusal = .ok result) ↔ holds = true := by
  constructor
  · rintro ⟨_, passed⟩
    exact expect_ok.mp passed
  · intro holding
    exact ⟨(), expect_ok.mpr holding⟩

theorem passes_some {datum : Option Datum} : (∃ held, expectSome refusal datum = .ok held) ↔ ∃ held, datum = some held :=
  exists_congr fun _ => expectSome_ok

theorem passes_return {datum : Datum} : (∃ result, (pure datum : Checked Datum) = .ok result) ↔ True := iff_true_intro ⟨datum, rfl⟩

/-- A check of an object is one of its keys and then of its fields. -/
theorem passes_object {next : Adapters.Coding.Record → Checked Other} {holds : Adapters.Coding.Record → Prop}
    (fields : ∀ record, (∃ result, next record = .ok result) ↔ holds record) :
    (∃ result, (checkObject value place keys >>= next) = .ok result) ↔ IsObject keys holds value := by
  rw [passes_then]
  constructor
  · rintro ⟨record, checked, rest⟩
    obtain ⟨found, closed⟩ := checkObject_ok.mp checked
    exact ⟨record, found, closed, (fields record).mp rest⟩
  · rintro ⟨record, found, closed, rest⟩
    exact ⟨record, checkObject_ok.mpr ⟨found, closed⟩, (fields record).mpr rest⟩

theorem any_number {holds : Numeral → Bool} : (asNumber value).any holds = true ↔ ∃ numeral, value = some
    (.number numeral) ∧ holds numeral = true := by
  simp only [Option.any_eq_true, asNumber_some]

theorem isNumber_any {holds : Numeral → Bool} :
    ((asNumber value).any fun numeral => numeral.isFinite && holds numeral) = true ↔ IsNumber holds value := by
  simp only [any_number, Bool.and_eq_true, IsNumber]

theorem filled_some {name : ToolName} : filled value = some name ↔ value = some (.text name.1) := by
  unfold filled
  constructor
  · intro found
    split at found
    next text read =>
      split at found
      next some_text =>
        cases found
        exact asString_some.mp read
      next => cases found
    next => cases found
  · intro found
    rw [asString_some.mpr found]
    exact dif_pos name.2

theorem isFilled_iff : (∃ name, filled value = some name) ↔ IsFilled value := by
  constructor
  · rintro ⟨name, found⟩
    exact ⟨name.1, filled_some.mp found, name.2⟩
  · rintro ⟨text, found, some_text⟩
    exact ⟨⟨text, some_text⟩, filled_some.mpr found⟩

theorem isFilled_isSome : (filled value).isSome = true ↔ IsFilled value := by
  rw [Option.isSome_iff_exists, isFilled_iff]

theorem passes_filled : (∃ result, checkFilled record place keys = .ok result) ↔ ∀ key ∈ keys, IsFilled (record.lookup key) := by
  induction keys with
  | nil => exact iff_of_true ⟨(), rfl⟩ fun key none_listed => absurd none_listed List.not_mem_nil
  | cons key rest ih =>
    rw [checkFilled, List.forall_mem_cons]
    exact passes_and (passes_expect.trans isFilled_isSome) fun _ => ih

end Checks

section Parts

variable {Datum : Type} {value : Option Adapters.Coding.Value} {entry : Adapters.Coding.Value} {place : String}

theorem passes_credential : (∃ name, checkCredential entry place = .ok name) ↔ IsCredential entry := by
  apply passes_object
  intro record
  cases read : asString (record.lookup "env_var") with
  | none =>
    refine iff_of_false (fun ⟨_, impossible⟩ => by cases impossible) ?_
    rintro ⟨name, found, _⟩
    rw [asString_some.mpr found] at read
    cases read
  | some name =>
    have named := asString_some.mp read
    dsimp only
    split
    next grammatical => exact iff_of_true ⟨_, rfl⟩ ⟨name, named, grammatical⟩
    next wrong =>
      refine iff_of_false (fun ⟨_, impossible⟩ => by cases impossible) ?_
      rintro ⟨other, found, grammatical⟩
      cases named.symm.trans found
      exact wrong grammatical

theorem passes_credentials : (∃ names, checkCredentialList value place = .ok names) ↔ IsArray IsCredential value :=
  checkList_ok fun _ _ => passes_credential

theorem mapM_some {Item Datum : Type} {convert : Item → Option Datum} {items : List Item} :
    (∃ data, items.mapM convert = some data) ↔ ∀ item ∈ items, ∃ datum, convert item = some datum := by
  induction items with
  | nil => exact iff_of_true ⟨[], rfl⟩ fun item none_listed => absurd none_listed List.not_mem_nil
  | cons item rest ih =>
    rw [List.forall_mem_cons, ← ih, List.mapM_cons]
    constructor
    · rintro ⟨data, passed⟩
      obtain ⟨datum, here, passed⟩ := Option.bind_eq_some_iff.mp passed
      obtain ⟨others, later, _⟩ := Option.bind_eq_some_iff.mp passed
      exact ⟨⟨datum, here⟩, others, later⟩
    · rintro ⟨⟨datum, here⟩, others, later⟩
      exact ⟨datum :: others, Option.bind_eq_some_iff.mpr ⟨datum, here, Option.bind_eq_some_iff.mpr ⟨others, later, rfl⟩⟩⟩

theorem passes_tools : (∃ tools, checkTools value = .ok tools) ↔ IsArray (fun tool => IsFilled (some tool)) value := by
  refine passes_some.trans ?_
  constructor
  · rintro ⟨tools, passed⟩
    obtain ⟨entries, found, passed⟩ := Option.bind_eq_some_iff.mp passed
    exact ⟨entries, asArray_some.mp found, fun tool member => isFilled_iff.mp (mapM_some.mp ⟨tools, passed⟩ tool member)⟩
  · rintro ⟨entries, found, each⟩
    obtain ⟨tools, passed⟩ := mapM_some.mpr fun tool member => isFilled_iff.mpr (each tool member)
    exact ⟨tools, Option.bind_eq_some_iff.mpr ⟨entries, asArray_some.mpr found, passed⟩⟩

theorem passes_mount : (∃ result, checkMount entry place = .ok result) ↔ IsMount entry := by
  apply passes_object
  intro record
  apply passes_and
  · refine passes_expect.trans ?_
    simp only [Option.any_eq_true, asString_some, decide_eq_true_eq]
  · intro _
    refine passes_expect.trans ?_
    simp only [decide_eq_true_eq, asString_some]

theorem passes_destination : (∃ result, checkDestination entry place = .ok result) ↔ IsDestination entry := by
  apply passes_object
  intro record
  apply passes_and (passes_expect.trans isFilled_isSome)
  intro _
  refine passes_expect.trans ?_
  simp only [Bool.and_assoc]
  exact isNumber_any

theorem passes_mounts : (∃ mounts, checkList checkMount value place = .ok mounts) ↔ IsArray IsMount value :=
  checkList_ok fun _ _ => passes_mount

theorem passes_destinations : (∃ destinations, checkList checkDestination value place = .ok destinations) ↔ IsArray IsDestination value :=
  checkList_ok fun _ _ => passes_destination

theorem passes_network : (∃ result, checkNetwork value = .ok result) ↔ IsNetwork value := by
  apply passes_object
  intro network
  apply passes_and
  · refine passes_expect.trans ?_
    simp only [decide_eq_true_eq, asString_some]
  · intro _
    exact (passes_and passes_destinations fun _ => passes_return).trans (and_iff_left trivial)

theorem passes_grant : (∃ tools, checkGrant value = .ok tools) ↔ IsGrant value := by
  apply passes_object
  intro grant
  apply passes_and passes_tools
  intro tools
  apply passes_and passes_mounts
  intro _
  apply passes_and passes_network
  intro _
  exact (passes_and passes_credentials fun _ => passes_return).trans (and_iff_left trivial)

theorem passes_input : (∃ input, checkInput value = .ok input) ↔ IsInput value := by
  apply passes_object
  intro input
  apply passes_and
  · refine passes_expect.trans ?_
    simp only [decide_eq_true_eq, asString_some]
  intro _
  apply passes_and (passes_some.trans isFilled_iff)
  intro task
  refine (passes_and (passes_some.trans ?_) fun _ => passes_return).trans (and_iff_left trivial)
  constructor
  · rintro ⟨parameters, passed⟩
    obtain ⟨entries, found, passed⟩ := Option.bind_eq_some_iff.mp passed
    refine ⟨entries, asRecord_some.mp found, fun entry member => ?_⟩
    obtain ⟨_, text⟩ := mapM_some.mp ⟨parameters, passed⟩ entry member
    obtain ⟨text, read, _⟩ := Option.map_eq_some_iff.mp text
    exact ⟨text, asString_some.mp read⟩
  · rintro ⟨entries, found, each⟩
    obtain ⟨parameters, passed⟩ := mapM_some.mpr fun entry member => by
      obtain ⟨text, read⟩ := each entry member
      exact ⟨(entry.1, text), Option.map_eq_some_iff.mpr ⟨text, asString_some.mpr read, rfl⟩⟩
    exact ⟨parameters, Option.bind_eq_some_iff.mpr ⟨entries, asRecord_some.mpr found, passed⟩⟩

theorem isText_iff : (∃ text, asString value = some text) ↔ IsText value := exists_congr fun _ => asString_some

theorem passes_routing : (∃ route, checkRouting value = .ok route) ↔ IsRouting value := by
  apply passes_object
  intro routing
  rw [List.forall_mem_cons, List.forall_mem_cons, List.forall_mem_singleton]
  apply passes_and (passes_some.trans isText_iff)
  intro _
  apply passes_and (passes_some.trans isText_iff)
  intro _
  exact (passes_and (passes_some.trans isText_iff) fun _ => passes_return).trans (and_iff_left trivial)

theorem positive_iff : (∃ limit, positive value = some limit) ↔ IsNumber (fun limit => !limit.atMost 0) value := by
  unfold positive IsNumber
  simp only [Option.filter_eq_some_iff, asNumber_some, Bool.and_eq_true]

theorem passes_limits : (∃ limit, checkLimits value = .ok limit) ↔ IsLimits value := by
  apply passes_object
  intro limits
  rw [passes_then]
  constructor
  · rintro ⟨checked, passed, _⟩ key member
    obtain ⟨limit, here⟩ := mapM_isOk.mp ⟨checked, passed⟩ key member
    exact positive_iff.mp ⟨limit, expectSome_ok.mp here⟩
  · intro each
    obtain ⟨checked, passed⟩ := mapM_isOk.mpr fun key member => by
      obtain ⟨limit, here⟩ := positive_iff.mpr (each key member)
      exact ⟨limit, @expectSome_ok _ ("limits." ++ key ++ " must be a positive number") _ _ |>.mpr here⟩
    have some_limits : checked ≠ [] := by
      have same := (mapM_ok.mp passed).length_eq
      rintro rfl
      cases same
    exact ⟨checked, passed, passes_some.mpr ⟨_, List.getLast?_eq_some_getLast some_limits⟩⟩

theorem passes_one {record : Adapters.Coding.Record} {key : String} :
    (∃ result, checkFilled record place [key] = .ok result) ↔ IsFilled (record.lookup key) := by
  rw [passes_filled, List.forall_mem_singleton]

theorem passes_keys {record : Adapters.Coding.Record} {keys : List String} :
    (∃ result, checkKeys record place keys = .ok result) ↔ Closed record keys := by
  constructor
  · intro ⟨_, passed⟩
    exact checkKeys_ok.mp passed
  · intro closed
    exact ⟨(), checkKeys_ok.mpr closed⟩

/-- An object whose fields are checked before the rest is. -/
theorem passes_within {Other : Type} {keys : List String} {next : Adapters.Coding.Record → Checked Datum} {rest : Checked Other}
    {holds : Adapters.Coding.Record → Prop} {later : Prop} (fields : ∀ record, (∃ datum, next record = .ok datum) ↔ holds record)
    (others : (∃ result, rest = .ok result) ↔ later) :
    (∃ result, (checkObject value place keys >>= fun record => next record >>= fun _ => rest) = .ok result) ↔
      IsObject keys holds value ∧ later := by
  refine (passes_object fun record => passes_and (fields record) fun _ => others).trans ?_
  constructor
  · rintro ⟨record, found, closed, holding, after⟩
    exact ⟨⟨record, found, closed, holding⟩, after⟩
  · rintro ⟨⟨record, found, closed, holding⟩, after⟩
    exact ⟨record, found, closed, holding, after⟩

/-- The checks accept exactly the declared shape. -/
theorem passes_invocation {raw : Adapters.Coding.Value} : (∃ invocation, checkInvocation raw = .ok invocation) ↔ IsInvocation raw := by
  unfold checkInvocation
  rw [passes_then]
  refine exists_congr fun invocation => and_congr (expectSome_ok.trans (@asRecord_some (some raw) invocation)) ?_
  rw [invocationFields_iff]
  apply passes_and passes_keys
  intro _
  apply passes_and passes_one
  intro _
  apply passes_and
  · refine passes_expect.trans ?_
    rw [any_number]
    exact exists_congr fun numeral => and_congr_right fun _ => (and_iff_left rfl).symm
  intro _
  apply passes_and passes_one
  intro _
  apply passes_within fun _ => passes_filled
  apply passes_and passes_input
  intro _
  apply passes_and passes_grant
  intro _
  apply passes_and passes_routing
  intro _
  apply passes_and passes_limits
  intro _
  apply passes_and passes_credentials
  intro _
  exact (passes_within (fun _ => passes_filled) passes_return).trans (and_iff_left trivial)

end Parts

end SecureHome.Proofs.WireBoundary
