import SecureHome.Proofs.WireBoundary

/-! What the running phase sends is read back as it was, and the other side takes it wherever its
free texts are not empty. -/

namespace SecureHome.Proofs.WireRoundTrip
open Lib hiding decode
open Governance
open Adapters.Coding Adapters.Coding.Wire WireBoundary

section Settled

mutual

/-- A settled value is written as a text that has it. -/
theorem spelt_value : (form : Json Double) → form.Settled → valueOf (spelt form) = form.map fun double => .finite double.unsigned
  | .null, _ => rfl
  | .boolean _, _ => rfl
  | .number number, _ => by
    change Json.number (numberOf number.token) = _
    unfold numberOf
    rw [Double.token_number]
    rfl
  | .string _, _ => rfl
  | .array items, settled => by
    change Json.array (Governance.valuesOf (Json.mapItems Double.token items)) = _
    rw [items_value items settled]
    rfl
  | .object fields, ⟨distinct, settled, values⟩ => by
    change Json.objectOf (fieldsOf (Json.mapFields Double.token fields)) = _
    rw [fields_value fields values, Json.map, Json.mapFields_eq, Json.objectOf_settled]
    · rw [Json.names_convert]
      exact distinct
    · exact (Json.enumerated_convert distinct).mpr settled

theorem items_value : (items : List (Json Double)) → Json.EachSettled items →
    Governance.valuesOf (Json.mapItems Double.token items) = Json.mapItems (fun double => .finite double.unsigned) items
  | [], _ => rfl
  | item :: rest, ⟨here, later⟩ => by
    have first := spelt_value item here
    unfold spelt at first
    rw [Json.mapItems, Governance.valuesOf, first, items_value rest later]
    rfl

theorem fields_value : (fields : List (JsString × Json Double)) → Json.FieldsSettled fields →
    fieldsOf (Json.mapFields Double.token fields) = Json.mapFields (fun double => .finite double.unsigned) fields
  | [], _ => rfl
  | (_, value) :: rest, ⟨here, later⟩ => by
    have first := spelt_value value here
    unfold spelt at first
    rw [Json.mapFields, fieldsOf, first, fields_value rest later]
    rfl

end

/-- `JSON.parse` of what `JSON.stringify` writes. -/
theorem jsonParse_stringify {form : Json Double} (settled : form.Settled) :
    jsonParse (stringify (written form)) = some (form.map fun double => .finite double.unsigned) :=
  jsonParse_iff.mpr ⟨spelt form, ⟨[], _, [], rfl, stringify_text form, rfl, (List.append_nil _).symm⟩, spelt_value form settled⟩

/-- Names that are no array indices, each once. -/
def Named (names : List String) : Prop := (names.map units).Nodup ∧ ∀ name ∈ names, arrayIndex (units name) = none

instance (names : List String) : Decidable (Named names) := inferInstanceAs (Decidable (_ ∧ _))

theorem enumerated_named {fields : Fields Double} (named : ∀ field ∈ fields, arrayIndex field.1 = none) : enumerated fields = fields := by
  unfold enumerated
  rw [List.filter_eq_nil_iff.mpr, List.filter_eq_self.mpr]
  · rfl
  · intro field member
    rw [named field member]
    rfl
  · intro field member
    rw [named field member]
    exact Bool.false_ne_true

@[simp] theorem string_settled {value : JsString} : (@Json.string Double value).Settled := trivial

@[simp] theorem number_settled {value : Double} : (Json.number value).Settled := trivial

theorem object_settled {fields : List (String × Json Double)} (names : List String) (same : fields.map Prod.fst = names)
    (named : Named names) (values : ∀ field ∈ fields, field.2.Settled) : (object fields).Settled := by
  subst same
  refine ⟨?_, ?_, ?_⟩
  · rw [List.map_map]
    have distinct := named.1
    rwa [List.map_map] at distinct
  · apply enumerated_named
    intro field member
    obtain ⟨entry, listed, rfl⟩ := List.mem_map.mp member
    exact named.2 entry.1 (List.mem_map_of_mem listed)
  · apply Json.fieldsSettled_iff.mpr
    intro field member
    obtain ⟨entry, listed, rfl⟩ := List.mem_map.mp member
    exact values entry listed

theorem array_settled {Item : Type} {items : List Item} {json : Item → Json Double} (each : ∀ item ∈ items, (json item).Settled) :
    (Json.array (items.map json)).Settled := by
  apply Json.eachSettled_iff.mpr
  intro value member
  obtain ⟨item, listed, rfl⟩ := List.mem_map.mp member
  exact each item listed

theorem parameters_settled (parameters : Parameters) : (Json.object parameters.fields).Settled := by
  refine ⟨parameters.distinct, parameters.ordered, Json.fieldsSettled_iff.mpr fun field member => ?_⟩
  obtain ⟨value, same⟩ := parameters.strings field member
  rw [same]
  trivial

theorem credentials_settled (names : List JsString) : (credentialsJson names).Settled := by
  apply array_settled
  intro name _
  apply object_settled ["env_var"] rfl (by decide)
  simp

theorem grant_settled (grant : CapabilityGrant) : grant.json.Settled := by
  have tools : (Json.array (grant.tools.map (@Json.string Double))).Settled := array_settled fun _ _ => trivial
  have mounts : (Json.array (grant.mounts.map Mount.json)).Settled := by
    apply array_settled
    intro mount _
    apply object_settled ["path", "posture"] rfl (by decide)
    simp
  have destinations : (Json.array (grant.grantedDestinations.map Destination.json)).Settled := by
    apply array_settled
    intro destination _
    apply object_settled ["host", "port"] rfl (by decide)
    simp
  have network : (object [("default", .string (units "deny")),
      ("granted_destinations", .array (grant.grantedDestinations.map Destination.json))]).Settled := by
    apply object_settled ["default", "granted_destinations"] rfl (by decide)
    simp [destinations]
  apply object_settled ["tools", "mounts", "network", "credentials"] rfl (by decide)
  simp [tools, mounts, network, credentials_settled]

theorem limits_settled (limits : Limits) : limits.json.Settled := by
  apply object_settled limitKeys rfl (by decide)
  simp

/-- What is sent has its properties in order. -/
theorem invocation_settled (request : RunRequest) (generation : Double) (profile : ExecutionProfile) (session : Option JsString) :
    (invocation request generation profile session).Settled := by
  have identity : (object [("name", .string profile.name), ("version", .string profile.version), ("digest", .string profile.digest)]).Settled := by
    apply object_settled ["name", "version", "digest"] rfl (by decide)
    simp
  have input : (object [("kind", .string (units "task")), ("task", .string request.task),
      ("parameters", .object request.parameters.fields)]).Settled := by
    apply object_settled ["kind", "task", "parameters"] rfl (by decide)
    simp [parameters_settled]
  have routing : (object [("routing_class", .string profile.routingClass), ("model_route", .string profile.modelRoute),
      ("fallback", .string profile.fallback)]).Settled := by
    apply object_settled ["routing_class", "model_route", "fallback"] rfl (by decide)
    simp
  have workspace : (object [("session_ref", .string (sessionRef request session)),
      ("root_ref", .string (units "workspace:" ++ request.runId))]).Settled := by
    apply object_settled ["session_ref", "root_ref"] rfl (by decide)
    simp
  apply object_settled invocationKeys rfl (by decide)
  simp [identity, input, grant_settled, routing, limits_settled, credentials_settled, workspace]

end Settled

section Received

/-- A form as the checks read it on the other side. -/
def received (form : Json Double) : Adapters.Coding.Value := Adapters.Coding.decode (form.map fun double => .finite double.unsigned)

theorem textAsRead_units (text : String) : textAsRead (units text) = text := by
  unfold textAsRead units
  rw [scalarValues_flatMap, String.ofList_toList]

theorem textAsRead_empty {string : JsString} : textAsRead string = "" ↔ string = [] := by
  unfold textAsRead
  rw [String.ofList_eq_empty_iff]
  constructor
  · intro none_left
    apply List.eq_nil_of_length_eq_zero
    rw [← @length_toWellFormed string, toWellFormed, none_left]
    rfl
  · rintro rfl
    rfl

theorem decodeItems_map (items : List (Json JsonNumber)) : decodeItems items = items.map Adapters.Coding.decode := by
  induction items with
  | nil => rfl
  | cons item rest ih => rw [decodeItems, ih, List.map_cons]

theorem decodeFields_map (fields : Fields JsonNumber) :
    decodeFields fields = fields.map fun field => (textAsRead field.1, Adapters.Coding.decode field.2) := by
  induction fields with
  | nil => rfl
  | cons field rest ih => rw [decodeFields, ih, List.map_cons]

theorem received_string {value : JsString} : received (.string value) = .text (textAsRead value) := rfl

theorem received_array {items : List (Json Double)} : received (.array items) = .array (items.map received) := by
  change Adapters.Coding.Value.array (decodeItems (Json.mapItems _ items)) = _
  rw [decodeItems_map, Json.mapItems_eq, List.map_map]
  rfl

theorem received_fields {fields : Fields Double} :
    received (.object fields) = .object (fields.map fun field => (textAsRead field.1, received field.2)) := by
  change Adapters.Coding.Value.object (decodeFields (Json.mapFields _ fields)) = _
  rw [decodeFields_map, Json.mapFields_eq, List.map_map]
  rfl

theorem received_object {fields : List (String × Json Double)} :
    received (object fields) = .object (fields.map fun field => (field.1, received field.2)) := by
  unfold object
  rw [received_fields, List.map_map]
  congr 1
  apply List.map_congr_left
  intro field _
  exact congrArg (·, received field.2) (textAsRead_units field.1)

variable {holds : Adapters.Coding.Value → Prop} {keys : List String}

/-- An object that is sent has its own keys, and no others. -/
theorem isObject_received {fields : List (String × Json Double)} {holds : Adapters.Coding.Record → Prop} (same : fields.map Prod.fst = keys) :
    IsObject keys holds (some (received (object fields))) ↔ holds (fields.map fun field => (field.1, received field.2)) := by
  rw [received_object]
  constructor
  · rintro ⟨record, found, _, holding⟩
    cases found
    exact holding
  · intro holding
    refine ⟨_, rfl, fun key => ?_, holding⟩
    rw [List.map_map, ← same]
    rfl

theorem isArray_received {Item : Type} {items : List Item} {json : Item → Json Double} :
    IsArray holds (some (received (.array (items.map json)))) ↔ ∀ item ∈ items, holds (received (json item)) := by
  rw [received_array, List.map_map]
  constructor
  · rintro ⟨entries, found, each⟩ item member
    cases found
    exact each _ (List.mem_map_of_mem member)
  · intro each
    refine ⟨_, rfl, fun entry listed => ?_⟩
    obtain ⟨item, member, rfl⟩ := List.mem_map.mp listed
    exact each item member

theorem isFilled_received {value : JsString} : IsFilled (some (received (.string value))) ↔ value ≠ [] := by
  rw [received_string, ne_eq, ← textAsRead_empty]
  constructor
  · rintro ⟨text, found, some_text⟩
    cases found
    exact some_text
  · intro some_text
    exact ⟨_, rfl, some_text⟩

theorem isText_received {value : JsString} : IsText (some (received (.string value))) := ⟨_, rfl⟩

theorem power_split (exponent : ℤ) : (10 : ℚ) ^ exponent * 10 ^ (-exponent).toNat = 10 ^ exponent.toNat := by
  rw [← zpow_natCast, ← zpow_natCast, ← zpow_add₀ (by norm_num)]
  congr 1
  omega

/-- A numeral is compared as the number that it is. -/
theorem atMost_iff {digits exponent bound : ℤ} : (Numeral.decimal digits exponent).atMost bound = true ↔
    (digits : ℚ) * 10 ^ exponent ≤ bound := by
  have positive : (0 : ℚ) < 10 ^ (-exponent).toNat := by positivity
  rw [← mul_le_mul_iff_left₀ positive, mul_assoc, power_split]
  unfold Numeral.atMost
  rw [decide_eq_true_iff]
  exact_mod_cast Iff.rfl

theorem atLeast_iff {digits exponent bound : ℤ} : (Numeral.decimal digits exponent).atLeast bound = true ↔ bound ≤
    (digits : ℚ) * 10 ^ exponent := by
  have positive : (0 : ℚ) < 10 ^ (-exponent).toNat := by positivity
  rw [← mul_le_mul_iff_left₀ positive, mul_assoc, power_split]
  unfold Numeral.atLeast
  rw [decide_eq_true_iff]
  exact_mod_cast Iff.rfl

variable {double : Double}

theorem received_positive (positive : IsPositive double) :
    received (.number double) = .number (.decimal double.allDigits.1 double.allDigits.2) := by
  have nonzero : ¬ double.isZero := by
    intro zero
    have none_left := positive.2
    unfold Double.magnitude at none_left
    rw [zero, Nat.cast_zero, zero_mul] at none_left
    exact lt_irrefl _ none_left
  change Adapters.Coding.Value.number (numeralOf (.finite double.unsigned)) = _
  rw [Double.unsigned, if_neg nonzero, numeralOf, positive.1]
  rfl

theorem allDigits_value : ((double.allDigits.1 : ℤ) : ℚ) * 10 ^ double.allDigits.2 = double.magnitude := by
  rw [Int.cast_natCast]
  exact Double.allDigits_magnitude

theorem within_positive {bound : ℕ} (within : IsWithin bound double) : IsPositive double := by
  obtain ⟨positive, number, some_left, _, same⟩ := within
  refine ⟨positive, ?_⟩
  rw [same]
  exact_mod_cast some_left

theorem isNumber_positive (positive : IsPositive double) : IsNumber (fun limit => !limit.atMost 0) (some (received (.number double))) := by
  refine ⟨_, congrArg some (received_positive positive), rfl, ?_⟩
  rw [Bool.not_eq_true', Bool.eq_false_iff, ne_eq, atMost_iff, allDigits_value, Int.cast_zero, not_le]
  exact positive.2

theorem isNumber_port (within : IsWithin 65535 double) :
    IsNumber (fun port => port.atLeast 1 && port.atMost 65535) (some (received (.number double))) := by
  refine ⟨_, congrArg some (received_positive (within_positive within)), rfl, ?_⟩
  obtain ⟨_, number, some_left, bounded, same⟩ := within
  rw [Bool.and_eq_true, atLeast_iff, atMost_iff, allDigits_value, same]
  constructor
  · exact_mod_cast some_left
  · exact_mod_cast bounded

theorem isNumber_finite : IsNumber (fun _ => true) (some (received (.number double))) := ⟨_, rfl, rfl, rfl⟩

theorem slash_received {path : JsString} (absolute : path.head? = some 0x2f) : (textAsRead path).toList.head? = some '/' := by
  obtain ⟨rest, rfl⟩ := List.head?_eq_some_iff.mp absolute
  rw [textAsRead, scalarValues_scalar (by decide), String.toList_ofList]
  rfl

end Received

section Accepted

theorem credentials_accepted {names : List JsString} (grammatical : ∀ name ∈ names, isEnvVar (textAsRead name) = true) :
    IsArray IsCredential (some (received (credentialsJson names))) := by
  apply isArray_received.mpr
  intro name member
  apply (isObject_received rfl).mpr
  exact ⟨textAsRead name, rfl, grammatical name member⟩

theorem mount_accepted {mount : Mount} (absolute : mount.path.head? = some 0x2f) : IsMount (received mount.json) := by
  apply (isObject_received rfl).mpr
  refine ⟨⟨textAsRead mount.path, rfl, slash_received absolute⟩, ?_⟩
  obtain ⟨path, posture⟩ := mount
  cases posture with
  | readOnly => exact .inl (congrArg (fun text => some (Adapters.Coding.Value.text text)) (textAsRead_units "read_only"))
  | readWrite => exact .inr (congrArg (fun text => some (Adapters.Coding.Value.text text)) (textAsRead_units "read_write"))

theorem destination_accepted {destination : Destination} (host : isHost destination.host = true) (port : IsWithin 65535 destination.port) :
    IsDestination (received destination.json) := by
  apply (isObject_received rfl).mpr
  refine ⟨isFilled_received.mpr ?_, isNumber_port port⟩
  intro none_left
  rw [none_left] at host
  cases host

theorem received_units {text : String} : received (.string (units text)) = .text text := congrArg Adapters.Coding.Value.text
    (textAsRead_units text)

/-- A valid grant is taken. -/
theorem grant_accepted {grant : CapabilityGrant} (valid : grant.Valid) : IsGrant (some (received grant.json)) := by
  apply (isObject_received rfl).mpr
  refine ⟨?_, ?_, ?_, credentials_accepted valid.credentials⟩
  · apply isArray_received.mpr
    intro tool member
    exact isFilled_received.mpr (valid.tools tool member)
  · apply isArray_received.mpr
    intro mount member
    exact mount_accepted (valid.mounts mount member)
  · apply (isObject_received rfl).mpr
    refine ⟨congrArg some received_units, ?_⟩
    apply isArray_received.mpr
    intro destination member
    exact destination_accepted (valid.hosts destination member) (valid.ports destination member)

theorem limits_accepted {profile : ExecutionProfile} (valid : profile.Valid) : IsLimits (some (received profile.limits.json)) := by
  apply (isObject_received rfl).mpr
  intro key member
  simp only [limitKeys, List.mem_cons, List.not_mem_nil, or_false] at member
  rcases member with rfl | rfl | rfl | rfl | rfl
  · exact isNumber_positive (within_positive valid.wallClockSeconds)
  · exact isNumber_positive valid.cpuCores
  · exact isNumber_positive (within_positive valid.memoryBytes)
  · exact isNumber_positive (within_positive valid.pids)
  · exact isNumber_positive (within_positive valid.outputBytes)

theorem identity_accepted {profile : ExecutionProfile} (valid : profile.Valid) : IsProfile (some (received (object
    [("name", .string profile.name), ("version", .string profile.version), ("digest", .string profile.digest)]))) := by
  have name : profile.name ≠ [] := fun none_left => by
    have kebab := valid.name
    rw [none_left] at kebab
    cases kebab
  have version : profile.version ≠ [] := fun none_left => by
    have dotted := valid.version
    rw [none_left] at dotted
    exact absurd dotted (by decide)
  have digest : profile.digest ≠ [] := fun none_left => by
    have sealed := valid.digest
    rw [none_left] at sealed
    exact absurd sealed (by decide)
  apply (isObject_received rfl).mpr
  intro key member
  simp only [List.mem_cons, List.not_mem_nil, or_false] at member
  rcases member with rfl | rfl | rfl
  · exact isFilled_received.mpr name
  · exact isFilled_received.mpr version
  · exact isFilled_received.mpr digest

theorem input_accepted {request : RunRequest} : IsInput (some (received (object [("kind", .string (units "task")),
    ("task", .string request.task), ("parameters", .object request.parameters.fields)]))) ↔ request.task ≠ [] := by
  refine (isObject_received rfl).trans ?_
  constructor
  · rintro ⟨_, task, _⟩
    exact isFilled_received.mp task
  · intro some_task
    refine ⟨congrArg some received_units, isFilled_received.mpr some_task, _, congrArg some received_fields, ?_⟩
    intro entry member
    obtain ⟨field, listed, rfl⟩ := List.mem_map.mp member
    obtain ⟨value, same⟩ := request.parameters.strings field listed
    rw [same]
    exact isText_received

theorem routing_accepted {profile : ExecutionProfile} : IsRouting (some (received (object [("routing_class", .string profile.routingClass),
    ("model_route", .string profile.modelRoute), ("fallback", .string profile.fallback)]))) := by
  apply (isObject_received rfl).mpr
  intro key member
  simp only [List.mem_cons, List.not_mem_nil, or_false] at member
  rcases member with rfl | rfl | rfl
  all_goals exact isText_received

theorem workspace_accepted {session root : JsString} (some_root : root ≠ []) :
    IsWorkspace (some (received (object [("session_ref", .string session), ("root_ref", .string root)]))) ↔ session ≠ [] := by
  refine (isObject_received rfl).trans ?_
  constructor
  · intro each
    exact isFilled_received.mp (each "session_ref" (by decide))
  · intro some_session key member
    simp only [List.mem_cons, List.not_mem_nil, or_false] at member
    rcases member with rfl | rfl
    · exact isFilled_received.mpr some_session
    · exact isFilled_received.mpr some_root

/-- What is asked with a valid profile has the shape where the run, the task and the session have a text. -/
theorem invocation_shape {request : RunRequest} {generation : Double} {profile : ExecutionProfile} {session : Option JsString}
    (valid : profile.Valid) : IsInvocation (received (invocation request generation profile session)) ↔
      request.runId ≠ [] ∧ request.task ≠ [] ∧ sessionRef request session ≠ [] := by
  have adapter : profile.adapter ≠ [] := fun none_left => by
    have kebab := valid.adapter
    rw [none_left] at kebab
    cases kebab
  have root : units "workspace:" ++ request.runId ≠ [] := by
    have some_units : units "workspace:" ≠ [] := by decide
    simp [some_units]
  refine (isObject_received rfl).trans ?_
  constructor
  · intro fields
    exact ⟨isFilled_received.mp fields.runId, input_accepted.mp fields.input, (workspace_accepted root).mp fields.workspace⟩
  · rintro ⟨run, task, session_open⟩
    exact ⟨isFilled_received.mpr run, isNumber_finite, isFilled_received.mpr adapter, identity_accepted valid, input_accepted.mpr task,
      grant_accepted valid.capability, routing_accepted, limits_accepted valid, credentials_accepted valid.capability.credentials,
      (workspace_accepted root).mpr session_open⟩

end Accepted

section Boundary

/-- A text is taken if it is one of an object of the declared shape. -/
theorem parseWireText_iff {bytes : JsString} :
    (∃ wire, parseWireText bytes = .ok wire) ↔ ∃ value, jsonParse bytes = some value ∧ IsInvocation (decode value) := by
  unfold parseWireText
  cases jsonParse bytes with
  | none =>
    refine iff_of_false (fun ⟨_, impossible⟩ => by cases impossible) ?_
    rintro ⟨_, impossible, _⟩
    cases impossible
  | some raw =>
    refine passes_invocation.trans ⟨fun shape => ⟨raw, rfl, shape⟩, ?_⟩
    rintro ⟨_, same, shape⟩
    cases same
    exact shape

variable {request : RunRequest} {generation : Double} {profile : ExecutionProfile} {session : Option JsString}

theorem invocation_taken (valid : profile.Valid) : (∃ wire, parseWireText (invocationText request generation profile session) = .ok wire) ↔
    request.runId ≠ [] ∧ request.task ≠ [] ∧ sessionRef request session ≠ [] := by
  rw [parseWireText_iff, invocationText, jsonParse_stringify (invocation_settled request generation profile session),
    ← @invocation_shape request generation profile session valid]
  constructor
  · rintro ⟨_, same, shape⟩
    cases same
    exact shape
  · intro shape
    exact ⟨_, rfl, shape⟩

/-- The wire takes the texts of JSON whose value has the closed shape, and no others. What the
running phase sends is read back as it was, but for the sign of a zero, and is taken where the run,
the task and the session are named. -/
theorem wire_closed_and_complete :
    (∀ bytes, (∃ wire, parseWireText bytes = .ok wire) ↔ ∃ tree, JsonText bytes tree ∧ IsInvocation (decode (valueOf tree))) ∧
      ∀ (request : RunRequest) (generation : Double) (profile : ExecutionProfile) (session : Option JsString), profile.Valid →
        jsonParse (invocationText request generation profile session) =
            some ((invocation request generation profile session).map fun double => .finite double.unsigned) ∧
          ((∃ wire, parseWireText (invocationText request generation profile session) = .ok wire) ↔
            request.runId ≠ [] ∧ request.task ≠ [] ∧ sessionRef request session ≠ []) := by
  constructor
  · intro bytes
    rw [parseWireText_iff]
    constructor
    · rintro ⟨value, read, shape⟩
      obtain ⟨tree, spelled, rfl⟩ := jsonParse_iff.mp read
      exact ⟨tree, spelled, shape⟩
    · rintro ⟨tree, spelled, shape⟩
      exact ⟨_, jsonParse_iff.mpr ⟨tree, spelled, rfl⟩, shape⟩
  · intro request generation profile session valid
    exact ⟨jsonParse_stringify (invocation_settled request generation profile session), invocation_taken valid⟩

def one : Double := ⟨false, 2 ^ 52, -52, by decide⟩

theorem one_within {bound : ℕ} (some_bound : 1 ≤ bound) : IsWithin bound one :=
  ⟨rfl, 1, Nat.one_pos, some_bound, by norm_num [one, Double.magnitude]⟩

/-- A profile that grants a tool and the rest of nothing. -/
def plain : ExecutionProfile where
  name := units "coding"
  version := units "1.0.0"
  digest := units "sha256:0000000000000000000000000000000000000000000000000000000000000000"
  adapter := units "copilot-cli"
  capability := ⟨[units "shell"], [⟨units "/workspace", .readWrite⟩], [⟨units "example.com", one⟩], [units "TOKEN"]⟩
  routingClass := units "R1"
  modelRoute := units "default"
  fallback := units "none"
  limits := ⟨one, one, one, one, one⟩

theorem plain_valid : plain.Valid := by
  constructor
  case capability =>
    constructor
    case ports =>
      intro destination member
      obtain rfl := List.mem_singleton.mp member
      exact one_within (by norm_num)
    all_goals decide
  case cpuCores => exact within_positive (one_within (Nat.le_refl 1))
  case wallClockSeconds => exact one_within (by norm_num [maxSafeNatural])
  case memoryBytes => exact one_within (by norm_num [maxSafeNatural])
  case pids => exact one_within (by norm_num [maxSafeNatural])
  case outputBytes => exact one_within (by norm_num [maxSafeNatural])
  all_goals decide

def asked (task : String) : RunRequest := ⟨units "run-1", units task, [], by simp, by simp, rfl⟩

theorem wire_closed_and_complete_asked :
    ∃ wire, parseWireText (invocationText (asked "read the thermostat") one plain none) = .ok wire :=
  (wire_closed_and_complete.2 _ one plain none plain_valid).2.mpr (by decide)

/-- A run whose task is empty is asked of an adapter, and refused on the wire. -/
theorem empty_task_refused : plain.Valid ∧ ¬ ∃ wire, parseWireText (invocationText (asked "") one plain none) = .ok wire := by
  refine ⟨plain_valid, ?_⟩
  rw [invocation_taken plain_valid]
  rintro ⟨_, some_task, _⟩
  exact some_task rfl

end Boundary

end SecureHome.Proofs.WireRoundTrip
