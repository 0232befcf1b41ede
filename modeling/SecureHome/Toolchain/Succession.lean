import SecureHome.Lib.Json
import SecureHome.Toolchain.SetRelease

/-! Registry succession: what two revisions of a registry may differ in. Records are
compared by reading their properties, those of their prototypes among them. -/

namespace SecureHome.Toolchain
open Lib

inductive ReleaseState where
  | released
  | deprecated
  | retired
  deriving DecidableEq, Repr

def ReleaseState.label : ReleaseState → String
  | released => "Released"
  | deprecated => "Deprecated"
  | retired => "Retired"

def releaseStates : List ReleaseState := [.released, .deprecated, .retired]

inductive ReleaseDecision where
  | allowed
  | refused (because : JsString)

def releaseTransitionDecision (source target : ReleaseState) : ReleaseDecision :=
  if source = target then .allowed
  else if source = .released ∧ target = .deprecated then .allowed
  else if source = .deprecated ∧ target = .retired then .allowed
  else .refused (units s!"{source.label} -> {target.label} is not a governed transition. ADR-0019 §8 fixes Released -> Deprecated -> Retired and defines no reverse or skipping step")

section Values

/-- A number `===` tells from others: no zero has a sign, and none is `NaN`. -/
inductive Double where
  | finite (value : Rat)
  | infinite (negative : Bool)
  deriving DecidableEq

abbrev JsonValue := Json Double

abbrev JsonFields := Fields Double

/-- A value of the comparison: a parsed one, a copy of a record's fields, or what a
prototype has. -/
inductive JsValue where
  | undefined
  | function (name : JsString)
  | objectPrototype
  | json (value : JsonValue)
  | copy (fields : JsonFields) (prototype : JsValue)

def protoKey : JsString := units "__proto__"

/-- The methods of `Object.prototype`. -/
def objectMethods : List JsString :=
  ["constructor", "__defineGetter__", "__defineSetter__", "hasOwnProperty", "__lookupGetter__", "__lookupSetter__",
    "isPrototypeOf", "propertyIsEnumerable", "toString", "valueOf", "toLocaleString"].map units

/-- The methods of `Array.prototype`. -/
def arrayMethods : List JsString :=
  ["at", "concat", "copyWithin", "fill", "find", "findIndex", "findLast", "findLastIndex", "lastIndexOf", "pop", "push",
    "reverse", "shift", "unshift", "slice", "sort", "splice", "includes", "indexOf", "join", "keys", "entries", "values",
    "forEach", "filter", "flat", "flatMap", "map", "every", "some", "reduce", "reduceRight", "toReversed", "toSorted",
    "toSpliced", "with"].map units

namespace JsValue

/-- What an object of this prototype has under a name it has no property of. -/
def inherited (prototype : JsValue) (name : JsString) : JsValue :=
  if name = protoKey then prototype else if name ∈ objectMethods then function name else undefined

/-- What a prototype that is an array has under a name. -/
def readArray (items : List JsonValue) (name : JsString) : JsValue :=
  match (List.range items.length).find? fun place => units place.repr = name with
  | some place => (items[place]?.map json).getD undefined
  | none =>
    if name = units "length" then json (.number (.finite items.length))
    else if name ∈ arrayMethods then function name
    else inherited (json (.array items)) name

/-- A property of its own, or what stands for it. -/
def own (fields : JsonFields) (name : JsString) (otherwise : JsValue) : JsValue :=
  ((fields.lookup name).map json).getD otherwise

/-- What a copy of this prototype inherits under a name. -/
def readPrototype : JsValue → JsString → JsValue
  | json (.object fields), name => own fields name (inherited (json (.object fields)) name)
  | json (.array items), name => readArray items name
  | json _, _ => undefined
  | prototype, name => inherited prototype name

/-- A property of an object, its own or inherited. -/
def read : JsValue → JsString → JsValue
  | json (.object fields), name => own fields name (inherited objectPrototype name)
  | copy fields prototype, name => own fields name (readPrototype prototype name)
  | objectPrototype, name => inherited (json .null) name
  | _, _ => undefined

def isJsonObject : JsValue → Bool
  | json (.object _) => true
  | copy .. => true
  | objectPrototype => true
  | _ => false

/-- The names of an object's own properties. -/
def keys : JsValue → List JsString
  | json (.object fields) => fields.map Prod.fst
  | copy fields _ => fields.map Prod.fst
  | _ => []

/-- `===`. No two parsed containers are one object. -/
def same : JsValue → JsValue → Bool
  | undefined, undefined => true
  | function one, function other => one = other
  | objectPrototype, objectPrototype => true
  | json .null, json .null => true
  | json (.boolean one), json (.boolean other) => one = other
  | json (.number one), json (.number other) => one = other
  | json (.string one), json (.string other) => one = other
  | _, _ => false

/-- A bound on how deep a value is read. -/
def weight : JsValue → Nat
  | undefined => 0
  | function _ => 0
  | objectPrototype => 1
  | json value => value.height
  | copy fields prototype => 1 + Json.fieldHeights fields + weight prototype

variable {value : JsValue} {name : JsString}

theorem inherited_weight (prototype : JsValue) : (inherited prototype name).weight ≤ prototype.weight := by
  unfold inherited
  split
  · exact Nat.le_refl _
  · split <;> exact Nat.zero_le _

theorem item_weight {items : List JsonValue} (place : Nat) :
    ((items[place]?.map json).getD undefined).weight ≤ Json.heights items := by
  cases found : items[place]? with
  | none => exact Nat.zero_le _
  | some item => exact Json.height_item found

theorem readArray_weight {items : List JsonValue} : (readArray items name).weight ≤ 1 + Json.heights items := by
  unfold readArray
  split
  · exact Nat.le_trans (item_weight _) (Nat.le_add_left _ _)
  · split
    · exact Nat.zero_le _
    · split
      · exact Nat.zero_le _
      · exact inherited_weight (json (.array items))

theorem own_weight {fields : JsonFields} {otherwise : JsValue} {bound : Nat} (below : Json.fieldHeights fields < bound)
    (bounded : otherwise.weight ≤ bound) :
    (own fields name otherwise).weight ≤ bound ∧
      (name ∈ fields.map Prod.fst → (own fields name otherwise).weight < bound) := by
  unfold own
  cases held : fields.lookup name with
  | none =>
    refine ⟨bounded, fun listed => ?_⟩
    obtain ⟨found, other⟩ := mem_keys.mp listed
    rw [held] at other
    cases other
  | some found =>
    have field : (json found).weight ≤ Json.fieldHeights fields := Json.height_field held
    simp only [Option.map_some, Option.getD_some]
    omega

theorem object_weight (fields : JsonFields) : (json (.object fields)).weight = 1 + Json.fieldHeights fields := by
  rw [weight, Json.height]

theorem array_weight (items : List JsonValue) : (json (.array items)).weight = 1 + Json.heights items := by
  rw [weight, Json.height]

theorem readPrototype_weight (prototype : JsValue) : (readPrototype prototype name).weight ≤ prototype.weight := by
  unfold readPrototype
  split
  next name fields =>
    exact (own_weight (by rw [object_weight]; omega) (inherited_weight (json (.object fields)))).1
  next => exact Nat.le_trans readArray_weight (Nat.le_of_eq (array_weight _).symm)
  next => exact Nat.zero_le _
  next => exact inherited_weight _

/-- What an object is read as is no deeper than the object, and less deep if it is its own. -/
theorem read_weight (object : value.isJsonObject = true) :
    (value.read name).weight ≤ value.weight ∧ (name ∈ value.keys → (value.read name).weight < value.weight) := by
  match value, object with
  | json (.object fields), _ =>
    rw [object_weight]
    exact own_weight (by omega) (Nat.le_trans (inherited_weight objectPrototype) (Nat.le_add_right _ _))
  | copy fields prototype, _ =>
    exact own_weight (show _ < 1 + Json.fieldHeights fields + prototype.weight by omega)
      (Nat.le_trans (readPrototype_weight prototype) (Nat.le_add_left _ _))
  | objectPrototype, _ =>
    refine ⟨Nat.le_trans (inherited_weight (json .null)) (Nat.zero_le _), fun listed => ?_⟩
    cases listed

end JsValue

end Values

section Comparison
open JsValue

/-- The fields of a record but its state, assigned one by one to a new object. Assigning
`__proto__` sets the prototype, if the value can be one. -/
def withoutState (record : JsonFields) : JsValue :=
  .copy (record.filter fun field => field.1 ≠ units "state" ∧ field.1 ≠ protoKey)
    (match record.lookup protoKey with
      | some .null => .json .null
      | some (.object fields) => .json (.object fields)
      | some (.array items) => .json (.array items)
      | _ => .objectPrototype)

structure FieldChange where
  path : JsString
  was : JsValue
  now : JsValue

/-- The names either object has, by UTF-16 code units. -/
def comparedKeys (was now : JsValue) : List JsString :=
  (was.keys ++ now.keys).eraseDups.mergeSort fun one other => decide (one ≤ other)

theorem mem_comparedKeys {was now : JsValue} {name : JsString} :
    name ∈ comparedKeys was now ↔ name ∈ was.keys ∨ name ∈ now.keys := by
  rw [comparedKeys, (List.mergeSort_perm _ _).mem_iff, List.mem_eraseDups, List.mem_append]

/-- Every leaf-level difference between two values. -/
def fieldChanges (was now : JsValue) (path : JsString) : List FieldChange :=
  if was.same now then []
  else if was.isJsonObject ∧ now.isJsonObject then
    (comparedKeys was now).attach.flatMap fun ⟨name, _⟩ =>
      fieldChanges (was.read name) (now.read name) (if path = [] then name else path ++ units "." ++ name)
  else
    match was, now with
    | .json (.array items), .json (.array others) =>
      (List.range (max items.length others.length)).attach.flatMap fun ⟨place, _⟩ =>
        fieldChanges ((items[place]?.map json).getD .undefined) ((others[place]?.map json).getD .undefined)
          (path ++ units s!"[{place}]")
    | _, _ => [⟨path, was, now⟩]
termination_by was.weight + now.weight
decreasing_by
  · next objects member =>
    have first := @read_weight was name objects.1
    have second := @read_weight now name objects.2
    rcases mem_comparedKeys.mp member with listed | listed
    · have below := first.2 listed
      omega
    · have below := second.2 listed
      omega
  · have first := @item_weight items place
    have second := @item_weight others place
    rw [array_weight, array_weight]
    omega

end Comparison

section Succession

-- `JSON.stringify`, which has no text for what is undefined or a function.
variable (stringify : JsValue → Option JsString)

def shown : JsValue → JsString
  | .undefined => units "(absent)"
  | value => (stringify value).getD (units "undefined")

def ReleaseState.known : JsValue → Option ReleaseState
  | .json (.string value) => releaseStates.find? fun state => units state.label = value
  | _ => none

/-- The transition rule, made total over untrusted input. -/
def successionTransition (source target : JsValue) : ReleaseDecision :=
  match ReleaseState.known source, ReleaseState.known target with
  | some source, some target => releaseTransitionDecision source target
  | _, _ => .refused (units "state moved from " ++ shown stringify source ++ units " to " ++ shown stringify target ++
      units ", and a value outside Released, Deprecated, Retired names no governed lifecycle state")

structure RegistrySuccession where
  refusals : List ReleaseRefusal
  carried : Nat
  added : List JsonFields

inductive Side where
  | prior
  | current

def Side.label : Side → String
  | prior => "prior"
  | current => "current"

/-- A record's identity and fields. No prototype has these names. -/
def identity : JsonValue → Option ((JsString × JsString) × JsonFields)
  | .object fields =>
    match fields.lookup (units "familyId"), fields.lookup (units "version") with
    | some (.string familyId), some (.string version) => some ((familyId, version), fields)
    | _, _ => none
  | _ => none

def keyOf (name : JsString × JsString) : JsString := name.1 ++ units "@" ++ name.2

/-- The records of a side by key after those of `byKey`, and what is refused of them. -/
def index (side : Side) (byKey : List (JsString × JsonFields)) :
    List JsonValue → List ReleaseRefusal × List (JsString × JsonFields)
  | [] => ([], byKey)
  | record :: records =>
    match identity record with
    | none =>
      let (refusals, indexed) := index side byKey records
      (⟨"succession.record-malformed",
        units s!"a record in the {side.label} revision has no string familyId and version (" ++
          ((stringify (.json record)).map (·.take 120)).getD (units "undefined") ++
          units "); a record that cannot be identified cannot be proven not to be a deletion or a re-identification"⟩ ::
        refusals, indexed)
    | some (name, fields) =>
      if (byKey.lookup (keyOf name)).isSome then
        let (refusals, indexed) := index side byKey records
        (⟨"succession.identity-collision", units "\"" ++ keyOf name ++
          units s!"\" appears more than once in the {side.label} revision; (familyId, version) resolves to at most one record, forever"⟩ ::
          refusals, indexed)
      else index side (byKey ++ [(keyOf name, fields)]) records

def stateOf (fields : JsonFields) : JsValue := (JsValue.json (.object fields)).read (units "state")

def deletedRefusal (key : JsString) : ReleaseRefusal :=
  ⟨"succession.deleted", units "release \"" ++ key ++ units "\" existed at the prior governed revision and is gone. A released identity is permanent: deleting the record would let the version be minted again with different bytes, and an old run's evidence would become ambiguous"⟩

def mutatedRefusal (key : JsString) (change : FieldChange) : ReleaseRefusal :=
  ⟨"succession.mutated", units "release \"" ++ key ++ units "\": " ++ change.path ++ units " changed from " ++
    shown stringify change.was ++ units " to " ++ shown stringify change.now ++
    units ". A release is immutable — state is the only thing that may move; publish a new version"⟩

/-- What is refused of a carried record. -/
def carriedRefusals (key : JsString) (was now : JsonFields) : List ReleaseRefusal :=
  (fieldChanges (withoutState was) (withoutState now) []).map (mutatedRefusal stringify key) ++
  match successionTransition stringify (stateOf was) (stateOf now) with
  | .allowed => []
  | .refused because => [⟨"succession.transition", units "release \"" ++ key ++ units "\": " ++ because⟩]

/-- What is refused of a record of the prior revision. -/
def priorRefusals (currentByKey : List (JsString × JsonFields)) (key : JsString) (was : JsonFields) : List ReleaseRefusal :=
  match currentByKey.lookup key with
  | none => [deletedRefusal key]
  | some now => carriedRefusals stringify key was now

/-- What is refused of a record the prior revision does not have. -/
def addedRefusals (key : JsString) (record : JsonFields) : List ReleaseRefusal :=
  if (stateOf record).same (.json (.string (units "Released"))) then []
  else [⟨"succession.born-state", units "new release \"" ++ key ++
    units "\": a newly introduced identity must start at Released, not " ++
    (stringify (stateOf record)).getD (units "undefined") ++
    units ". Deprecated and Retired are reached by a governed transition from Released, never by creation"⟩]

/-- Compare a registry revision with its prior governed revision. -/
def validateRegistrySuccession (prior current : List JsonValue) : RegistrySuccession :=
  let (priorRefused, priorByKey) := index stringify .prior [] prior
  let (currentRefused, currentByKey) := index stringify .current [] current
  let added := currentByKey.filter fun (key, _) => (priorByKey.lookup key).isNone
  { refusals := priorRefused ++ currentRefused ++
      priorByKey.flatMap (fun (key, was) => priorRefusals stringify currentByKey key was) ++
      added.flatMap fun (key, record) => addedRefusals stringify key record
    carried := (priorByKey.filter fun (key, _) => (currentByKey.lookup key).isSome).length
    added := added.map Prod.snd }

end Succession

end SecureHome.Toolchain
