import Mathlib.Data.Option.Basic
import Mathlib.Data.List.Forall2
import Mathlib.Data.List.Sort
import SecureHome.Lib.Association
import SecureHome.Lib.Unicode

/-! Parsed JSON values, and their deep equality: two values are equal if they look alike at
every path. A property is the first of its name, whatever follows it. -/

namespace SecureHome.Lib

/-- A parsed value, over the numbers of the platform. -/
inductive Json (Number : Type) where
  | null
  | boolean (value : Bool)
  | number (value : Number)
  | string (value : JsString)
  | array (items : List (Json Number))
  | object (fields : List (JsString × Json Number))

abbrev Fields (Number : Type) := List (JsString × Json Number)

/-- The index an array keeps a property of this name at. -/
def arrayIndex (key : JsString) : Option Nat :=
  let value := key.foldl (fun total unit => 10 * total + (unit.toNat - 0x30)) 0
  if key ≠ [] ∧ key.all (fun unit => 0x30 ≤ unit.toNat && unit.toNat ≤ 0x39) ∧ (key.head? ≠ some 0x30 ∨ key.length = 1) ∧
      value < 4294967295 then some value
  else none

/-- The order `Object.keys` gives the properties of an object. -/
def enumerated {Number : Type} (fields : Fields Number) : Fields Number :=
  (fields.filter fun field => (arrayIndex field.1).isSome).insertionSort
      (fun one other => (arrayIndex one.1).getD 0 ≤ (arrayIndex other.1).getD 0) ++
    fields.filter fun field => (arrayIndex field.1).isNone

theorem lookup_enumerated {Number : Type} {fields : Fields Number} {key : JsString} : (enumerated fields).lookup key = fields.lookup key := by
  unfold enumerated
  rw [List.lookup_append, lookup_insertionSort, lookup_filter (fun name => (arrayIndex name).isSome),
    lookup_filter (fun name => (arrayIndex name).isNone)]
  · cases arrayIndex key <;> simp
  · intro one other same
    rw [same]

theorem enumerated_map {Number Number' : Type} {fields : Fields Number} {convert : Json Number → Json Number'} :
    enumerated (fields.map fun field => (field.1, convert field.2)) = (enumerated fields).map fun field => (field.1, convert field.2) := by
  unfold enumerated
  rw [List.map_append, List.filter_map, List.filter_map]
  congr 1
  symm
  apply List.map_insertionSort
  exact fun _ _ _ _ => Iff.rfl

theorem enumerated_perm {Number : Type} (fields : Fields Number) : (enumerated fields).Perm fields := by
  unfold enumerated
  refine ((List.perm_insertionSort _ _).append_right _).trans ?_
  have opposite : (fields.filter fun field => (arrayIndex field.1).isNone) = fields.filter fun field => !(arrayIndex field.1).isSome := by
    congr 1
    funext field
    cases arrayIndex field.1 <;> rfl
  rw [opposite]
  exact List.filter_append_perm _ _

/-- Properties that are enumerated keep their order. -/
theorem enumerated_again {Number : Type} (fields : Fields Number) : enumerated (enumerated fields) = enumerated fields := by
  have total : Std.Total fun one other : JsString × Json Number => (arrayIndex one.1).getD 0 ≤ (arrayIndex other.1).getD 0 :=
    ⟨fun _ _ => Nat.le_total _ _⟩
  have trans : IsTrans (JsString × Json Number) fun one other => (arrayIndex one.1).getD 0 ≤ (arrayIndex other.1).getD 0 :=
    ⟨fun _ _ _ => Nat.le_trans⟩
  unfold enumerated
  generalize indexed : (fields.filter fun field => (arrayIndex field.1).isSome).insertionSort
    (fun one other => (arrayIndex one.1).getD 0 ≤ (arrayIndex other.1).getD 0) = first
  generalize named : (fields.filter fun field => (arrayIndex field.1).isNone) = second
  have sorted : first.Pairwise fun one other => (arrayIndex one.1).getD 0 ≤ (arrayIndex other.1).getD 0 := by
    rw [← indexed]
    exact List.pairwise_insertionSort _ _
  have indices : ∀ field ∈ first, (arrayIndex field.1).isSome = true := by
    intro field member
    rw [← indexed, List.mem_insertionSort] at member
    exact (List.mem_filter.mp member).2
  have names : ∀ field ∈ second, (arrayIndex field.1).isNone = true := by
    intro field member
    rw [← named] at member
    exact (List.mem_filter.mp member).2
  have unindexed : second.filter (fun field => (arrayIndex field.1).isSome) = [] := by
    refine List.filter_eq_nil_iff.mpr fun field member some_index => ?_
    rw [Option.isNone_iff_eq_none.mp (names field member)] at some_index
    cases some_index
  have unnamed : first.filter (fun field => (arrayIndex field.1).isNone) = [] := by
    refine List.filter_eq_nil_iff.mpr fun field member unindexed => ?_
    rw [Option.isNone_iff_eq_none] at unindexed
    have index := indices field member
    rw [unindexed] at index
    cases index
  rw [List.filter_append, List.filter_append, List.filter_eq_self.mpr indices, List.filter_eq_self.mpr names, unindexed, unnamed,
    List.append_nil, List.nil_append, sorted.insertionSort_eq]

namespace Json

variable {Number : Type}

inductive Step where
  | key (name : JsString)
  | index (place : Nat)

/-- What a value is, but for what it holds. -/
inductive Shape (Number : Type) where
  | null
  | boolean (value : Bool)
  | number (value : Number)
  | string (value : JsString)
  | array (length : Nat)
  | object

def shape : Json Number → Shape Number
  | null => .null
  | boolean value => .boolean value
  | number value => .number value
  | string value => .string value
  | array items => .array items.length
  | object _ => .object

def child : Json Number → Step → Option (Json Number)
  | object fields, .key name => fields.lookup name
  | array items, .index place => items[place]?
  | _, _ => none

mutual

/-- How deep a value goes. -/
def height : Json Number → Nat
  | array items => 1 + heights items
  | object fields => 1 + fieldHeights fields
  | _ => 0

def heights : List (Json Number) → Nat
  | [] => 0
  | item :: rest => max (height item) (heights rest)

def fieldHeights : List (JsString × Json Number) → Nat
  | [] => 0
  | (_, value) :: rest => max (height value) (fieldHeights rest)

end

section Map

variable {Number' : Type} (convert : Number → Number')

mutual

/-- A value with its numbers converted. -/
def map : Json Number → Json Number'
  | null => null
  | boolean value => boolean value
  | number value => number (convert value)
  | string value => string value
  | array items => array (mapItems items)
  | object fields => object (mapFields fields)

def mapItems : List (Json Number) → List (Json Number')
  | [] => []
  | item :: rest => map item :: mapItems rest

def mapFields : List (JsString × Json Number) → List (JsString × Json Number')
  | [] => []
  | (key, value) :: rest => (key, map value) :: mapFields rest

end

variable {convert}

theorem mapItems_eq (items : List (Json Number)) : mapItems convert items = items.map (map convert) := by
  induction items with
  | nil => rfl
  | cons item rest ih => rw [mapItems, ih, List.map_cons]

theorem mapFields_eq (fields : Fields Number) : mapFields convert fields = fields.map fun field => (field.1, map convert field.2) := by
  induction fields with
  | nil => rfl
  | cons field rest ih => rw [mapFields, ih, List.map_cons]

variable {Other : Type} {further : Number' → Other}

mutual

theorem map_map : (value : Json Number) → (value.map convert).map further = value.map (further ∘ convert)
  | null => rfl
  | boolean _ => rfl
  | number _ => rfl
  | string _ => rfl
  | array items => by rw [map, map, map, mapItems_map items]
  | object fields => by rw [map, map, map, mapFields_map fields]

theorem mapItems_map : (items : List (Json Number)) → mapItems further (mapItems convert items) = mapItems (further ∘ convert) items
  | [] => rfl
  | item :: rest => by rw [mapItems, mapItems, mapItems, map_map item, mapItems_map rest]

theorem mapFields_map : (fields : List (JsString × Json Number)) →
    mapFields further (mapFields convert fields) = mapFields (further ∘ convert) fields
  | [] => rfl
  | (_, value) :: rest => by rw [mapFields, mapFields, mapFields, map_map value, mapFields_map rest]

end

end Map

theorem height_item {items : List (Json Number)} {place : Nat} {item : Json Number} (found : items[place]? = some item) :
    item.height ≤ heights items := by
  induction items generalizing place with
  | nil => cases found
  | cons first rest ih =>
    rw [heights]
    cases place with
    | zero =>
      cases found
      exact Nat.le_max_left _ _
    | succ place => exact Nat.le_trans (ih found) (Nat.le_max_right _ _)

theorem height_field {fields : Fields Number} {name : JsString} {value : Json Number}
    (found : fields.lookup name = some value) : value.height ≤ fieldHeights fields := by
  induction fields with
  | nil => cases found
  | cons first rest ih =>
    obtain ⟨key, here⟩ := first
    rw [fieldHeights]
    rw [List.lookup_cons] at found
    split at found
    · cases found
      exact Nat.le_max_left _ _
    · exact Nat.le_trans (ih found) (Nat.le_max_right _ _)

/-- The value at a path. -/
def find (value : Json Number) : List Step → Option (Json Number)
  | [] => some value
  | step :: rest => (value.child step).bind fun below => below.find rest

/-- Alike at every path. -/
def DeepEqual (one other : Json Number) : Prop := ∀ path, (one.find path).map shape = (other.find path).map shape

theorem DeepEqual.refl (value : Json Number) : DeepEqual value value := fun _ => rfl

variable {one other third : Json Number}

theorem DeepEqual.symm (equal : DeepEqual one other) : DeepEqual other one := fun path => (equal path).symm

theorem DeepEqual.trans (first : DeepEqual one other) (second : DeepEqual other third) : DeepEqual one third := fun path =>
  (first path).trans (second path)

theorem DeepEqual.shape_eq (equal : DeepEqual one other) : one.shape = other.shape := Option.some.inj (equal [])

/-- Values of one shape are equal if their children are. -/
theorem deepEqual_iff : DeepEqual one other ↔
    one.shape = other.shape ∧ ∀ step, Option.Rel DeepEqual (one.child step) (other.child step) := by
  refine ⟨fun equal => ⟨equal.shape_eq, fun step => ?_⟩, fun ⟨same, children⟩ path => ?_⟩
  · have below (path : List Step) := equal (step :: path)
    simp only [find] at below
    cases first : one.child step with
    | none =>
      cases second : other.child step with
      | none => exact .none
      | some value =>
        have here := below []
        rw [first, second] at here
        cases here
    | some value =>
      cases second : other.child step with
      | none =>
        have here := below []
        rw [first, second] at here
        cases here
      | some next =>
        refine .some fun path => ?_
        have here := below path
        rw [first, second] at here
        exact here
  · cases path with
    | nil => exact congrArg some same
    | cons step rest =>
      have below := children step
      simp only [find]
      generalize one.child step = first at below ⊢
      generalize other.child step = second at below ⊢
      cases below with
      | none => rfl
      | some equal => exact equal rest

theorem deepEqual_object {fields others : Fields Number} : DeepEqual (object fields) (object others) ↔
    ∀ name, Option.Rel DeepEqual (fields.lookup name) (others.lookup name) := by
  rw [deepEqual_iff]
  refine ⟨fun ⟨_, children⟩ name => children (.key name), fun every => ⟨rfl, fun step => ?_⟩⟩
  cases step with
  | key name => exact every name
  | index place => exact .none

theorem deepEqual_array {items others : List (Json Number)} : DeepEqual (array items) (array others) ↔
    ∀ place : Nat, Option.Rel DeepEqual items[place]? others[place]? := by
  rw [deepEqual_iff]
  refine ⟨fun ⟨_, children⟩ place => children (.index place), fun every => ⟨?_, fun step => ?_⟩⟩
  · have bounded (place : Nat) : items.length ≤ place ↔ others.length ≤ place := by
      have here := every place
      rw [← List.getElem?_eq_none_iff, ← List.getElem?_eq_none_iff]
      generalize items[place]? = first at here ⊢
      generalize others[place]? = second at here ⊢
      cases here <;> simp
    refine congrArg Shape.array ?_
    have past := bounded items.length
    have within := bounded others.length
    omega
  · cases step with
    | key name => exact .none
    | index place => exact every place

end Json

end SecureHome.Lib
