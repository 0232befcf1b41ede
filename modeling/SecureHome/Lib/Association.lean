import Mathlib.Data.List.Basic
import Mathlib.Data.List.Nodup
import Mathlib.Data.List.Sort

/-! Lists of keyed entries. A key is looked up as its first entry. -/

namespace SecureHome.Lib

variable {Key Value : Type*} [BEq Key] [LawfulBEq Key] {entries : List (Key × Value)} {key : Key} {value : Value}

theorem mem_keys : key ∈ entries.map Prod.fst ↔ ∃ value, entries.lookup key = some value := by
  rw [← Option.isSome_iff_exists, List.lookup_isSome_iff, List.mem_map]
  refine exists_congr fun entry => and_congr_right fun _ => ?_
  rw [beq_iff_eq]
  exact eq_comm

/-- Entries kept by key are looked up as they were. -/
theorem lookup_filter (keeps : Key → Bool) :
    (entries.filter fun entry => keeps entry.1).lookup key = if keeps key then entries.lookup key else none := by
  induction entries with
  | nil => simp
  | cons first rest ih =>
    rw [List.filter_cons]
    by_cases same : key = first.1
    · subst same
      split
      · rw [List.lookup_cons_self, List.lookup_cons_self]
      next dropped => rw [ih, if_neg dropped]
    · have skipped : (key == first.1) = false := by simpa using same
      split
      · rw [List.lookup_cons, List.lookup_cons, skipped]
        exact ih
      · rw [ih, List.lookup_cons, skipped]

theorem mem_of_lookup (found : entries.lookup key = some value) : (key, value) ∈ entries := by
  obtain ⟨before, after, rfl, _⟩ := List.lookup_eq_some_iff.mp found
  exact List.mem_append_right _ List.mem_cons_self

/-- Under distinct keys, an entry is what its key is looked up as. -/
theorem lookup_of_mem (distinct : (entries.map Prod.fst).Nodup) (member : (key, value) ∈ entries) :
    entries.lookup key = some value := by
  induction entries with
  | nil => cases member
  | cons first rest ih =>
    obtain ⟨alone, others⟩ := List.nodup_cons.mp distinct
    rcases List.mem_cons.mp member with rfl | later
    · exact List.lookup_cons_self
    · have skipped : (key == first.1) = false := by
        rw [beq_eq_false_iff_ne]
        exact fun same => alone (List.mem_map.mpr ⟨_, later, same⟩)
      rw [List.lookup_cons, skipped]
      exact ih others later

/-- Set a key, in its place if it has one and last otherwise. -/
def put {Key Value : Type*} [BEq Key] : List (Key × Value) → Key → Value → List (Key × Value)
  | [], key, value => [(key, value)]
  | (other, held) :: rest, key, value =>
    if key == other then (other, value) :: rest else (other, held) :: put rest key value

theorem lookup_put {other : Key} : (put entries key value).lookup other = if other == key then some value else entries.lookup other := by
  induction entries with
  | nil =>
    rw [put, List.lookup_cons]
    cases other == key <;> rfl
  | cons first rest ih =>
    obtain ⟨name, held⟩ := first
    rw [put]
    by_cases same : key = name
    · subst same
      rw [if_pos (beq_self_eq_true key), List.lookup_cons, List.lookup_cons]
      cases other == key <;> rfl
    · rw [if_neg (by simpa using same), List.lookup_cons, List.lookup_cons, ih]
      by_cases found : other = name
      · subst found
        rw [beq_self_eq_true, beq_false_of_ne (Ne.symm same)]
        rfl
      · rw [beq_false_of_ne found]

theorem mem_put_keys {other : Key} : other ∈ (put entries key value).map Prod.fst ↔ other = key ∨ other ∈ entries.map Prod.fst := by
  rw [mem_keys, mem_keys, lookup_put]
  by_cases same : other = key <;> simp [same]

theorem put_distinct (distinct : (entries.map Prod.fst).Nodup) : ((put entries key value).map Prod.fst).Nodup := by
  induction entries with
  | nil => simp [put]
  | cons first rest ih =>
    obtain ⟨alone, others⟩ := List.nodup_cons.mp distinct
    rw [put]
    by_cases same : key = first.1
    · rw [if_pos (by simpa using same)]
      exact distinct
    · rw [if_neg (by simpa using same), List.map_cons, List.nodup_cons, mem_put_keys, not_or]
      exact ⟨⟨Ne.symm same, alone⟩, ih others⟩

/-- A new key goes last. -/
theorem put_fresh (fresh : key ∉ entries.map Prod.fst) : put entries key value = entries ++ [(key, value)] := by
  induction entries with
  | nil => rfl
  | cons first rest ih =>
    obtain ⟨apart, later⟩ := not_or.mp (mt List.mem_cons.mpr fresh)
    rw [put, if_neg (by simpa using apart), ih later]
    rfl

/-- Entries of distinct keys stay as they are put. -/
theorem puts_fresh {others : List (Key × Value)} (distinct : ((entries ++ others).map Prod.fst).Nodup) :
    others.foldl (fun held entry => put held entry.1 entry.2) entries = entries ++ others := by
  induction others generalizing entries with
  | nil => rw [List.foldl_nil, List.append_nil]
  | cons first rest ih =>
    have fresh : first.1 ∉ entries.map Prod.fst := by
      rw [List.map_append, List.nodup_append] at distinct
      exact fun listed => distinct.2.2 _ listed _ List.mem_cons_self rfl
    rw [List.foldl_cons, put_fresh fresh, ih (by simpa using distinct), List.append_assoc]
    rfl

omit [BEq Key] [LawfulBEq Key] in
/-- Entries of distinct keys are in the order of their keys. -/
theorem eq_of_keys {others : List (Key × Value)} (keys : entries.map Prod.fst = others.map Prod.fst) (moved : entries.Perm others)
    (distinct : (others.map Prod.fst).Nodup) : entries = others := by
  apply List.ext_getElem moved.length_eq
  intro place within within'
  have key : entries[place].1 = others[place].1 := by
    have here := List.getElem_of_eq keys (by simpa using within : place < (entries.map Prod.fst).length)
    simpa only [List.getElem_map] using here
  exact List.inj_on_of_nodup_map distinct (moved.mem_iff.mp (List.getElem_mem within)) (List.getElem_mem within') key

/-- Under distinct keys, an order of the entries looks keys up as any other. -/
theorem lookup_perm {others : List (Key × Value)} (moved : entries.Perm others) (distinct : (entries.map Prod.fst).Nodup) :
    entries.lookup key = others.lookup key := by
  have distinct' : (others.map Prod.fst).Nodup := ((moved.map Prod.fst).nodup_iff).mp distinct
  apply Option.ext
  intro value
  constructor
  · intro found
    exact lookup_of_mem distinct' (moved.mem_iff.mp (mem_of_lookup found))
  · intro found
    exact lookup_of_mem distinct (moved.mem_iff.mpr (mem_of_lookup found))

/-- An ordering that puts entries of one key in their own order looks keys up as before. -/
theorem lookup_orderedInsert {before : Key × Value → Key × Value → Prop} [DecidableRel before]
    (alike : ∀ one other, one.1 = other.1 → before one other) {entry : Key × Value} :
    (entries.orderedInsert before entry).lookup key = (entry :: entries).lookup key := by
  induction entries with
  | nil => rfl
  | cons first rest ih =>
    rw [List.orderedInsert_cons]
    split
    · rfl
    next later =>
      have different : first.1 ≠ entry.1 := fun same => later (alike entry first same.symm)
      rw [List.lookup_cons, ih, List.lookup_cons, List.lookup_cons, List.lookup_cons]
      by_cases found : key = first.1
      · subst found
        rw [beq_self_eq_true, beq_false_of_ne different]
      · rw [beq_false_of_ne found]

theorem lookup_insertionSort {before : Key × Value → Key × Value → Prop} [DecidableRel before]
    (alike : ∀ one other, one.1 = other.1 → before one other) :
    (entries.insertionSort before).lookup key = entries.lookup key := by
  induction entries with
  | nil => rfl
  | cons first rest ih =>
    rw [List.insertionSort_cons, lookup_orderedInsert alike, List.lookup_cons, List.lookup_cons, ih]

theorem puts_distinct {Item : Type*} {keyOf : Item → Key} {valueOf : Item → Value} {items : List Item}
    (distinct : (entries.map Prod.fst).Nodup) :
    ((items.foldl (fun entries item => put entries (keyOf item) (valueOf item)) entries).map Prod.fst).Nodup := by
  induction items generalizing entries with
  | nil => exact distinct
  | cons item rest ih => exact ih (put_distinct distinct)

/-- Items put one after another are looked up as the last of each key. -/
theorem lookup_puts {Item : Type*} {keyOf : Item → Key} {valueOf : Item → Value} {items : List Item} :
    (items.foldl (fun entries item => put entries (keyOf item) (valueOf item)) entries).lookup key =
      ((items.reverse.find? (keyOf · == key)).map valueOf).or (entries.lookup key) := by
  induction items generalizing entries with
  | nil => rfl
  | cons item rest ih =>
    rw [List.foldl_cons, ih, lookup_put, List.reverse_cons, List.find?_append]
    cases rest.reverse.find? (keyOf · == key) with
    | some found => rfl
    | none =>
      rw [List.find?_singleton]
      by_cases same : key = keyOf item
      · subst same
        simp
      · rw [if_neg (by simpa using same), if_neg (by simpa using Ne.symm same)]
        rfl

theorem lookup_of_puts {Item : Type*} {keyOf : Item → Key} {valueOf : Item → Value} {items : List Item}
    (found : (items.foldl (fun entries item => put entries (keyOf item) (valueOf item)) []).lookup key = some value) :
    ∃ item ∈ items, keyOf item = key ∧ valueOf item = value := by
  rw [lookup_puts, List.lookup_nil, Option.or_none, Option.map_eq_some_iff] at found
  obtain ⟨item, first, held⟩ := found
  exact ⟨item, List.mem_reverse.mp (List.mem_of_find?_eq_some first), by simpa using List.find?_some first, held⟩

theorem lookup_puts_mem {Item : Type*} {keyOf : Item → Key} {valueOf : Item → Value} {items : List Item} {item : Item}
    (member : item ∈ items) (alone : ∀ other ∈ items, keyOf other = keyOf item → other = item) :
    (items.foldl (fun entries item => put entries (keyOf item) (valueOf item)) []).lookup (keyOf item) = some (valueOf item) := by
  rw [lookup_puts, List.lookup_nil, Option.or_none]
  cases first : items.reverse.find? (keyOf · == keyOf item) with
  | none => exact absurd (List.find?_eq_none.mp first item (List.mem_reverse.mpr member)) (by simp)
  | some found =>
    rw [alone found (List.mem_reverse.mp (List.mem_of_find?_eq_some first)) (by simpa using List.find?_some first)]
    rfl

/-- Where the items of a key agree, what is put under it is what they have. -/
theorem lookup_puts_iff {Item : Type*} {keyOf : Item → Key} {valueOf : Item → Value} {items : List Item}
    (agree : ∀ one ∈ items, ∀ other ∈ items, keyOf one = keyOf other → valueOf one = valueOf other) :
    (items.foldl (fun entries item => put entries (keyOf item) (valueOf item)) []).lookup key = some value ↔
      ∃ item ∈ items, keyOf item = key ∧ valueOf item = value := by
  constructor
  · exact lookup_of_puts
  · rintro ⟨item, member, rfl, rfl⟩
    rw [lookup_puts, List.lookup_nil, Option.or_none]
    cases first : items.reverse.find? (keyOf · == keyOf item) with
    | none => exact absurd (List.find?_eq_none.mp first item (List.mem_reverse.mpr member)) (by simp)
    | some found =>
      rw [Option.map_some, agree found (List.mem_reverse.mp (List.mem_of_find?_eq_some first)) item member]
      simpa using List.find?_some first

/-- An item of an image of its own is all there is of that image. -/
theorem filter_alone {Item Image : Type*} [DecidableEq Image] {image : Item → Image} {items : List Item} {item : Item}
    (distinct : (items.map image).Nodup) (member : item ∈ items) : (items.filter fun other => image other = image item) = [item] := by
  induction items with
  | nil => cases member
  | cons first rest ih =>
    obtain ⟨alone, others⟩ := List.nodup_cons.mp distinct
    rw [List.filter_cons]
    rcases List.mem_cons.mp member with rfl | later
    · rw [if_pos (decide_eq_true rfl), List.filter_eq_nil_iff.mpr fun other listed same => ?_]
      exact alone (List.mem_map.mpr ⟨other, listed, of_decide_eq_true same⟩)
    · rw [if_neg, ih others later]
      exact fun same => alone (List.mem_map.mpr ⟨item, later, (of_decide_eq_true same).symm⟩)

end SecureHome.Lib
