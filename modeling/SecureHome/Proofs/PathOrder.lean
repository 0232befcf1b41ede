import SecureHome.Proofs.ArchivedPackage
import SecureHome.Proofs.ArrayOrder
import SecureHome.Proofs.CanonicalText
import SecureHome.Proofs.NormalForm

/-! Two orders of one set of paths: the one a check asks for, and the one a canonical document
has. -/

namespace SecureHome.Governance
open Lib Toolchain

section Sorted

variable {Item Key : Type} {before : Item → Item → Bool} {keyOf : Item → Key} {items arrangement : List Item}

/-- Items told apart by their keys have one sorted arrangement. -/
theorem arrangement_sorted (ranks : Ranks before keyOf) (moved : arrangement.Perm items)
    (apart : ∀ one ∈ items, ∀ other ∈ items, keyOf one = keyOf other → one = other) :
    (items.insertionSort fun one other => before one other) = arrangement ↔
      arrangement.Pairwise fun one other => before one other = true := by
  constructor
  · intro same
    exact same ▸ ranks.insertionSort_sorted items
  · intro sorted
    rw [ranks.insertionSort_perm moved.symm apart]
    exact sorted.insertionSort_eq

theorem mergeSort_sorted (ranks : Ranks before keyOf) :
    items.mergeSort before = items ↔ items.Pairwise fun one other => before one other = true := by
  constructor
  · intro same
    exact same ▸ List.pairwise_mergeSort ranks.trans ranks.total items
  · exact List.mergeSort_of_pairwise

end Sorted

section Scopes

variable {paths arrangement place : List JsString}

theorem quote_injective {one other : JsString} (same : quote one = quote other) : one = other :=
  (@quote_unique one other [] [] (by simpa using same)).1

theorem byQuote_ranks : Ranks (fun one other => decide (quote one ≤ quote other)) quote := ranks_of_keys fun _ _ => decide_eq_true_iff

/-- Sorted as an array of a scope is. -/
theorem canonical_scope (scope : place.getLast? = some (units "scope")) : canonicalizeValue place (.array (paths.map .string)) =
    .array ((paths.insertionSort fun one other => decide (quote one ≤ quote other)).map .string) := by
  have strings (index : ℕ) : canonicalizeItems place index (paths.map .string) = paths.map .string := by
    induction paths generalizing index with
    | nil => rfl
    | cons first rest ih =>
      rw [List.map_cons, canonicalizeItems, ih]
      rfl
  have ordered (members : List Value) : orderMembers place members = sortByText stringify members := by
    unfold orderMembers
    simp only [scope]
    rfl
  rw [canonicalizeValue, strings, ordered]
  unfold sortByText
  congr 1
  symm
  apply List.map_insertionSort
  intro one _ other _
  simp [stringify]

theorem shapes_plain {index : Nat} (real : ∀ one ∈ paths, isRepoPath one = true) : memberShapes index (paths.map .string) = [] := by
  induction paths generalizing index with
  | nil => rfl
  | cons first rest ih =>
    obtain ⟨here, later⟩ := List.forall_mem_cons.mp real
    rw [List.map_cons, memberShapes, ih later]
    simp [isStringValue, stringOf, here]

theorem repeated_none {seen : List JsString} (distinct : paths.Nodup) (fresh : ∀ one ∈ paths, one ∉ seen) : repeatedPaths seen paths = [] := by
  induction paths generalizing seen with
  | nil => rfl
  | cons first rest ih =>
    obtain ⟨alone, later⟩ := List.nodup_cons.mp distinct
    obtain ⟨here, others⟩ := List.forall_mem_cons.mp fresh
    rw [repeatedPaths, if_neg here, ih later, List.nil_append]
    intro one member
    rw [List.mem_cons, not_or]
    exact ⟨fun same => alone (same ▸ member), others one member⟩

/-- An arrangement passes exactly if it is sorted by bytes. -/
theorem pathSet_sorted (distinct : arrangement.Nodup) (real : ∀ one ∈ arrangement, isRepoPath one = true) :
    canonicalPathSetProblems (some (.array (arrangement.map .string))) = [] ↔
      arrangement.Pairwise fun one other => decide (compareRepoPaths one other ≤ 0) = true := by
  have texts : (arrangement.map Json.string).map (stringOf : Value → JsString) = arrangement := by
    rw [List.map_map]
    exact List.map_id _
  have ranks : Ranks (fun one other => decide (compareRepoPaths one other ≤ 0)) encode := sortByBytes_ranks id
  rw [← mergeSort_sorted ranks]
  unfold canonicalPathSetProblems
  dsimp only
  rw [shapes_plain real, texts, repeated_none distinct (by simp), if_neg (by simp), if_neg (by simp)]
  simp

/-- The arrangement of a scope that passes is the canonical one. -/
def ScopeOrder (place paths : List JsString) : Prop := ∀ arrangement : List JsString, arrangement.Perm paths →
  (canonicalPathSetProblems (some (.array (arrangement.map .string))) = [] ↔
    canonicalizeValue place (.array (paths.map .string)) = .array (arrangement.map .string))

theorem scope_order_iff (scope : place.getLast? = some (units "scope")) (distinct : paths.Nodup)
    (real : ∀ one ∈ paths, isRepoPath one = true) :
    ScopeOrder place paths ↔ ∀ one ∈ paths, ∀ other ∈ paths, (compareRepoPaths one other ≤ 0 ↔ quote one ≤ quote other) := by
  have ranks : Ranks (fun one other => decide (compareRepoPaths one other ≤ 0)) encode := sortByBytes_ranks id
  have agree := @Ranks.arrangements_agree _ _ _ _ _ _ _ paths ranks byQuote_ranks fun one _ other _ => quote_injective
  simp only [decide_eq_true_iff] at agree
  rw [← agree]
  apply forall_congr'
  intro arrangement
  apply forall_congr'
  intro moved
  have same : canonicalizeValue place (.array (paths.map .string)) = .array (arrangement.map .string) ↔
      (paths.insertionSort fun one other => decide (quote one ≤ quote other)) = arrangement := by
    rw [canonical_scope scope, Json.array.injEq]
    exact (List.map_injective_iff.mpr fun _ _ => Json.string.inj).eq_iff
  rw [pathSet_sorted (moved.nodup_iff.mpr distinct) fun one member => real one (moved.mem_iff.mp member), same,
    arrangement_sorted byQuote_ranks moved fun one _ other _ => quote_injective]
  simp only [decide_eq_true_iff]

end Scopes

section Members

variable {member other : Value} {items arrangement others : List Value} {place : List JsString} {path : JsString} {index : Nat} {seen : List JsString}

/-- An archived member has its two properties, in one order or the other. -/
inductive MemberShape : Value → Prop where
  | named (path digest : JsString) : MemberShape (.object [(units "path", .string path), (units "contentSha256", .string digest)])
  | digested (path digest : JsString) : MemberShape (.object [(units "contentSha256", .string digest), (units "path", .string path)])

theorem textAt_string {name : String} {text : JsString} (held : textAt member name = some text) : read member name = some (.string text) := by
  unfold textAt at held
  split at held
  next found => rw [found, Option.some.inj held]
  · cases held

theorem oneMember_shape (clean : Clean (oneMemberStages path index seen member)) : MemberShape member := by
  have listed : Clean (memberStages path index seen [member]) := clean_append.mpr ⟨clean, clean_nil⟩
  obtain ⟨named, digested⟩ := (memberStages_clean listed).1 member (List.mem_singleton_self _)
  have named := textAt_string named
  have digested := textAt_string digested
  unfold oneMemberStages at clean
  have keys := (clean_cons.mp clean).1
  split at keys
  next shaped =>
    unfold exactKeys at keys
    rw [refuse_clean, decide_eq_false_iff_not, not_not] at keys
    have moved : (namesOf member).Perm (memberFields.map units) :=
      ((List.perm_insertionSort _ _).symm.trans (List.Perm.of_eq keys)).trans (List.perm_insertionSort _ _)
    cases member with
    | object fields =>
      have long : fields.length = 2 := by simpa [namesOf, memberFields] using moved.length_eq
      obtain ⟨⟨first, value⟩, ⟨second, value'⟩, rfl⟩ := List.length_eq_two.mp long
      have either : first = units "path" ∧ second = units "contentSha256" ∨ first = units "contentSha256" ∧ second = units "path" := by
        have same : [first, second].Perm [units "path", units "contentSha256"] := moved
        have apart : first ≠ second := by simpa using same.nodup_iff.mpr (by decide)
        have here : first = units "path" ∨ first = units "contentSha256" := by simpa using same.subset List.mem_cons_self
        have there : second = units "path" ∨ second = units "contentSha256" := by
          simpa using same.subset (List.mem_cons_of_mem _ List.mem_cons_self)
        rcases here with one | one
        · exact .inl ⟨one, there.resolve_left fun two => apart (one.trans two.symm)⟩
        · exact .inr ⟨one, there.resolve_right fun two => apart (one.trans two.symm)⟩
      have apart : (units "contentSha256" == units "path") = false ∧ (units "path" == units "contentSha256") = false := by decide
      rcases either with ⟨rfl, rfl⟩ | ⟨rfl, rfl⟩
      · simp only [read, Json.child, List.lookup_cons, apart, BEq.rfl, Option.some.injEq] at named digested
        rw [named, digested]
        exact .named _ _
      · simp only [read, Json.child, List.lookup_cons, apart, BEq.rfl, Option.some.injEq] at named digested
        rw [named, digested]
        exact .digested _ _
    | _ => cases shaped
  · cases keys

/-- A member is read in one way off its text. -/
theorem member_unique {rest rest' : JsString} (shape : MemberShape member) (shape' : MemberShape other)
    (same : stringify member ++ rest = stringify other ++ rest') : member = other ∧ rest = rest' := by
  have text (first second one two rest : JsString) :
      stringify (.object [(first, .string one), (second, .string two)]) ++ rest =
        0x7b :: (quote first ++ (0x3a :: (quote one ++ (0x2c :: (quote second ++ (0x3a :: (quote two ++ (0x7d :: rest)))))))) := by
    simp [stringify, stringifyFields, List.intercalate, List.intersperse, show units "\x7b" = [0x7b] from rfl, show units "," = [0x2c] from rfl,
      show units ":" = [0x3a] from rfl, show units "\x7d" = [0x7d] from rfl]
  have read (first second one two rest first' second' one' two' rest' : JsString)
      (same : stringify (.object [(first, .string one), (second, .string two)]) ++ rest =
        stringify (.object [(first', .string one'), (second', .string two')]) ++ rest') :
      first = first' ∧ one = one' ∧ second = second' ∧ two = two' ∧ rest = rest' := by
    rw [text, text] at same
    obtain ⟨rfl, afterKey⟩ := quote_unique (List.cons.inj same).2
    obtain ⟨rfl, afterValue⟩ := quote_unique (List.cons.inj afterKey).2
    obtain ⟨rfl, afterNext⟩ := quote_unique (List.cons.inj afterValue).2
    obtain ⟨rfl, done⟩ := quote_unique (List.cons.inj afterNext).2
    exact ⟨rfl, rfl, rfl, rfl, (List.cons.inj done).2⟩
  have apart : units "path" ≠ units "contentSha256" := by decide
  cases shape with
  | named one two =>
    cases shape' with
    | named one' two' =>
      obtain ⟨_, rfl, _, rfl, rfl⟩ := read _ _ _ _ _ _ _ _ _ _ same
      exact ⟨rfl, rfl⟩
    | digested one' two' => exact absurd (read _ _ _ _ _ _ _ _ _ _ same).1 apart
  | digested one two =>
    cases shape' with
    | named one' two' => exact absurd (read _ _ _ _ _ _ _ _ _ _ same).1.symm apart
    | digested one' two' =>
      obtain ⟨_, rfl, _, rfl, rfl⟩ := read _ _ _ _ _ _ _ _ _ _ same
      exact ⟨rfl, rfl⟩

/-- As many members are told apart by the text of their array. -/
theorem members_unique (shapes : ∀ member ∈ items, MemberShape member) (shapes' : ∀ member ∈ others, MemberShape member)
    (long : items.length = others.length) (same : stringify (.array items) = stringify (.array others)) : items = others := by
  have joined {items others : List Value} (shapes : ∀ member ∈ items, MemberShape member) (shapes' : ∀ member ∈ others, MemberShape member)
      (long : items.length = others.length) (rest rest' : JsString)
      (same : (units ",").intercalate (stringifyItems items) ++ rest = (units ",").intercalate (stringifyItems others) ++ rest') :
      items = others := by
    induction items generalizing others with
    | nil => exact (List.length_eq_zero_iff.mp long.symm).symm
    | cons member items ih =>
      obtain ⟨first, others, rfl⟩ := List.exists_cons_of_length_eq_add_one long.symm
      obtain ⟨here, later⟩ := List.forall_mem_cons.mp shapes
      obtain ⟨here', later'⟩ := List.forall_mem_cons.mp shapes'
      have long' : items.length = others.length := Nat.succ.inj long
      cases items with
      | nil =>
        obtain rfl := List.length_eq_zero_iff.mp long'.symm
        rw [(member_unique here here' (by simpa [stringifyItems, List.intercalate] using same)).1]
      | cons next items =>
        obtain ⟨second, others, rfl⟩ := List.exists_cons_of_length_eq_add_one long'.symm
        have step (text : JsString) (more : List JsString) (third : JsString) : (units ",").intercalate (text :: third :: more) =
            text ++ 0x2c :: (units ",").intercalate (third :: more) := by
          simp [List.intercalate, List.intersperse, show units "," = [0x2c] from rfl]
        simp only [stringifyItems, step, List.append_assoc, List.cons_append] at same
        obtain ⟨rfl, after⟩ := member_unique here here' same
        rw [ih later later' long' (List.cons.inj after).2]
  apply joined shapes shapes' long (units "]") (units "]")
  simpa [stringify] using same

theorem memberStages_shapes (clean : Clean (memberStages path index seen items)) : ∀ member ∈ items, MemberShape member := by
  induction items generalizing index seen with
  | nil => simp
  | cons member items ih =>
    obtain ⟨here, later⟩ := clean_append.mp clean
    exact List.forall_mem_cons.mpr ⟨oneMember_shape here, ih later⟩

def nameOf (member : Value) : JsString := (memberPair member).1

/-- The paths of the members of an array. -/
def namesIn : Value → List JsString
  | .array items => items.map nameOf
  | _ => []

theorem byName_ranks : Ranks (fun one other => decide (nameOf one ≤ nameOf other)) nameOf := ranks_of_keys fun _ _ => decide_eq_true_iff

/-- An arrangement of archived members passes exactly if it is sorted by bytes. -/
theorem membersSorted_iff (shapes : ∀ member ∈ arrangement, MemberShape member) :
    membersSorted arrangement = true ↔ arrangement.Pairwise fun one other => decide (byBytes (nameOf one) (nameOf other) ≤ 0) = true := by
  rw [← mergeSort_sorted (sortByBytes_ranks nameOf)]
  unfold membersSorted
  rw [decide_eq_true_iff]
  constructor
  · intro same
    have moved : (sortByBytes nameOf arrangement).Perm arrangement := sortByBytes_perm
    exact members_unique (fun member listed => shapes member (moved.mem_iff.mp listed)) shapes moved.length_eq same
  · intro same
    exact congrArg (fun items => stringify (.array items)) same

/-- The paths of a canonical member array, sorted by their units. -/
theorem canonical_members (last : place.getLast? = some (units "members")) (ordinary : units "genesisCompletion" ∉ place)
    (shapes : ∀ member ∈ items, MemberShape member) : namesIn (canonicalizeValue place (.array items)) =
      (items.insertionSort fun one other => decide (nameOf one ≤ nameOf other)).map nameOf := by
  have ordered (members : List Value) : orderMembers place members = sortByText nameOf members := by
    unfold orderMembers
    simp only [last, List.contains_eq_mem, ordinary]
    rfl
  have kept (member : Value) (listed : member ∈ items) : nameOf (canonicalizeValue (place ++ [memberStep]) member) = nameOf member := by
    have texts : (read member "path").all hasText = true := by cases shapes member listed <;> rfl
    unfold nameOf memberPair
    rw [read_canonical (by decide) texts]
  rw [canonicalizeValue, canonicalizeItems_map, ordered]
  unfold namesIn sortByText
  dsimp only
  have sorted (members : List Value) : (members.insertionSort fun one other => nameOf one ≤ nameOf other).map nameOf =
      (members.map nameOf).insertionSort fun one other => one ≤ other :=
    List.map_insertionSort _ _ _ _ fun _ _ _ _ => Iff.rfl
  have names : (items.map (canonicalizeValue (place ++ [memberStep]))).map nameOf = items.map nameOf := by
    rw [List.map_map]
    exact List.map_congr_left kept
  rw [sorted, names, ← sorted]
  simp only [decide_eq_true_iff]

/-- Items told apart by what they are mapped to. -/
theorem map_unique {Item Key : Type} {keyOf : Item → Key} {items others : List Item}
    (apart : ∀ one ∈ items, ∀ other ∈ others, keyOf one = keyOf other → one = other) (same : items.map keyOf = others.map keyOf) :
    items = others := by
  induction items generalizing others with
  | nil => exact (List.map_eq_nil_iff.mp same.symm).symm
  | cons item items ih =>
    obtain ⟨other, rest, rfl, here, later⟩ := List.map_eq_cons_iff.mp same.symm
    rw [apart item List.mem_cons_self other List.mem_cons_self here.symm, ih _ later.symm]
    intro one member two member'
    exact apart one (List.mem_cons_of_mem _ member) two (List.mem_cons_of_mem _ member')

/-- The arrangement of archived members that passes has the canonical order of paths. -/
def MemberOrder (place : List JsString) (items : List Value) : Prop := ∀ arrangement : List Value, arrangement.Perm items →
  (membersSorted arrangement = true ↔ namesIn (canonicalizeValue place (.array items)) = arrangement.map nameOf)

theorem member_order_iff (last : place.getLast? = some (units "members")) (ordinary : units "genesisCompletion" ∉ place)
    (archived : Clean (memberStages path 0 [] items)) :
    MemberOrder place items ↔ ∀ one ∈ items, ∀ other ∈ items, (byBytes (nameOf one) (nameOf other) ≤ 0 ↔ nameOf one ≤ nameOf other) := by
  have shapes := memberStages_shapes archived
  have distinct : (items.map nameOf).Nodup := (memberStages_clean archived).2.1
  have apart (one : Value) (member : one ∈ items) (other : Value) (member' : other ∈ items) (same : nameOf one = nameOf other) : one = other :=
    List.inj_on_of_nodup_map distinct member member' same
  have agree := (sortByBytes_ranks nameOf).arrangements_agree byName_ranks apart
  simp only [decide_eq_true_iff] at agree
  rw [← agree]
  apply forall_congr'
  intro arrangement
  apply forall_congr'
  intro moved
  have same : namesIn (canonicalizeValue place (.array items)) = arrangement.map nameOf ↔
      (items.insertionSort fun one other => decide (nameOf one ≤ nameOf other)) = arrangement := by
    rw [canonical_members last ordinary shapes]
    constructor
    · intro names
      have sorted := List.perm_insertionSort (fun one other => decide (nameOf one ≤ nameOf other) = true) items
      apply map_unique _ names
      intro one member other member'
      exact apart one (sorted.mem_iff.mp member) other (moved.mem_iff.mp member')
    · exact congrArg _
  rw [membersSorted_iff fun member listed => shapes member (moved.mem_iff.mp listed), same, arrangement_sorted byName_ranks moved apart]
  simp only [decide_eq_true_iff]

end Members

section Orders

def hexDigest : JsString := List.replicate 64 0x61

end Orders

end SecureHome.Governance
