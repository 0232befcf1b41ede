import Mathlib.Data.List.Basic
import Mathlib.Data.List.Pairwise
import Mathlib.Data.List.Sort

/-! Stable sorting. A sorted list is determined by the runs of its keys, and a stable
sort keeps every run. -/

namespace SecureHome.Lib

variable {Item Key : Type*} [DecidableEq Key] {before : Item → Item → Bool} {keyOf : Item → Key}

/-- A total preorder of items whose ties are the items of one key. -/
structure Ranks (before : Item → Item → Bool) (keyOf : Item → Key) : Prop where
  trans : ∀ first second third, before first second = true → before second third = true → before first third = true
  total : ∀ first second, (before first second || before second first) = true
  ties : ∀ first second, before first second = true → before second first = true → keyOf first = keyOf second
  tied : ∀ first second, keyOf first = keyOf second → before first second = true

namespace Ranks

/-- The items of one key, in the order of the list. -/
abbrev run (keyOf : Item → Key) (key : Key) (items : List Item) : List Item := items.filter (keyOf · = key)

theorem mergeSort_run (ranks : Ranks before keyOf) (key : Key) (items : List Item) :
    run keyOf key (items.mergeSort before) = run keyOf key items := by
  have tied : (run keyOf key items).Pairwise fun first second => before first second = true := by
    refine List.pairwise_iff_forall_sublist.mpr fun {first second} within => ranks.tied first second ?_
    have named (item : Item) (member : item ∈ run keyOf key items) : keyOf item = key := by
      simpa using (List.mem_filter.mp member).2
    exact (named first (within.subset (by simp))).trans (named second (within.subset (by simp))).symm
  have kept := (List.sublist_mergeSort ranks.trans ranks.total tied List.filter_sublist).filter (keyOf · = key)
  rw [List.filter_filter, show (fun item => decide (keyOf item = key) && decide (keyOf item = key)) =
    fun item => decide (keyOf item = key) from funext fun _ => Bool.and_self _] at kept
  exact (kept.eq_of_length ((List.mergeSort_perm items before).filter _).length_eq.symm).symm

/-- Two sorted lists with the same runs are one list. -/
theorem sorted_unique (ranks : Ranks before keyOf) {first second : List Item}
    (sorted : first.Pairwise fun one other => before one other = true)
    (ordered : second.Pairwise fun one other => before one other = true)
    (runs : ∀ key, run keyOf key first = run keyOf key second) : first = second := by
  have holds {one other : List Item} (runs : ∀ key, run keyOf key one = run keyOf key other) {item : Item}
      (member : item ∈ one) : item ∈ other := by
    have kept : item ∈ run keyOf (keyOf item) one := List.mem_filter.mpr ⟨member, by simp⟩
    rw [runs] at kept
    exact (List.mem_filter.mp kept).1
  induction first generalizing second with
  | nil =>
    cases second with
    | nil => rfl
    | cons item rest => exact absurd (holds (fun key => (runs key).symm) List.mem_cons_self) List.not_mem_nil
  | cons item rest ih =>
    cases second with
    | nil => exact absurd (holds runs List.mem_cons_self) List.not_mem_nil
    | cons other others =>
      have least {item : Item} {rest : List Item}
          (sorted : (item :: rest).Pairwise fun one other => before one other = true) (one : Item)
          (member : one ∈ item :: rest) : before item one = true := by
        rcases List.mem_cons.mp member with rfl | later
        · exact ranks.tied _ _ rfl
        · exact (List.pairwise_cons.mp sorted).1 one later
      have tied : keyOf item = keyOf other := ranks.ties item other
        (least sorted other (holds (fun key => (runs key).symm) List.mem_cons_self))
        (least ordered item (holds runs List.mem_cons_self))
      have heads := runs (keyOf item)
      simp only [run, List.filter_cons, decide_true, if_true, ← tied] at heads
      obtain ⟨rfl, _⟩ := List.cons.inj heads
      refine congrArg _ (ih (List.pairwise_cons.mp sorted).2 (List.pairwise_cons.mp ordered).2 fun key => ?_)
      have same := runs key
      simp only [run, List.filter_cons] at same ⊢
      split at same
      · exact (List.cons.inj same).2
      · exact same

/-- A stable sort tells two lists apart exactly by their runs. -/
theorem mergeSort_eq_iff (ranks : Ranks before keyOf) {first second : List Item} :
    first.mergeSort before = second.mergeSort before ↔ ∀ key, run keyOf key first = run keyOf key second := by
  refine ⟨fun same key => ?_, fun runs => ?_⟩
  · rw [← ranks.mergeSort_run key first, same, ranks.mergeSort_run]
  · refine ranks.sorted_unique (List.pairwise_mergeSort ranks.trans ranks.total first)
      (List.pairwise_mergeSort ranks.trans ranks.total second) fun key => ?_
    rw [ranks.mergeSort_run, ranks.mergeSort_run]
    exact runs key

omit [DecidableEq Key] in
theorem insertionSort_sorted (ranks : Ranks before keyOf) (items : List Item) :
    (items.insertionSort fun one other => before one other).Pairwise fun one other => before one other = true := by
  have total : Std.Total fun one other => before one other = true := ⟨fun one other => by simpa using ranks.total one other⟩
  have trans : IsTrans Item fun one other => before one other = true := ⟨ranks.trans⟩
  exact List.pairwise_insertionSort _ items

omit [DecidableEq Key] in
/-- Sorting again changes nothing. -/
theorem insertionSort_again (ranks : Ranks before keyOf) (items : List Item) :
    (items.insertionSort fun one other => before one other).insertionSort (fun one other => before one other) =
      items.insertionSort fun one other => before one other :=
  (ranks.insertionSort_sorted items).insertionSort_eq

omit [DecidableEq Key] in
/-- Items told apart by their keys are sorted in one way. -/
theorem insertionSort_perm (ranks : Ranks before keyOf) {items others : List Item} (moved : items.Perm others)
    (apart : ∀ one ∈ items, ∀ other ∈ items, keyOf one = keyOf other → one = other) :
    (items.insertionSort fun one other => before one other) = others.insertionSort fun one other => before one other := by
  apply List.Perm.eq_of_pairwise _ (ranks.insertionSort_sorted items) (ranks.insertionSort_sorted others)
  · exact ((List.perm_insertionSort _ items).trans moved).trans (List.perm_insertionSort _ others).symm
  · intro one other member member' first second
    have here := (List.mem_insertionSort _).mp member
    have there := moved.mem_iff.mpr ((List.mem_insertionSort _).mp member')
    exact apart one here other there (ranks.ties one other first second)

omit [DecidableEq Key] in
/-- Items told apart by their keys are sorted in one way. -/
theorem mergeSort_perm (ranks : Ranks before keyOf) {items others : List Item} (moved : items.Perm others)
    (apart : ∀ one ∈ items, ∀ other ∈ items, keyOf one = keyOf other → one = other) : items.mergeSort before = others.mergeSort before := by
  apply List.Perm.eq_of_pairwise _ (List.pairwise_mergeSort ranks.trans ranks.total items)
    (List.pairwise_mergeSort ranks.trans ranks.total others)
  · exact ((List.mergeSort_perm items before).trans moved).trans (List.mergeSort_perm others before).symm
  · intro one other member member' first second
    have here := (List.mergeSort_perm items before).mem_iff.mp member
    have there := moved.mem_iff.mpr ((List.mergeSort_perm others before).mem_iff.mp member')
    exact apart one here other there (ranks.ties one other first second)

omit [DecidableEq Key] in
/-- Whatever order they come in, items are sorted to the same keys. -/
theorem mergeSort_keys (ranks : Ranks before keyOf) {items others : List Item} (moved : items.Perm others) :
    (items.mergeSort before).map keyOf = (others.mergeSort before).map keyOf := by
  have ranked {list : List Item} : ((list.mergeSort before).map keyOf).Pairwise fun key key' =>
      ∀ one other, keyOf one = key → keyOf other = key' → before one other = true := by
    rw [List.pairwise_map]
    apply (List.pairwise_mergeSort ranks.trans ranks.total list).imp
    intro one other held first second same same'
    exact ranks.trans _ _ _ (ranks.tied _ _ same) (ranks.trans _ _ _ held (ranks.tied _ _ same'.symm))
  apply List.Perm.eq_of_pairwise _ ranked ranked
  · exact (((List.mergeSort_perm items before).trans moved).trans (List.mergeSort_perm others before).symm).map keyOf
  · intro key key' member member' first second
    obtain ⟨one, _, rfl⟩ := List.mem_map.mp member
    obtain ⟨other, _, rfl⟩ := List.mem_map.mp member'
    exact ranks.ties one other (first one other rfl rfl) (second other one rfl rfl)

section Agreement

/-- Of two items of a sorted list, one stands first. -/
theorem pairwise_either {Relation : Item → Item → Prop} {items : List Item} (sorted : items.Pairwise Relation) {one other : Item}
    (member : one ∈ items) (member' : other ∈ items) (apart : one ≠ other) : Relation one other ∨ Relation other one := by
  have symmetric : Std.Symm fun one other => Relation one other ∨ Relation other one := ⟨fun _ _ => Or.symm⟩
  exact @List.Pairwise.forall _ _ _ symmetric (sorted.imp .inl) _ member _ member' apart

omit [DecidableEq Key]

variable {Key' : Type*} {after : Item → Item → Bool} {keyOf' : Item → Key'}

/-- Ordered by one, and against another where the one has ties. -/
def mixed (before after : Item → Item → Bool) (one other : Item) : Bool := before one other && (!before other one || after other one)

theorem mixed_trans (ranks : Ranks before keyOf) (others : Ranks after keyOf') (one other third : Item)
    (first : mixed before after one other = true) (second : mixed before after other third = true) :
    mixed before after one third = true := by
  simp only [mixed, Bool.and_eq_true, Bool.or_eq_true, Bool.not_eq_true'] at first second ⊢
  refine ⟨ranks.trans _ _ _ first.1 second.1, ?_⟩
  cases tied : before third one with
  | false => exact .inl rfl
  | true =>
    have late : before third other = true := ranks.trans _ _ _ tied first.1
    have early : before other one = true := ranks.trans _ _ _ second.1 tied
    exact .inr (others.trans _ _ _ (second.2.resolve_left (by simp [late])) (first.2.resolve_left (by simp [early])))

theorem mixed_total (ranks : Ranks before keyOf) (others : Ranks after keyOf') (one other : Item) :
    (mixed before after one other || mixed before after other one) = true := by
  have first := ranks.total one other
  have second := others.total one other
  rw [Bool.or_eq_true] at first second
  unfold mixed
  cases below : before one other <;> cases above : before other one
  · simp [below, above] at first
  · simp
  · simp
  · simpa using second.symm

/-- Two orders, one of them without ties, sort every arrangement of some items alike exactly if they agree on any two of them. -/
theorem arrangements_agree {items : List Item} (ranks : Ranks before keyOf) (others : Ranks after keyOf')
    (apart : ∀ one ∈ items, ∀ other ∈ items, keyOf' one = keyOf' other → one = other) :
    (∀ arrangement : List Item, arrangement.Perm items → (arrangement.Pairwise (fun one other => before one other = true) ↔
      arrangement.Pairwise fun one other => after one other = true)) ↔
    ∀ one ∈ items, ∀ other ∈ items, (before one other = true ↔ after one other = true) := by
  constructor
  · intro alike one member other member'
    by_cases same : one = other
    · rw [same, iff_true_right (others.tied _ _ rfl)]
      exact ranks.tied _ _ rfl
    constructor
    · intro below
      have moved := List.mergeSort_perm items (mixed before after)
      have sorted := List.pairwise_mergeSort (mixed_trans ranks others) (mixed_total ranks others) items
      have sorted' := (alike _ moved).mp (sorted.imp fun held => (Bool.and_eq_true_iff.mp held).1)
      rcases pairwise_either (sorted.and sorted') (moved.mem_iff.mpr member) (moved.mem_iff.mpr member') same with first | second
      · exact first.2
      · have reversed := (Bool.and_eq_true_iff.mp second.1).2
        simpa [below] using reversed
    · intro below
      have moved := List.mergeSort_perm items after
      have sorted := List.pairwise_mergeSort others.trans others.total items
      have sorted' := (alike _ moved).mpr sorted
      rcases pairwise_either (sorted.and sorted') (moved.mem_iff.mpr member) (moved.mem_iff.mpr member') same with first | second
      · exact first.2
      · exact absurd (apart one member other member' (others.ties one other below second.1)) same
  · intro agree arrangement moved
    have listed {item : Item} (member : item ∈ arrangement) : item ∈ items := moved.mem_iff.mp member
    constructor
    · intro sorted
      exact sorted.imp_of_mem fun one other held => (agree _ (listed one) _ (listed other)).mp held
    · intro sorted
      exact sorted.imp_of_mem fun one other held => (agree _ (listed one) _ (listed other)).mpr held

end Agreement

end Ranks

/-- A linear order of keys ranks the items. -/
theorem ranks_of_keys {Key : Type*} [LE Key] [Std.IsLinearOrder Key] {before : Item → Item → Bool} {keyOf : Item → Key}
    (keys : ∀ one other, before one other = true ↔ keyOf one ≤ keyOf other) : Ranks before keyOf where
  trans first second third early late := (keys first third).mpr (Std.le_trans ((keys first second).mp early) ((keys second third).mp late))
  total first second := by
    rw [Bool.or_eq_true, keys, keys]
    exact Std.le_total
  ties first second early late := Std.le_antisymm ((keys first second).mp early) ((keys second first).mp late)
  tied first second same := (keys first second).mpr (same ▸ Std.le_refl _)

end SecureHome.Lib
