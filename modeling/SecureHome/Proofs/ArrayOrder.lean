import SecureHome.Lib.Sorting
import SecureHome.Proofs.CanonicalForm

/-! What the arrays of a governance document are sorted by. -/

namespace SecureHome.Governance
open Lib

inductive SortedBy where
  | property (name : String)
  | either (name otherwise : String)
  | joined (first second : String)
  | properties (names : List String)
  /-- Its own text. -/
  | text

/-- What an array is sorted by, by its place in the document. -/
def sortedBy (path : List JsString) : Option SortedBy :=
  let keyed (name : String) : Bool := path.getLast? = some (units name)
  let within (name : String) : Bool := path.contains (units name)
  if path.getLast?.any (entityArrayKeys.contains ·) then some (.property "id")
  else if keyed "historicalCompletions" then some (.property "landingId")
  else if keyed "decisionEvidence" then some (.property "adrId")
  else if keyed "sources" && within "decisionEvidence" then some (.properties ["path", "revision", "contentSha256", "selector"])
  else if keyed "rows" then some (.either "id" "path")
  else if keyed "planningSources" then some (.joined "revision" "path")
  else if keyed "primitiveSourceTuples" then some (.property "id")
  else if keyed "members" && !within "genesisCompletion" then some (.property "path")
  else if keyed "members" && within "genesisCompletion" then some (.property "landingId")
  else if path.getLast?.any (setArrayKeys.contains ·) then some .text
  else none

namespace SortedBy

/-- The texts members are compared by. -/
def texts : SortedBy → Value → List JsString
  | property name, member => [textOf (read member name)]
  | either name otherwise, member => [textOf (orElse (read member name) (read member otherwise))]
  | joined first second, member => [textOf (read member first) ++ units ":" ++ textOf (read member second)]
  | properties names, member => names.map fun name => textOf (read member name)
  | text, member => [stringify member]

/-- Members in the order of their texts. -/
def before (by_ : SortedBy) (left right : Value) : Bool := textsBefore (by_.texts left) (by_.texts right)

end SortedBy

theorem textsBefore_singleton {one other : JsString} : textsBefore [one] [other] = decide (one ≤ other) := by
  unfold textsBefore
  split
  next same =>
    subst same
    simp [textsBefore]
  next => rfl

/-- The members of an array are sorted by one key, or left as they are. -/
theorem orderMembers_eq (path : List JsString) (members : List Value) : orderMembers path members =
    match sortedBy path with
    | some key => members.insertionSort fun left right => key.before left right
    | none => members := by
  have single (keyOf : Value → JsString) : sortByText keyOf members =
      members.insertionSort fun left right => textsBefore [keyOf left] [keyOf right] = true := by
    unfold sortByText
    congr 1
    funext left right
    simp [textsBefore_singleton]
  unfold orderMembers sortedBy
  dsimp only
  split
  · exact single _
  split
  · exact single _
  split
  · exact single _
  split
  · rfl
  split
  · exact single _
  split
  · exact single _
  split
  · exact single _
  split
  · exact single _
  split
  · exact single _
  split
  · exact single _
  · rfl

theorem textsBefore_iff {texts others : List JsString} (long : texts.length = others.length) : textsBefore texts others = true ↔ texts ≤ others := by
  induction texts generalizing others with
  | nil =>
    obtain rfl := List.length_eq_zero_iff.mp long.symm
    simp [textsBefore]
  | cons text texts ih =>
    cases others with
    | nil => cases long
    | cons other others =>
      rw [textsBefore, List.cons_le_cons_iff]
      split
      next same =>
        subst same
        rw [ih (Nat.succ.inj long)]
        simp
      next apart =>
        rw [decide_eq_true_eq, List.le_iff_lt_or_eq]
        simp [apart]

theorem texts_length (key : SortedBy) (one other : Value) : (key.texts one).length = (key.texts other).length := by
  cases key <;> simp [SortedBy.texts]

theorem SortedBy.ranks (key : SortedBy) : Ranks key.before key.texts :=
  ranks_of_keys fun one other => textsBefore_iff (texts_length key one other)

section Keys

/-- The rank of a preferred key, and past all of them of any other. -/
def keyRank (preferred : List JsString) (key : JsString) : ℕ := if key ∈ preferred then preferred.idxOf key else preferred.length

theorem keyBefore_iff {preferred : List JsString} (few : preferred.length < 9007199254740991) {left right : JsString} :
    keyBefore preferred left right = true ↔
      keyRank preferred left < keyRank preferred right ∨ keyRank preferred left = keyRank preferred right ∧ left ≤ right := by
  have within {key : JsString} (listed : key ∈ preferred) : preferred.idxOf key < preferred.length := List.idxOf_lt_length_of_mem listed
  unfold keyBefore keyRank
  by_cases first : left ∈ preferred <;> by_cases second : right ∈ preferred
  · simp only [first, second, true_or, if_true, decide_eq_true_eq]
    constructor
    · intro ordered
      rcases Nat.lt_or_eq_of_le ordered with less | same
      · exact .inl less
      · exact .inr ⟨same, (List.idxOf_inj first).mp same ▸ Std.le_refl _⟩
    · omega
  · have place := within first
    simp only [first, second, true_or, if_true, if_false, decide_eq_true_eq]
    omega
  · have place := within second
    simp only [first, second, or_true, if_true, if_false, decide_eq_true_eq]
    omega
  · simp [first, second]

theorem order_few (kind : Option ObjectKind) : ((kind.map fun kind => kind.order.map units).getD []).length < 9007199254740991 := by
  cases kind with
  | none => decide
  | some kind => cases kind <;> decide

/-- The names of an object's properties rank them. -/
theorem names_rank {preferred : List JsString} (few : preferred.length < 9007199254740991) :
    Ranks (fun (one other : JsString × Value) => keyBefore preferred one.1 other.1) Prod.fst where
  trans first second third early late := by
    rw [keyBefore_iff few] at early late ⊢
    rcases early with less | ⟨same, ordered⟩
    · left
      omega
    · rcases late with less' | ⟨same', ordered'⟩
      · left
        omega
      · exact .inr ⟨same.trans same', Std.le_trans ordered ordered'⟩
  total first second := by
    rw [Bool.or_eq_true, keyBefore_iff few, keyBefore_iff few]
    have texts : first.1 ≤ second.1 ∨ second.1 ≤ first.1 := Std.le_total
    rcases Nat.lt_trichotomy (keyRank preferred first.1) (keyRank preferred second.1) with less | same | more
    · exact .inl (.inl less)
    · exact texts.imp (fun ordered => .inr ⟨same, ordered⟩) fun ordered => .inr ⟨same.symm, ordered⟩
    · exact .inr (.inl more)
  ties first second early late := by
    rw [keyBefore_iff few] at early late
    rcases early with less | ⟨_, ordered⟩
    · omega
    · rcases late with less' | ⟨_, ordered'⟩
      · omega
      · exact Std.le_antisymm ordered ordered'
  tied first second same := keyBefore_alike same

end Keys

end SecureHome.Governance
