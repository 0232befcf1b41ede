import SecureHome.Lib.Sorting
import SecureHome.Lib.Splitting
import Mathlib.Data.List.Lex

/-! Decision-free computation shared by producer and verifier: canonical ordering and
path normalization, as string computation only. -/

namespace SecureHome.Core
open Lib

/-- The UTF-16 code units of one character. -/
def unitsOf (character : Char) : List Nat :=
  if character.toNat < 0x10000 then [character.toNat]
  else [0xD800 + (character.toNat - 0x10000) / 0x400, 0xDC00 + (character.toNat - 0x10000) % 0x400]

/-- The UTF-16 code units a comparison of two texts reads. -/
def codeUnits (text : String) : List Nat := text.toList.flatMap unitsOf

/-- Stable sort by a text key. -/
def canonicalSort {Item : Type} (items : List Item) (keyOf : Item → String) : List Item :=
  items.mergeSort fun first second => decide (codeUnits (keyOf first) ≤ codeUnits (keyOf second))

/-- A letter, then letters, digits, `+`, `.` and `-`, then a colon. -/
def schemeQualified (raw : String) : Bool :=
  match raw.toList with
  | [] => false
  | first :: rest =>
    first.isAlpha && (rest.dropWhile fun character =>
      character.isAlphanum || character = '+' || character = '.' || character = '-').head? == some ':'

def segmentsOf (raw : String) : List (List Char) :=
  (raw.toList.splitOn '/').filter fun segment => segment ≠ [] ∧ segment ≠ ['.']

/-- Normalize a repository-relative path, or say why it cannot be. -/
def normalizePath (raw : String) : Except String String :=
  if raw = "" then .error "empty path"
  else if '\\' ∈ raw.toList then .error "backslash separator"
  else if raw.toList.head? = some '/' then .error "absolute path"
  else if schemeQualified raw then .error "scheme-qualified path"
  else if '\x00' ∈ raw.toList then .error "NUL byte"
  else if segmentsOf raw = [] then .error "no path components"
  else if ['.', '.'] ∈ segmentsOf raw then .error "traversal segment"
  else .ok (String.ofList (List.intercalate ['/'] (segmentsOf raw)))

/-- Component-wise prefix, of normalized paths. -/
def isPathPrefix (pathPrefix path : String) : Bool :=
  path == pathPrefix || (pathPrefix.toList ++ ['/']).isPrefixOf path.toList

example : normalizePath "./docs//a.md" = .ok "docs/a.md" := by decide +kernel
example : normalizePath "file:docs" = .error "scheme-qualified path" := by decide +kernel

/-- The units of a text tell its first character. -/
theorem unitsOf_append {first second : Char} {rest others : List Nat}
    (same : unitsOf first ++ rest = unitsOf second ++ others) : first = second ∧ rest = others := by
  have scalar (character : Char) : character.toNat < 0xD800 ∨ 0xDFFF < character.toNat ∧ character.toNat < 0x110000 :=
    character.valid
  have number : first.toNat = second.toNat ∧ rest = others := by
    have one := scalar first
    have other := scalar second
    unfold unitsOf at same
    split at same <;> split at same <;> simp only [List.cons_append, List.nil_append, List.cons.injEq] at same
    · exact same
    · omega
    · omega
    · exact ⟨by omega, same.2.2⟩
  exact ⟨Char.toNat_inj.mp number.1, number.2⟩

theorem codeUnits_injective : Function.Injective codeUnits := by
  have chars {one other : List Char} (same : one.flatMap unitsOf = other.flatMap unitsOf) : one = other := by
    have some_units (character : Char) (rest : List Nat) : unitsOf character ++ rest ≠ [] := by
      unfold unitsOf
      split <;> simp
    induction one generalizing other with
    | nil =>
      cases other with
      | nil => rfl
      | cons second others => exact absurd same.symm (some_units second _)
    | cons first rest ih =>
      cases other with
      | nil => exact absurd same (some_units first _)
      | cons second others =>
        obtain ⟨rfl, tail⟩ := unitsOf_append same
        rw [ih tail]
  exact fun first second same => String.toList_inj.mp (chars same)

section Sorted

variable {Item : Type} {keyOf : Item → String} {items others : List Item}

theorem canonicalSort_ranks (keyOf : Item → String) :
    Ranks (fun first second => decide (codeUnits (keyOf first) ≤ codeUnits (keyOf second))) keyOf where
  trans _ _ _ := by
    simp only [decide_eq_true_eq]
    exact le_trans
  total _ _ := by
    simp only [Bool.or_eq_true, decide_eq_true_eq]
    exact le_total _ _
  ties _ _ below above := codeUnits_injective (le_antisymm (of_decide_eq_true below) (of_decide_eq_true above))
  tied _ _ same := by
    simp only [decide_eq_true_eq, same]
    exact le_refl _

theorem canonicalSort_perm : (canonicalSort items keyOf).Perm items := List.mergeSort_perm _ _

/-- Entries of one key stay in the order they were presented in. -/
theorem canonicalSort_run (key : String) :
    (canonicalSort items keyOf).filter (keyOf · = key) = items.filter (keyOf · = key) :=
  (canonicalSort_ranks keyOf).mergeSort_run key items

/-- What the sorted order lets through of the presented one. -/
theorem canonicalSort_eq_iff : canonicalSort items keyOf = canonicalSort others keyOf ↔
    ∀ key, items.filter (keyOf · = key) = others.filter (keyOf · = key) :=
  (canonicalSort_ranks keyOf).mergeSort_eq_iff

/-- Where items of one key are one item, the order of presentation is gone. -/
theorem canonicalSort_unordered (perm : items.Perm others)
    (single : ∀ item ∈ items, ∀ other ∈ items, keyOf item = keyOf other → item = other) :
    canonicalSort items keyOf = canonicalSort others keyOf := by
  refine canonicalSort_eq_iff.mpr fun key => ?_
  have runs := perm.filter (keyOf · = key)
  cases run : items.filter (keyOf · = key) with
  | nil =>
    rw [run] at runs
    exact runs.nil_eq
  | cons first rest =>
    have named {item : Item} (member : item ∈ items.filter (keyOf · = key)) : item = first := by
      have leading : first ∈ items.filter (keyOf · = key) := run ▸ List.mem_cons_self
      obtain ⟨listed, keyed⟩ := List.mem_filter.mp member
      obtain ⟨also, headed⟩ := List.mem_filter.mp leading
      exact single item listed first also ((of_decide_eq_true keyed).trans (of_decide_eq_true headed).symm)
    rw [← run, List.eq_replicate_of_mem fun item member => named member,
      List.eq_replicate_of_mem fun item member => named (runs.mem_iff.mpr member), runs.length_eq]

end Sorted

/-- A normalized path is its own normal form, where it has one. -/
theorem normalizePath_again {raw path again : String} (normal : normalizePath raw = .ok path)
    (twice : normalizePath path = .ok again) : again = path := by
  have built {raw path : String} (normal : normalizePath raw = .ok path) :
      segmentsOf raw ≠ [] ∧ path.toList = List.intercalate ['/'] (segmentsOf raw) := by
    unfold normalizePath at normal
    repeat (split at normal; · cases normal)
    next some _ =>
      cases normal
      exact ⟨some, String.toList_ofList⟩
  obtain ⟨segments, text⟩ := built normal
  have kept : segmentsOf path = segmentsOf raw := by
    have apart (segment : List Char) (member : segment ∈ segmentsOf raw) : '/' ∉ segment :=
      splitOn_apart (List.mem_filter.mp member).1
    unfold segmentsOf at apart segments ⊢
    rw [text]
    unfold segmentsOf
    rw [List.splitOn_intercalate '/' apart segments, List.filter_filter]
    simp
  rw [← String.toList_inj, (built twice).2, kept, text]

end SecureHome.Core
