import SecureHome.Lib.Association
import SecureHome.Lib.Splitting
import Mathlib.Logic.Relation

/-! Revisions of a repository: trees of files, the commits that carry them, and the changes between
two trees as they are listed and printed. Paths and texts are bytes. -/

namespace SecureHome.Lib

/-- The bytes of a text. -/
def bytes (text : String) : List UInt8 := text.toList.flatMap String.utf8EncodeChar

section Trees

inductive FileMode where
  | regular
  | executable
  | symlink
  deriving DecidableEq, Repr

structure FileEntry where
  mode : FileMode
  blob : List UInt8
  deriving DecidableEq, Repr

/-- The files of a revision by path. -/
structure FileTree where
  files : List (List UInt8 × FileEntry)
  distinct : (files.map Prod.fst).Nodup

def FileTree.entryAt (tree : FileTree) (path : List UInt8) : Option FileEntry := tree.files.lookup path

/-- The files in a directory, named from there. -/
def FileTree.below (tree : FileTree) (directory : List UInt8) : List (List UInt8 × FileEntry) :=
  tree.files.filterMap fun (path, entry) =>
    if (directory ++ [0x2f]).isPrefixOf path then some (path.drop (directory.length + 1), entry) else none

/-- The objects that a path of a revision may name. -/
inductive NamedObject where
  | blob (bytes : List UInt8)
  | directory (files : List (List UInt8 × FileEntry))
  deriving DecidableEq, Repr

/-- `git rev-parse <revision>:<path>`. -/
def FileTree.revParse (tree : FileTree) (path : List UInt8) : Option NamedObject :=
  match tree.entryAt path with
  | some entry => some (.blob entry.blob)
  | none => match tree.below path with
    | [] => none
    | files => some (.directory files)

/-- `git cat-file --batch-check`, of what is a blob. -/
def FileTree.blobAt (tree : FileTree) (path : List UInt8) : Option (List UInt8) := (tree.entryAt path).map (·.blob)

/-- `git ls-tree -r -z --name-only <revision> -- <path>`, for a file, or a directory with or without its slash. -/
def FileTree.lsTree (tree : FileTree) (path : List UInt8) : List (List UInt8) :=
  let directory := if path.getLast? = some 0x2f then path else path ++ [0x2f]
  (tree.files.map Prod.fst).filter fun file => file = path || directory.isPrefixOf file

theorem FileTree.revParse_blob {tree : FileTree} {path : List UInt8} {entry : FileEntry} (found : tree.entryAt path = some entry) :
    tree.revParse path = some (.blob entry.blob) := by
  unfold revParse
  rw [found]

theorem FileTree.revParse_entry {tree : FileTree} {path blob : List UInt8} (parsed : tree.revParse path = some (.blob blob)) :
    ∃ entry, tree.entryAt path = some entry ∧ entry.blob = blob := by
  unfold revParse at parsed
  split at parsed
  next entry found =>
    cases parsed
    exact ⟨entry, found, rfl⟩
  next => split at parsed <;> cases parsed

theorem FileTree.mem_files {tree : FileTree} {path : List UInt8} {entry : FileEntry} (found : tree.entryAt path = some entry) :
    path ∈ tree.files.map Prod.fst := by
  obtain ⟨before, after, split, _⟩ := List.lookup_eq_some_iff.mp found
  rw [split, List.map_append, List.map_cons]
  exact List.mem_append_right _ List.mem_cons_self

end Trees

section Changes

inductive TreeChange where
  | added (path : List UInt8)
  | deleted (path : List UInt8)
  | modified (path : List UInt8)
  | retyped (path : List UInt8)
  | renamed (score : Fin 101) (source target : List UInt8)
  deriving DecidableEq, Repr

/-- A file type changes between a file and a link. -/
def FileMode.isLink (mode : FileMode) : Bool := mode == .symlink

/-- The changes that a comparison of two trees lists. A rename pairs a path that is gone with a new one. -/
structure Compares (old new : FileTree) (changes : List TreeChange) : Prop where
  added : ∀ path, .added path ∈ changes → old.entryAt path = none ∧ (new.entryAt path).isSome
  deleted : ∀ path, .deleted path ∈ changes → (old.entryAt path).isSome ∧ new.entryAt path = none
  modified : ∀ path, .modified path ∈ changes → ∃ before after, old.entryAt path = some before ∧ new.entryAt path = some after ∧
    before ≠ after ∧ before.mode.isLink = after.mode.isLink
  retyped : ∀ path, .retyped path ∈ changes → ∃ before after, old.entryAt path = some before ∧ new.entryAt path = some after ∧
    before.mode.isLink ≠ after.mode.isLink
  renamed : ∀ score source target, .renamed score source target ∈ changes → (old.entryAt source).isSome ∧ new.entryAt source = none ∧
    old.entryAt target = none ∧ (new.entryAt target).isSome
  gone : ∀ path, (old.entryAt path).isSome → new.entryAt path = none → .deleted path ∈ changes ∨ ∃ score target, .renamed score path target ∈ changes
  born : ∀ path, old.entryAt path = none → (new.entryAt path).isSome → .added path ∈ changes ∨ ∃ score source, .renamed score source path ∈ changes
  changed : ∀ path before after, old.entryAt path = some before → new.entryAt path = some after → before ≠ after →
    .modified path ∈ changes ∨ .retyped path ∈ changes

/-- The bytes of a path that are printed with a backslash. -/
def isEscaped (byte : UInt8) : Bool := byte.toNat < 0x20 || byte == 0x22 || byte == 0x5c || 0x7f ≤ byte.toNat

def octalDigits (byte : UInt8) : List UInt8 := [0x30 + byte / 64, 0x30 + byte / 8 % 8, 0x30 + byte % 8]

def escapedByte (byte : UInt8) : List UInt8 :=
  if isEscaped byte then
    0x5c :: (match ([(0x07, 0x61), (0x08, 0x62), (0x09, 0x74), (0x0a, 0x6e), (0x0b, 0x76), (0x0c, 0x66), (0x0d, 0x72), (0x22, 0x22),
        (0x5c, 0x5c)] : List (UInt8 × UInt8)).lookup byte with
      | some letter => [letter]
      | none => octalDigits byte)
  else [byte]

def needsQuotes (path : List UInt8) : Bool := path.any isEscaped

/-- A path as it is printed. -/
def printedPath (path : List UInt8) : List UInt8 := if needsQuotes path then 0x22 :: (path.flatMap escapedByte ++ [0x22]) else path

def scoreDigits (score : Fin 101) : List UInt8 :=
  [0x30 + UInt8.ofNat (score / 100), 0x30 + UInt8.ofNat (score / 10 % 10), 0x30 + UInt8.ofNat (score % 10)]

/-- The fields of a change in a listing by name and status. -/
def changeFields : TreeChange → List (List UInt8)
  | .added path => [bytes "A", printedPath path]
  | .deleted path => [bytes "D", printedPath path]
  | .modified path => [bytes "M", printedPath path]
  | .retyped path => [bytes "T", printedPath path]
  | .renamed score source target => [bytes "R" ++ scoreDigits score, printedPath source, printedPath target]

def printedChange (change : TreeChange) : List UInt8 := [0x09].intercalate (changeFields change)

/-- `git diff --name-status`. -/
def printedChanges (changes : List TreeChange) : List UInt8 :=
  changes.flatMap fun change => printedChange change ++ [0x0a]

/-- A text that ends no line and no field. -/
def OneField (text : List UInt8) : Prop := ∀ byte ∈ text, 0x20 ≤ byte.toNat

instance (text : List UInt8) : Decidable (OneField text) :=
  decidable_of_iff (text.all fun byte => decide (0x20 ≤ byte.toNat)) (by rw [List.all_eq_true]; exact forall₂_congr fun _ _ => decide_eq_true_iff)

variable {text path : List UInt8} {change : TreeChange}

theorem OneField.no_line (field : OneField text) : 0x0a ∉ text := fun member => absurd (field _ member) (by decide)

theorem OneField.no_tab (field : OneField text) : 0x09 ∉ text := fun member => absurd (field _ member) (by decide)

theorem octalDigits_field (byte : UInt8) : OneField (octalDigits byte) := by
  intro digit member
  have small := byte.toNat_lt
  simp only [octalDigits, List.mem_cons, List.not_mem_nil, or_false] at member
  rcases member with rfl | rfl | rfl <;>
    simp only [UInt8.toNat_add, UInt8.toNat_div, UInt8.toNat_mod, UInt8.toNat_ofNat, Nat.reducePow, Nat.reduceMod] <;> omega

theorem escapedByte_field (byte : UInt8) : OneField (escapedByte byte) := by
  unfold escapedByte
  split
  next =>
    refine List.forall_mem_cons.mpr ⟨by decide, ?_⟩
    split
    next letter found =>
      have listed := mem_of_lookup found
      revert listed
      have letters : ∀ pair ∈ ([(0x07, 0x61), (0x08, 0x62), (0x09, 0x74), (0x0a, 0x6e), (0x0b, 0x76), (0x0c, 0x66), (0x0d, 0x72), (0x22, 0x22),
          (0x5c, 0x5c)] : List (UInt8 × UInt8)), decide (0x20 ≤ pair.2.toNat) = true := List.all_eq_true.mp (by decide)
      exact fun listed => List.forall_mem_singleton.mpr (of_decide_eq_true (letters _ listed))
    next => exact octalDigits_field byte
  next plain =>
    refine List.forall_mem_singleton.mpr ?_
    simp only [isEscaped, Bool.or_eq_true, decide_eq_true_eq, not_or] at plain
    omega

theorem printedPath_field (path : List UInt8) : OneField (printedPath path) := by
  unfold printedPath
  split
  next =>
    refine List.forall_mem_cons.mpr ⟨by decide, List.forall_mem_append.mpr ⟨fun byte member => ?_, List.forall_mem_singleton.mpr (by decide)⟩⟩
    obtain ⟨source, _, inside⟩ := List.mem_flatMap.mp member
    exact escapedByte_field source byte inside
  next plain =>
    intro byte member
    have printable : isEscaped byte = false := by
      simpa using List.any_eq_false.mp (Bool.eq_false_iff.mpr plain) byte member
    simp only [isEscaped, Bool.or_eq_false_iff, decide_eq_false_iff_not] at printable
    omega

theorem scoreDigits_field (score : Fin 101) : OneField (scoreDigits score) := by
  intro digit member
  simp only [scoreDigits, List.mem_cons, List.not_mem_nil, or_false] at member
  rcases member with rfl | rfl | rfl <;> simp only [UInt8.toNat_add, UInt8.toNat_ofNat', UInt8.toNat_ofNat, Nat.reducePow, Nat.reduceMod] <;> omega

theorem changeFields_field : ∀ field ∈ changeFields change, OneField field := by
  cases change <;> simp only [changeFields, List.forall_mem_cons, List.not_mem_nil, false_implies, implies_true, and_true]
  · exact ⟨by decide, printedPath_field _⟩
  · exact ⟨by decide, printedPath_field _⟩
  · exact ⟨by decide, printedPath_field _⟩
  · exact ⟨by decide, printedPath_field _⟩
  · exact ⟨List.forall_mem_append.mpr ⟨(by decide : OneField (bytes "R")), scoreDigits_field _⟩, printedPath_field _, printedPath_field _⟩

/-- The fields of a printed change are read back. -/
theorem printedChange_read : (printedChange change).splitOn 0x09 = changeFields change :=
  List.splitOn_intercalate 0x09 (fun field member => (changeFields_field field member).no_tab) (by cases change <;> exact List.cons_ne_nil _ _)

/-- The printed changes are read back line by line. -/
theorem printedChanges_read (changes : List TreeChange) : (printedChanges changes).splitOn 0x0a = changes.map printedChange ++ [[]] := by
  induction changes with
  | nil => rfl
  | cons change changes ih =>
    have line : 0x0a ∉ printedChange change := by
      intro member
      rcases mem_intercalated member with tab | ⟨field, listed, inside⟩
      · exact absurd tab (by decide)
      · exact (changeFields_field field listed).no_line inside
    rw [printedChanges, List.flatMap_cons, List.append_assoc, List.singleton_append, List.splitOn_append_cons_self_of_not_mem line]
    exact congrArg _ ih

end Changes

section Commits

/-- `one` is `other` or descends from it. -/
def Descends {Commit : Type*} (parents : Commit → List Commit) : Commit → Commit → Prop :=
  Relation.ReflTransGen fun child parent => parent ∈ parents child

/-- The commits that one end of a range reaches and the other does not. -/
def Between {Commit : Type*} (parents : Commit → List Commit) (base head commit : Commit) : Prop :=
  Descends parents head commit ∧ ¬ Descends parents base commit

end Commits

end SecureHome.Lib
