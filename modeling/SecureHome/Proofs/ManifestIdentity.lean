import SecureHome.Lib.Decimal
import SecureHome.Workspace.Filesystem
import Mathlib.Data.List.Nodup
import Mathlib.Logic.Equiv.Basic

/-! The base digest against the change set. The digest is of lines joined by line feeds,
and a file name may hold one. -/

namespace SecureHome.Workspace
open Lib Core Contracts Ports

namespace Manifest

def sorted (manifest : Manifest) : List (String × ManifestEntry) := canonicalSort manifest.entries (·.1)

/-- The lines a reader of the digested text sees, in the order of the paths. -/
def lines (manifest : Manifest) : List (List Char) :=
  manifest.sorted.flatMap fun entry => (manifestLine entry).toList.splitOn '\n'

/-- How many line feeds each path holds, in the order of the paths. -/
def breaks (manifest : Manifest) : List Nat := manifest.sorted.map fun entry => entry.1.toList.count '\n'

/-- No change is reported over a base observed as one manifest and found as the other. -/
def Unchanged (baseline current : Manifest) : Prop :=
  ∀ (observer : FilesystemWorkspaceObserver) (digestOf : String → String) (runId : String),
    (observer.observeBase digestOf runId (.ok baseline)).2.observe runId (.ok current) = .ok []

/-- The base digests agree exactly where no change is reported. -/
def Agrees (digestOf : String → String) (baseline current : Manifest) : Prop :=
  manifestDigest digestOf baseline = manifestDigest digestOf current ↔ Unchanged baseline current

end Manifest

/-- What of an entry either identity reads. -/
def recordOf (entry : String × ManifestEntry) : String × Nat × String := (entry.1, entry.2.mode, entry.2.digest)

section Line

theorem isDigest_split {digest : String} (digested : isDigest digest = true) :
    ∃ hex, digest.toList = "sha256".toList ++ ':' :: hex ∧ ':' ∉ hex ∧ '\n' ∉ hex := by
  unfold isDigest at digested
  simp only [Bool.and_eq_true, beq_iff_eq, List.all_eq_true] at digested
  obtain ⟨⟨scheme, _⟩, hexadecimal⟩ := digested
  refine ⟨digest.toList.drop 7, ?_, fun colon => ?_, fun feed => ?_⟩
  · calc
      digest.toList = digest.toList.take 7 ++ digest.toList.drop 7 := (List.take_append_drop 7 _).symm
      _ = "sha256".toList ++ ':' :: digest.toList.drop 7 := by rw [scheme]; rfl
  · exact absurd (hexadecimal ':' colon) (by decide +kernel)
  · exact absurd (hexadecimal '\n' feed) (by decide +kernel)

theorem label_separators (kind : EntryKind) : ':' ∉ kind.label.toList ∧ '\n' ∉ kind.label.toList := by
  cases kind <;> decide +kernel

theorem repr_separators (number : Nat) : ':' ∉ number.repr.toList ∧ '\n' ∉ number.repr.toList := by
  refine ⟨fun member => ?_, fun member => ?_⟩
  · exact absurd (digit_of_mem_repr member) (by decide)
  · exact absurd (digit_of_mem_repr member) (by decide)

/-- A line, from its last separator back. -/
theorem manifestLine_text (entry : String × ManifestEntry) : ∃ hex, ':' ∉ hex ∧ '\n' ∉ hex ∧
    entry.2.digest.toList = "sha256".toList ++ ':' :: hex ∧
    (manifestLine entry).toList = (((entry.1.toList ++ ':' :: entry.2.kind.label.toList) ++ ':' :: entry.2.mode.repr.toList) ++
      ':' :: "sha256".toList) ++ ':' :: hex := by
  obtain ⟨hex, split, colon, feed⟩ := isDigest_split entry.2.digested
  refine ⟨hex, colon, feed, split, ?_⟩
  simp only [manifestLine, toString, String.toList_append, split, List.append_assoc, List.cons_append]
  rfl

/-- A line tells what of its entry is compared. -/
theorem manifestLine_record {one other : String × ManifestEntry} :
    manifestLine one = manifestLine other ↔ recordOf one = recordOf other := by
  refine ⟨fun same => ?_, fun same => ?_⟩
  · obtain ⟨hex, colon, _, digest, text⟩ := manifestLine_text one
    obtain ⟨hex', colon', _, digest', text'⟩ := manifestLine_text other
    have texts := String.toList_inj.mpr same
    rw [text, text'] at texts
    have scheme : ':' ∉ "sha256".toList := by decide +kernel
    obtain ⟨schemes, hexes⟩ := last_separated colon colon' texts
    obtain ⟨moded, _⟩ := last_separated scheme scheme schemes
    obtain ⟨kinded, modes⟩ := last_separated (repr_separators _).1 (repr_separators _).1 moded
    obtain ⟨paths, _⟩ := last_separated (label_separators _).1 (label_separators _).1 kinded
    rw [← hexes] at digest'
    simp only [recordOf, String.toList_inj.mp paths, repr_injective (String.toList_inj.mp modes),
      String.toList_inj.mp (digest.trans digest'.symm)]
  · obtain ⟨path, mode, digest⟩ : one.1 = other.1 ∧ one.2.mode = other.2.mode ∧ one.2.digest = other.2.digest := by
      simpa [recordOf] using same
    simp only [manifestLine, path, one.2.typed, other.2.typed, mode, digest]

theorem manifestLine_breaks (entry : String × ManifestEntry) :
    (manifestLine entry).toList.count '\n' = entry.1.toList.count '\n' := by
  obtain ⟨hex, _, feed, _, text⟩ := manifestLine_text entry
  rw [text]
  simp only [List.count_append, List.count_cons, List.count_eq_zero_of_not_mem feed,
    List.count_eq_zero_of_not_mem (repr_separators _).2, List.count_eq_zero_of_not_mem (label_separators _).2]
  rfl

end Line

section Identity

variable {digestOf : String → String} {baseline current : Manifest}

open FilesystemWorkspaceObserver

/-- The digested text is the lines, joined. -/
theorem text_lines (manifest : Manifest) :
    ("\n".intercalate (manifest.sorted.map manifestLine)).toList = ['\n'].intercalate manifest.lines := by
  rw [String.toList_intercalate, List.map_map]
  unfold Manifest.lines
  cases manifest.sorted with
  | nil => rfl
  | cons entry rest =>
    have parts : ((entry :: rest).map (String.toList ∘ manifestLine)) ≠ [] := List.cons_ne_nil _ _
    have joined := @splitOn_joined _ _ '\n' _ parts
    rw [List.flatMap_map] at joined
    refine (List.intercalate_splitOn '\n').symm.trans ?_
    exact congrArg _ joined

/-- Two listings are of one text exactly where their lines are. -/
theorem digest_lines (collisionFree : Function.Injective digestOf) :
    manifestDigest digestOf baseline = manifestDigest digestOf current ↔ baseline.lines = current.lines := by
  -- The text of no line and the text of one empty line are one text, but no line is empty.
  have told (manifest : Manifest) : manifest.lines =
      if ['\n'].intercalate manifest.lines = [] then [] else (['\n'].intercalate manifest.lines).splitOn '\n' := by
    cases entries : manifest.sorted with
    | nil => simp [Manifest.lines, entries]
    | cons entry rest =>
      have parts : (manifest.sorted.map fun entry => (manifestLine entry).toList) ≠ [] := by simp [entries]
      have split := @splitOn_joined _ _ '\n' _ parts
      have text := text_lines manifest
      rw [String.toList_intercalate, List.map_map] at text
      rw [List.flatMap_map] at split
      have spelled : ['\n'].intercalate manifest.lines ≠ [] := by
        rw [← text, entries]
        intro blank
        have line : (manifestLine entry).toList = [] := by
          cases rest with
          | nil => simpa using blank
          | cons next others =>
            rw [List.map_cons, List.map_cons] at blank
            exact (List.append_eq_nil_iff.mp (List.append_eq_nil_iff.mp ((List.intercalate_cons_cons ..).symm.trans blank)).1).1
        obtain ⟨_, _, _, _, shaped⟩ := manifestLine_text entry
        rw [shaped] at line
        exact absurd line (by simp)
      rw [if_neg spelled, ← text]
      exact split.symm
  have texts : manifestDigest digestOf baseline = manifestDigest digestOf current ↔
      ['\n'].intercalate baseline.lines = ['\n'].intercalate current.lines := by
    rw [← text_lines, ← text_lines, String.toList_inj]
    exact collisionFree.eq_iff
  rw [texts]
  exact ⟨fun same => by rw [told baseline, told current, same], fun same => by rw [same]⟩

theorem get_some {manifest : Manifest} {path : String} {entry : ManifestEntry} :
    manifest.get path = some entry ↔ (path, entry) ∈ manifest.entries := by
  obtain ⟨entries, distinct⟩ := manifest
  unfold Manifest.get
  induction entries with
  | nil => simp
  | cons first rest ih =>
    obtain ⟨unlisted, distinct⟩ := List.nodup_cons.mp distinct
    rw [List.lookup_cons, List.mem_cons]
    by_cases same : path = first.1
    · rw [beq_iff_eq.mpr same]
      refine ⟨fun found => .inl (by cases found; rw [same]), ?_⟩
      rintro (rfl | later)
      · rfl
      · exact absurd (List.mem_map.mpr ⟨_, later, same⟩) unlisted
    · rw [beq_false_of_ne same]
      refine (ih distinct).trans ⟨.inr, ?_⟩
      rintro (rfl | later)
      · exact absurd rfl same
      · exact later

theorem sorted_records (manifest : Manifest) :
    manifest.sorted.map recordOf = canonicalSort (manifest.entries.map recordOf) (·.1) :=
  List.map_mergeSort fun _ _ _ _ => rfl

/-- Sorted by path, records are told apart by what is recorded. -/
theorem records_mem : canonicalSort (baseline.entries.map recordOf) (·.1) = canonicalSort (current.entries.map recordOf) (·.1) ↔
    ∀ record, record ∈ baseline.entries.map recordOf ↔ record ∈ current.entries.map recordOf := by
  have distinct (manifest : Manifest) : ((manifest.entries.map recordOf).map (·.1)).Nodup := by
    rw [List.map_map]
    exact manifest.distinct
  refine ⟨fun same record => ?_, fun mem => ?_⟩
  · rw [← canonicalSort_perm.mem_iff, same, canonicalSort_perm.mem_iff]
  · refine canonicalSort_unordered ((List.perm_ext_iff_of_nodup ((distinct baseline).of_map _) ((distinct current).of_map _)).mpr mem)
      fun one listed other also same => List.inj_on_of_nodup_map (distinct baseline) listed also same

theorem currentChange_none {entry : String × ManifestEntry} : currentChange baseline entry = none ↔
    ∃ before, baseline.get entry.1 = some before ∧ before.digest = entry.2.digest ∧ before.mode = entry.2.mode := by
  unfold currentChange
  split
  next absent => simp [absent]
  next before found =>
    rw [found]
    by_cases same : before.digest = entry.2.digest ∧ before.mode = entry.2.mode
    · simp [same]
    · simp [same]

theorem deletedChange_none {entry : String × ManifestEntry} : deletedChange current entry = none ↔
    ∃ found, current.get entry.1 = some found := by
  unfold deletedChange
  rw [← Option.isSome_iff_exists]
  split
  next found => simp [found]
  next absent => simp [absent]

theorem unchanged_records : Manifest.Unchanged baseline current ↔
    baseline.sorted.map recordOf = current.sorted.map recordOf := by
  have reported : Manifest.Unchanged baseline current ↔
      (∀ entry ∈ current.entries, currentChange baseline entry = none) ∧
        ∀ entry ∈ baseline.entries, deletedChange current entry = none := by
    have once (observer : FilesystemWorkspaceObserver) (digestOf : String → String) (runId : String) :
        (observer.observeBase digestOf runId (.ok baseline)).2.observe runId (.ok current) = .ok [] ↔
          (∀ entry ∈ current.entries, currentChange baseline entry = none) ∧
            ∀ entry ∈ baseline.entries, deletedChange current entry = none := by
      simp only [observeBase, observe, Function.update_self, WorkspaceObservation.ok.injEq, List.append_eq_nil_iff,
        List.filterMap_eq_nil_iff]
    exact ⟨fun unchanged => (once {} id "").mp (unchanged {} id ""), fun none observer digestOf runId =>
      (once observer digestOf runId).mpr none⟩
  rw [reported, sorted_records, sorted_records, records_mem]
  refine ⟨fun ⟨kept, held⟩ record => ⟨fun listed => ?_, fun listed => ?_⟩, fun same => ⟨fun entry listed => ?_, fun entry listed => ?_⟩⟩
  · obtain ⟨entry, member, rfl⟩ := List.mem_map.mp listed
    obtain ⟨found, present⟩ := deletedChange_none.mp (held entry member)
    obtain ⟨before, named, digest, mode⟩ := currentChange_none.mp (kept _ (get_some.mp present))
    cases (get_some.mpr member).symm.trans named
    exact List.mem_map.mpr ⟨_, get_some.mp present, by simp [recordOf, digest, mode]⟩
  · obtain ⟨entry, member, rfl⟩ := List.mem_map.mp listed
    obtain ⟨before, named, digest, mode⟩ := currentChange_none.mp (kept entry member)
    exact List.mem_map.mpr ⟨_, get_some.mp named, by simp [recordOf, digest, mode]⟩
  · obtain ⟨other, member, matched⟩ := List.mem_map.mp ((same (recordOf entry)).mpr (List.mem_map_of_mem listed))
    obtain ⟨path, mode, digest⟩ : other.1 = entry.1 ∧ other.2.mode = entry.2.mode ∧ other.2.digest = entry.2.digest := by
      simpa [recordOf] using matched
    exact currentChange_none.mpr ⟨other.2, get_some.mpr (path ▸ member), digest, mode⟩
  · obtain ⟨other, member, matched⟩ := List.mem_map.mp ((same (recordOf entry)).mp (List.mem_map_of_mem listed))
    have path : other.1 = entry.1 := (Prod.mk.inj matched).1
    exact deletedChange_none.mpr ⟨other.2, get_some.mpr (path ▸ member)⟩

/-- The records tell the lines, and how they are grouped tells the records. -/
theorem records_lines : baseline.sorted.map recordOf = current.sorted.map recordOf ↔
    baseline.lines = current.lines ∧ baseline.breaks = current.breaks := by
  have same_lines : baseline.sorted.map recordOf = current.sorted.map recordOf ↔
      baseline.sorted.map manifestLine = current.sorted.map manifestLine := by
    rw [← List.forall₂_eq_eq_eq, List.forall₂_map_left_iff, List.forall₂_map_right_iff, ← List.forall₂_eq_eq_eq,
      List.forall₂_map_left_iff, List.forall₂_map_right_iff]
    simp only [manifestLine_record]
  have lines (manifest : Manifest) : manifest.lines = ((manifest.sorted.map manifestLine).map fun line => line.toList.splitOn '\n').flatten := by
    rw [List.map_map, ← List.flatMap_def]
    rfl
  have breaks (manifest : Manifest) : ((manifest.sorted.map manifestLine).map fun line => line.toList.splitOn '\n').map List.length =
      manifest.breaks.map (· + 1) := by
    unfold Manifest.breaks
    rw [List.map_map, List.map_map, List.map_map]
    refine List.map_congr_left fun entry _ => ?_
    simp only [Function.comp, length_splitOn, manifestLine_breaks]
  have injective : Function.Injective fun line : String => line.toList.splitOn '\n' :=
    splitOn_injective.comp fun _ _ => String.toList_inj.mp
  rw [same_lines, ← (List.map_injective_iff.mpr injective).eq_iff, List.eq_iff_flatten_eq, ← lines, ← lines, breaks, breaks,
    (List.map_injective_iff.mpr (Nat.succ_injective)).eq_iff]

/-- Where no path holds a line feed, every line is an entry. -/
theorem plain_breaks {manifest : Manifest} (plain : ∀ entry ∈ manifest.entries, '\n' ∉ entry.1.toList) :
    manifest.breaks = List.replicate manifest.lines.length 0 := by
  have none (entry : String × ManifestEntry) (member : entry ∈ manifest.sorted) : entry.1.toList.count '\n' = 0 :=
    List.count_eq_zero.mpr (plain entry (canonicalSort_perm.mem_iff.mp member))
  have count : manifest.lines.length = manifest.sorted.length := by
    unfold Manifest.lines
    rw [List.length_flatMap, List.map_congr_left fun entry member => by rw [length_splitOn, manifestLine_breaks, none entry member],
      List.map_const', List.sum_replicate_nat, Nat.mul_one]
  rw [count]
  unfold Manifest.breaks
  rw [List.map_congr_left none, List.map_const']

end Identity

/-- The base digest and the change set agree exactly where manifests of the same lines
have paths that hold as many line feeds, one by one. -/
theorem digest_agrees_iff (digestOf : String → String) (collisionFree : Function.Injective digestOf)
    (baseline current : Manifest) :
    (baseline.Agrees digestOf current ↔ (baseline.lines = current.lines → baseline.breaks = current.breaks)) ∧
      ((∀ entry ∈ baseline.entries ++ current.entries, '\n' ∉ entry.1.toList) → baseline.Agrees digestOf current) := by
  have exact : baseline.Agrees digestOf current ↔ (baseline.lines = current.lines → baseline.breaks = current.breaks) := by
    unfold Manifest.Agrees
    rw [digest_lines collisionFree, unchanged_records, records_lines]
    exact ⟨fun agrees lines => (agrees.mp lines).2, fun breaks => ⟨fun lines => ⟨lines, breaks lines⟩, fun both => both.1⟩⟩
  refine ⟨exact, fun plain => exact.mpr fun lines => ?_⟩
  rw [plain_breaks fun entry listed => plain entry (List.mem_append_left _ listed),
    plain_breaks fun entry listed => plain entry (List.mem_append_right _ listed), lines]

/-- The digest of the empty text. -/
def emptyDigest : String := "sha256:e3b0c44298fc1c149afbf4c8996fb92427ae41e4649b934ca495991b7852b855"

def emptyFile : ManifestEntry := ⟨.file, 33188, 0, emptyDigest, none, by decide, by decide +kernel⟩

/-- Two empty files. -/
def twoFiles : Manifest := ⟨[("a", emptyFile), ("b", emptyFile)], by decide +kernel⟩

/-- One empty file, whose name spells the line of the first file before the name of the second. -/
def oneFile : Manifest := ⟨[("a:file:33188:sha256:e3b0c44298fc1c149afbf4c8996fb92427ae41e4649b934ca495991b7852b855\nb", emptyFile)], by decide +kernel⟩

/-- The text both manifests are digested from. -/
def sharedText : String :=
  "a:file:33188:sha256:e3b0c44298fc1c149afbf4c8996fb92427ae41e4649b934ca495991b7852b855\n" ++
    "b:file:33188:sha256:e3b0c44298fc1c149afbf4c8996fb92427ae41e4649b934ca495991b7852b855"

/-- A digest that is the platform's on the shared text. -/
def sharedDigest : String → String :=
  Equiv.swap sharedText "sha256:d9bb156166ddea155a0ee58c6c3a9ec6b5f2da37e178e8f45e2da45bfe1a861f"

theorem twoFiles_agrees_iff :
    (twoFiles.Agrees sharedDigest oneFile ↔ (twoFiles.lines = oneFile.lines → twoFiles.breaks = oneFile.breaks)) ∧
      ((∀ entry ∈ twoFiles.entries ++ oneFile.entries, '\n' ∉ entry.1.toList) → twoFiles.Agrees sharedDigest oneFile) :=
  digest_agrees_iff sharedDigest (Equiv.injective _) twoFiles oneFile

/-- One base digest, and a file more and another less. -/
theorem twoFiles_disagrees : ¬ twoFiles.Agrees sharedDigest oneFile := by
  intro agrees
  have two : canonicalSort twoFiles.entries (·.1) = twoFiles.entries :=
    List.mergeSort_of_pairwise (List.pairwise_pair.mpr (by decide +kernel))
  have one : canonicalSort oneFile.entries (·.1) = oneFile.entries := List.mergeSort_singleton _
  have same : manifestDigest sharedDigest twoFiles = manifestDigest sharedDigest oneFile := by
    unfold manifestDigest
    rw [two, one]
    exact congrArg sharedDigest (by decide +kernel)
  have unchanged := (agrees.mp same) {} sharedDigest "run-1"
  simp only [FilesystemWorkspaceObserver.observeBase, FilesystemWorkspaceObserver.observe, Function.update_self] at unchanged
  exact absurd unchanged (by decide +kernel)

end SecureHome.Workspace
