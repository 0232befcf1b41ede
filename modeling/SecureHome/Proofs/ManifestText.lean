import SecureHome.Lib.Sorting
import SecureHome.Lib.Splitting
import SecureHome.Toolchain.ParseManifest

/-! The text of a manifest: its order, its rows, and the bytes they are written in. -/

namespace SecureHome.Toolchain
open Lib

section Order

theorem compareBytes_swap (one other : List UInt8) : compareBytes other one = -compareBytes one other := by
  induction one generalizing other with
  | nil => cases other <;> simp [compareBytes]
  | cons byte bytes ih =>
    cases other with
    | nil => simp [compareBytes]
    | cons next others =>
      by_cases same : byte = next
      · simp [compareBytes, same, ih]
      · simp only [compareBytes, ne_eq, same, Ne.symm same, not_false_eq_true, if_true]
        omega

theorem compareBytes_zero {one other : List UInt8} : compareBytes one other = 0 ↔ one = other := by
  induction one generalizing other with
  | nil =>
    cases other <;> simp [compareBytes]
    omega
  | cons byte bytes ih =>
    cases other with
    | nil =>
      simp [compareBytes]
      omega
    | cons next others =>
      by_cases same : byte = next
      · simp [compareBytes, same, ih]
      · have apart : byte.toNat ≠ next.toNat := fun number => same (UInt8.toNat_inj.mp number)
        simp [compareBytes, same]
        omega

theorem compareBytes_trans {one other third : List UInt8} (first : compareBytes one other ≤ 0)
    (second : compareBytes other third ≤ 0) : compareBytes one third ≤ 0 := by
  induction one generalizing other third with
  | nil =>
    rw [compareBytes_nil]
    omega
  | cons byte bytes ih =>
    cases other with
    | nil =>
      simp [compareBytes] at first
      omega
    | cons next others =>
      cases third with
      | nil =>
        simp [compareBytes] at second
        omega
      | cons last rest =>
        by_cases same : byte = next <;> by_cases also : next = last
        · subst same also
          simp only [compareBytes, ne_eq, not_true_eq_false, if_false] at first second ⊢
          exact ih first second
        · simpa [compareBytes, same, also] using second
        · simpa [compareBytes, same, ← also] using first
        · have apart : byte.toNat ≠ next.toNat := fun number => same (UInt8.toNat_inj.mp number)
          have far : next.toNat ≠ last.toNat := fun number => also (UInt8.toNat_inj.mp number)
          simp only [compareBytes, ne_eq, same, also, not_false_eq_true, if_true] at first second
          have differ : byte ≠ last := fun equal => by
            subst equal
            omega
          simp only [compareBytes, ne_eq, differ, not_false_eq_true, if_true]
          omega

theorem byBytes_trans {one other third : JsString} (first : byBytes one other < 0) (second : byBytes other third < 0) :
    byBytes one third < 0 := by
  refine Int.lt_iff_le_and_ne.mpr ⟨compareBytes_trans (Int.le_of_lt first) (Int.le_of_lt second), fun tied => ?_⟩
  rw [byBytes, ← compareBytes_zero.mp tied, compareBytes_swap] at second
  rw [byBytes] at first
  omega

variable {Item : Type} {keyOf : Item → JsString} {items : List Item}

theorem byBytes_swap (one other : JsString) : byBytes other one = -byBytes one other := compareBytes_swap _ _

theorem sortByBytes_ranks (keyOf : Item → JsString) :
    Ranks (fun one other => decide (byBytes (keyOf one) (keyOf other) ≤ 0)) fun item => encode (keyOf item) where
  trans _ _ _ first second := decide_eq_true (compareBytes_trans (of_decide_eq_true first) (of_decide_eq_true second))
  total one other := by
    have swapped := byBytes_swap (keyOf one) (keyOf other)
    rw [Bool.or_eq_true, decide_eq_true_eq, decide_eq_true_eq]
    omega
  ties one other first second := by
    have swapped := byBytes_swap (keyOf one) (keyOf other)
    have below : byBytes (keyOf one) (keyOf other) ≤ 0 := of_decide_eq_true first
    have above : byBytes (keyOf other) (keyOf one) ≤ 0 := of_decide_eq_true second
    exact compareBytes_zero.mp (show byBytes (keyOf one) (keyOf other) = 0 by omega)
  tied _ _ same := decide_eq_true (Int.le_of_eq (compareBytes_zero.mpr same))

theorem sortByBytes_perm : (sortByBytes keyOf items).Perm items := List.mergeSort_perm _ _

theorem perm_of_sorted {others : List Item} (same : sortByBytes keyOf items = sortByBytes keyOf others) : items.Perm others := by
  have kept := @sortByBytes_perm _ keyOf items
  rw [same] at kept
  exact kept.symm.trans sortByBytes_perm

theorem sortByBytes_sorted : (sortByBytes keyOf items).Pairwise fun one other => byBytes (keyOf one) (keyOf other) ≤ 0 := by
  have sorted := List.pairwise_mergeSort (sortByBytes_ranks keyOf).trans (sortByBytes_ranks keyOf).total items
  exact sorted.imp fun held => of_decide_eq_true held

theorem strictlySorted_iff {values : List JsString} :
    strictlySorted values = true ↔ values.Pairwise fun one other => byBytes one other < 0 := by
  induction values with
  | nil => simp [strictlySorted]
  | cons one rest ih =>
    cases rest with
    | nil => simp [strictlySorted]
    | cons other rest =>
      rw [strictlySorted, Bool.and_eq_true, decide_eq_true_eq, ih, List.pairwise_cons (l := other :: rest)]
      refine and_congr_left fun sorted => ⟨fun below value member => ?_, fun every => every other List.mem_cons_self⟩
      rcases List.mem_cons.mp member with rfl | later
      · exact below
      · exact byBytes_trans below ((List.pairwise_cons.mp sorted).1 value later)

/-- Strictly sorted items are as sorting leaves them. -/
theorem sortByBytes_of_strict (sorted : strictlySorted (items.map keyOf) = true) : sortByBytes keyOf items = items := by
  refine List.mergeSort_of_pairwise ?_
  have strict := List.pairwise_map.mp (strictlySorted_iff.mp sorted)
  exact strict.imp fun below => decide_eq_true (Int.le_of_lt below)

/-- Sorting items of distinct well-formed keys sorts them strictly. -/
theorem strictlySorted_sort (formed : ∀ item ∈ items, isWellFormed (keyOf item)) (distinct : (items.map keyOf).Nodup) :
    strictlySorted ((sortByBytes keyOf items).map keyOf) = true := by
  have kept : ((sortByBytes keyOf items).map keyOf).Nodup := (sortByBytes_perm.map keyOf).nodup_iff.mpr distinct
  rw [strictlySorted_iff, List.pairwise_map]
  rw [List.nodup_iff_pairwise_ne, List.pairwise_map] at kept
  refine (sortByBytes_sorted.and kept).imp_of_mem fun {one other} first second ⟨below, apart⟩ => ?_
  refine Int.lt_iff_le_and_ne.mpr ⟨below, fun tied => apart ?_⟩
  exact encode_injective (formed one (sortByBytes_perm.mem_iff.mp first)) (formed other (sortByBytes_perm.mem_iff.mp second))
    (compareBytes_zero.mp tied)

theorem strictlySorted_nodup {values : List JsString} (sorted : strictlySorted values = true) : values.Nodup := by
  refine List.nodup_iff_pairwise_ne.mpr ((strictlySorted_iff.mp sorted).imp fun {one other} below same => ?_)
  rw [same, byBytes, compareBytes_zero.mpr rfl] at below
  omega

end Order

section Rows

variable {rows : List JsString} {nfc : JsString → JsString}

/-- A row of a name and a value. -/
def rowOf (name : String) (value : JsString) : JsString := units name ++ SP :: value

def memberRow (kind : Section) (member : ReleaseMember) : JsString :=
  rowOf kind.label (member.id ++ NUL :: (member.version ++ NUL :: member.digest))

/-- The rows, each with its line feed. -/
def lined (rows : List JsString) : JsString := rows.flatMap (· ++ [LF])

theorem lf_scalar : isScalar LF := by decide
theorem sp_scalar : isScalar SP := by decide
theorem nul_scalar : isScalar NUL := by decide

theorem lined_intercalate (some_rows : rows ≠ []) : lined rows = [LF].intercalate rows ++ [LF] := by
  induction rows with
  | nil => exact absurd rfl some_rows
  | cons first rest ih =>
    cases rest with
    | nil => simp [lined]
    | cons next others =>
      rw [List.intercalate_cons_cons, List.append_assoc, List.append_assoc, ← ih (List.cons_ne_nil _ _)]
      simp [lined]

/-- Rows of no line feed are read back from their lines. -/
theorem splitOn_lined (some_rows : rows ≠ []) (apart : ∀ row ∈ rows, LF ∉ row) :
    (lined rows).dropLast.splitOn LF = rows := by
  rw [lined_intercalate some_rows, List.dropLast_concat, List.splitOn_intercalate LF apart some_rows]

theorem lined_splitOn {text : JsString} (last : text.getLast? = some LF) : lined (text.dropLast.splitOn LF) = text := by
  rw [lined_intercalate (List.splitOn_ne_nil LF _), List.intercalate_splitOn]
  exact List.dropLast_append_getLast? LF last

theorem encode_lined : encode (lined rows) = rows.flatMap fun row => encode row ++ [0x0a] := by
  induction rows with
  | nil => rfl
  | cons first rest ih =>
    rw [lined, List.flatMap_cons, List.append_assoc, List.singleton_append, encode_apart lf_scalar, List.flatMap_cons, ← ih]
    rfl

theorem isWellFormed_lined : isWellFormed (lined rows) ↔ ∀ row ∈ rows, isWellFormed row := by
  induction rows with
  | nil => exact ⟨fun _ _ member => absurd member List.not_mem_nil, fun _ => rfl⟩
  | cons first rest ih =>
    rw [lined, List.flatMap_cons, List.append_assoc, List.singleton_append, isWellFormed_apart lf_scalar, ← lined, ih,
      List.forall_mem_cons]

theorem named_eq (name : String) (value : JsString) : units s!"{name} " ++ value = rowOf name value := by
  have spaced : units s!"{name} " = units name ++ [SP] := units_append name " "
  rw [spaced, rowOf, List.append_assoc, List.singleton_append]

theorem scalarLine_eq (name : String) (value : JsString) : scalarLine name value = encode (rowOf name value) ++ [0x0a] := by
  rw [scalarLine, named_eq]

theorem memberLine_eq (kind : Section) (member : ReleaseMember) :
    memberLine kind member = encode (memberRow kind member) ++ [0x0a] := by
  have parted : memberRow kind member = rowOf kind.label member.id ++ NUL :: (member.version ++ NUL :: member.digest) := by
    simp [memberRow, rowOf]
  rw [memberLine, named_eq, parted, encode_apart nul_scalar, encode_apart nul_scalar]
  simp [show encode [NUL] = [0x00] from rfl]

end Rows

section Text

variable {rows : List JsString} {bytes : List UInt8} {nfc : JsString → JsString} {release : LogicalRelease}

/-- The scalars of a release, in the order of their rows. -/
def scalarsOf (release : LogicalRelease) : List (String × JsString) :=
  [("family", release.family), ("version", release.version), ("runnerClass", release.runnerClass),
    ("allowTaskAdditions", boolText release.allowTaskAdditions),
    ("allowTaskNarrowing", boolText release.allowTaskNarrowing),
    ("maxBytes", intText release.maxBytes), ("maxFreshnessDays", intText release.maxFreshnessDays),
    ("requiredFailure", release.requiredFailure), ("optionalFailure", release.optionalFailure),
    ("overrideAuthority", release.overrideAuthority)]

def entryRows (entries : Entries) : List JsString :=
  entries.deny.map (rowOf "deny") ++ (entries.required.map (memberRow .required) ++
    entries.optional.map (memberRow .optional))

def entriesOf (release : LogicalRelease) : Entries := ⟨release.deny, release.required, release.optional⟩

def manifestRows (release : LogicalRelease) : List JsString :=
  units setReleaseFormat :: ((scalarsOf release).map fun (name, value) => rowOf name value) ++ entryRows (entriesOf release)

/-- A release with its three lists by UTF-8 bytes. -/
def LogicalRelease.sorted (release : LogicalRelease) : LogicalRelease :=
  { release with
    deny := sortByBytes id release.deny
    required := sortByBytes (·.id) release.required
    optional := sortByBytes (·.id) release.optional }

/-- A release no check refuses is written as its rows in order. -/
theorem canonical_ok : canonicalSetReleaseManifest nfc release = .ok bytes ↔
    manifestRefusals nfc release = [] ∧ bytes = encode (lined (manifestRows release.sorted)) := by
  unfold canonicalSetReleaseManifest
  cases refused : manifestRefusals nfc release with
  | cons refusal refusals => simp
  | nil =>
    rw [encode_lined, show scalarLine "deny" = _ from funext (scalarLine_eq "deny"),
      show memberLine .required = _ from funext (memberLine_eq .required),
      show memberLine .optional = _ from funext (memberLine_eq .optional)]
    simp only [true_and, Except.ok.injEq]
    rw [eq_comm]
    refine Eq.congr rfl ?_
    simp [manifestRows, scalarsOf, entryRows, entriesOf, LogicalRelease.sorted, scalarLine_eq, List.flatMap_map]

theorem encode_format : encode (units setReleaseFormat) =
    [0x6f, 0x6b, 0x66, 0x2d, 0x73, 0x65, 0x74, 0x2d, 0x72, 0x65, 0x6c, 0x65, 0x61, 0x73, 0x65, 0x2d, 0x76, 0x31] := by
  decide

theorem cr_mem {text : JsString} : 0x0d ∈ encode text ↔ 0x0d ∈ text := by
  refine ⟨fun member => encode_ascii (by decide) member, fun member => ?_⟩
  obtain ⟨before, after, rfl⟩ := List.append_of_mem member
  rw [encode_apart (by decide)]
  exact List.mem_append_left _ (List.mem_append_right _ (by decide))

theorem parseRows_head (read : parseRows nfc rows = .ok release) :
    ∃ rest, rows = units setReleaseFormat :: rest := by
  unfold parseRows at read
  split at read
  · cases read
  next head =>
    rw [ne_eq, Decidable.not_not] at head
    exact ⟨rows.tail, List.eq_cons_of_mem_head? head⟩

/-- Bytes are read as the rows they are the lines of. -/
theorem parse_lines : parseSetReleaseManifest nfc bytes = .ok release ↔
    ∃ rows : List JsString, (∀ row ∈ rows, isWellFormed row ∧ LF ∉ row ∧ 0x0d ∉ row) ∧
      bytes = encode (lined rows) ∧ parseRows nfc rows = .ok release := by
  refine ⟨fun read => ?_, fun ⟨rows, plain, spelled, read⟩ => ?_⟩
  · unfold parseSetReleaseManifest at read
    split at read
    · cases read
    split at read
    · cases read
    next unreturned =>
    split at read
    · cases read
    next final =>
    rw [ne_eq, Decidable.not_not] at final
    split at read
    · cases read
    next text decoded =>
    obtain ⟨formed, spelled⟩ := decode_some.mp decoded
    have joined : lined (text.dropLast.splitOn LF) = text :=
      lined_splitOn (@encode_getLast _ 0x0a formed (by decide) (spelled ▸ final))
    rw [← joined] at formed spelled
    refine ⟨_, fun row member => ⟨isWellFormed_lined.mp formed row member, splitOn_apart member, fun returned => ?_⟩,
      spelled, read⟩
    rw [spelled, cr_mem] at unreturned
    exact unreturned (List.mem_flatMap.mpr ⟨row, member, List.mem_append_left _ returned⟩)
  · obtain ⟨rest, rfl⟩ := parseRows_head read
    have some_rows : units setReleaseFormat :: rest ≠ [] := List.cons_ne_nil _ _
    have formed := isWellFormed_lined.mpr fun row member => (plain row member).1
    have unmarked : bytes.take 3 ≠ [0xef, 0xbb, 0xbf] := by
      rw [spelled, encode_lined, List.flatMap_cons, encode_format]
      simp
    have unreturned : 0x0d ∉ bytes := by
      rw [spelled, cr_mem]
      intro returned
      obtain ⟨row, member, within⟩ := List.mem_flatMap.mp returned
      rcases List.mem_append.mp within with inside | same
      · exact (plain row member).2.2 inside
      · exact absurd (List.mem_singleton.mp same) (by decide)
    have final : bytes.getLast? = some 0x0a := by
      rw [spelled, lined_intercalate some_rows, encode_apart lf_scalar]
      simp [show encode [LF] = [0x0a] from rfl, show encode [] = [] from rfl]
    unfold parseSetReleaseManifest
    rw [if_neg unmarked, if_neg unreturned, if_neg (by simpa using final), decode_some.mpr ⟨formed, spelled⟩]
    dsimp only
    rw [splitOn_lined some_rows fun row member => (plain row member).2.1]
    exact read

end Text

end SecureHome.Toolchain
