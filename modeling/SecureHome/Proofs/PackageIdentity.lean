import SecureHome.Lib.Trailers
import SecureHome.Toolchain.Identity
import SecureHome.Proofs.ManifestText

/-! What a package digest identifies. Rows are delimited by a byte that paths may hold, and
lone surrogates are all written as one character, so two member sets may share their rows. -/

namespace SecureHome.Toolchain
open Lib

section RowEnds

def isHexByte (byte : UInt8) : Bool := (0x30 ≤ byte.toNat && byte.toNat ≤ 0x39) || (0x61 ≤ byte.toNat && byte.toNat ≤ 0x66)

/-- What ends a row: NUL, 64 lowercase hexadecimal digits and LF. -/
def isRowEnd : List UInt8 → Bool
  | 0x00 :: rest => rest.length == 65 && rest.getLast? == some 0x0a && rest.dropLast.all isHexByte
  | _ => false

def endOf (digest : List UInt8) : List UInt8 := 0x00 :: (digest ++ [0x0a])

theorem rowEnds : Trailing 0x00 66 isRowEnd where
  shape block ends := by
    unfold isRowEnd at ends
    split at ends
    next rest =>
      obtain ⟨⟨long, last⟩, digits⟩ := by simpa only [Bool.and_eq_true, beq_iff_eq] using ends
      refine ⟨rest, rfl, by rw [long], fun member => ?_⟩
      obtain ⟨before, rfl⟩ := List.getLast?_eq_some_iff.mp last
      rw [List.dropLast_concat] at digits
      rcases List.mem_append.mp member with digit | final
      · exact absurd (List.all_eq_true.mp digits _ digit) (by decide)
      · exact absurd (List.mem_singleton.mp final) (by decide)
    next => cases ends

variable {digest : String}

/-- The bytes of a digest are its characters. -/
theorem digest_bytes (hexadecimal : bareSha256 (units digest) = true) :
    (encode (units digest)).length = 64 ∧ (encode (units digest)).all isHexByte = true := by
  unfold bareSha256 at hexadecimal
  rw [Bool.and_eq_true, beq_iff_eq] at hexadecimal
  have spelled : ∀ text : JsString, (text.all fun unit => isDigitUnit unit || (0x61 ≤ unit.toNat && unit.toNat ≤ 0x66)) = true →
      (encode text).length = text.length ∧ (encode text).all isHexByte = true := by
    intro text digits
    induction text with
    | nil => exact ⟨rfl, rfl⟩
    | cons unit text ih =>
      rw [List.all_cons, Bool.and_eq_true] at digits
      obtain ⟨long, rest⟩ := ih digits.2
      have value : unit.toNat < 0x80 ∧ isHexByte (UInt8.ofNat unit.toNat) = true := by
        have digit := digits.1
        simp only [isDigitUnit, Bool.or_eq_true, Bool.and_eq_true, decide_eq_true_eq] at digit
        simp only [isHexByte, UInt8.toNat_ofNat', Bool.or_eq_true, Bool.and_eq_true, decide_eq_true_eq]
        omega
      rw [encode_low value.1, List.length_cons, List.length_cons, long, List.all_cons, value.2, rest]
      exact ⟨rfl, rfl⟩
  obtain ⟨long, digits⟩ := spelled _ hexadecimal.2
  exact ⟨long.trans hexadecimal.1, digits⟩

theorem endOf_ends (hexadecimal : bareSha256 (units digest) = true) : isRowEnd (endOf (encode (units digest))) = true := by
  obtain ⟨long, digits⟩ := digest_bytes hexadecimal
  simp only [endOf, isRowEnd, List.length_append, long, List.length_singleton, List.getLast?_concat, List.dropLast_concat, digits]
  rfl

end RowEnds

/-- The same files, by path and bytes. -/
def SameMembers (one other : List SourceFile) : Prop := ∀ member, member ∈ one ↔ member ∈ other

section Rows

variable {sha256 : List UInt8 → String} {rows others : List Row}

/-- A row as the rows its bytes spell. -/
def unfolded (row : Row) : List (Frame UInt8) :=
  (cutAt 66 isRowEnd row.path).frames ++ [((cutAt 66 isRowEnd row.path).tail, endOf row.digest)]

/-- What a member set spells: its rows, and those within their paths. -/
def spelled (sha256 : List UInt8 → String) (members : List SourceFile) : List (Frame UInt8) := (rowsOf sha256 members).flatMap unfolded

theorem rows_eq_iff (digested : ∀ row ∈ rows, isRowEnd (endOf row.digest) = true)
    (digested' : ∀ row ∈ others, isRowEnd (endOf row.digest) = true) :
    rows.flatMap Row.bytes = others.flatMap Row.bytes ↔ rows.flatMap unfolded = others.flatMap unfolded := by
  have cut {rows : List Row} (digested : ∀ row ∈ rows, isRowEnd (endOf row.digest) = true) :
      cutAt 66 isRowEnd (rows.flatMap Row.bytes) = ⟨rows.flatMap unfolded, []⟩ :=
    @cutAt_flatMap UInt8 0x00 66 isRowEnd rowEnds Row Row.path (fun row => endOf row.digest) rows digested
  constructor
  · intro same
    exact (Cut.mk.inj ((cut digested).symm.trans ((congrArg _ same).trans (cut digested')))).1
  · intro same
    rw [← joined_cutAt rowEnds (rows.flatMap Row.bytes), ← joined_cutAt rowEnds (others.flatMap Row.bytes), cut digested, cut digested', same]

/-- Rows of the same paths in the same order are as their bytes. -/
theorem rows_of_bytes (paths : rows.map Row.path = others.map Row.path) (long : ∀ row ∈ rows, row.digest.length = 64)
    (long' : ∀ row ∈ others, row.digest.length = 64) (same : rows.flatMap Row.bytes = others.flatMap Row.bytes) : rows = others := by
  induction rows generalizing others with
  | nil => exact (List.map_eq_nil_iff.mp paths.symm).symm
  | cons row rows ih =>
    cases others with
    | nil => cases paths
    | cons other others =>
      obtain ⟨path, following⟩ := List.cons.inj paths
      have sized : row.bytes.length = other.bytes.length := by
        simp only [Row.bytes, List.length_append, List.length_cons, path, long row List.mem_cons_self, long' other List.mem_cons_self]
      obtain ⟨here, later⟩ := List.append_inj same sized
      rw [Row.bytes, Row.bytes, path] at here
      have digests := List.append_cancel_right (List.cons.inj (List.append_cancel_left here)).2
      obtain ⟨_, _⟩ := row
      obtain ⟨_, _⟩ := other
      cases path
      cases digests
      rw [ih following (fun row member => long row (List.mem_cons_of_mem _ member))
        (fun row member => long' row (List.mem_cons_of_mem _ member)) later]

theorem byPathBytes_ranks : Ranks (fun one other : Row => decide (byPathBytes one.path other.path ≤ 0)) Row.path where
  trans _ _ _ first second := decide_eq_true (compareBytes_trans (of_decide_eq_true first) (of_decide_eq_true second))
  total one other := by
    have swapped := compareBytes_swap one.path other.path
    rw [Bool.or_eq_true, decide_eq_true_eq, decide_eq_true_eq, byPathBytes, byPathBytes]
    omega
  ties one other first second := by
    have swapped := compareBytes_swap one.path other.path
    have below : compareBytes one.path other.path ≤ 0 := of_decide_eq_true first
    have above : compareBytes other.path one.path ≤ 0 := of_decide_eq_true second
    exact compareBytes_zero.mp (show compareBytes one.path other.path = 0 by omega)
  tied _ _ same := decide_eq_true (Int.le_of_eq (compareBytes_zero.mpr same))

variable {one other : List SourceFile}

theorem rowsOf_perm (members : List SourceFile) : (rowsOf sha256 members).Perm (members.map (rowOfMember sha256)) := List.mergeSort_perm _ _

/-- The same files have their paths in the same order. -/
theorem rowsOf_paths (moved : one.Perm other) : (rowsOf sha256 one).map Row.path = (rowsOf sha256 other).map Row.path := by
  have sorted (members : List SourceFile) : ((rowsOf sha256 members).map Row.path).Pairwise fun first second => compareBytes first second ≤ 0 := by
    have ranked := List.pairwise_mergeSort byPathBytes_ranks.trans byPathBytes_ranks.total (members.map (rowOfMember sha256))
    exact List.pairwise_map.mpr (ranked.imp fun held => of_decide_eq_true held)
  have kept : ((rowsOf sha256 one).map Row.path).Perm ((rowsOf sha256 other).map Row.path) :=
    ((rowsOf_perm one).trans ((moved.map _).trans (rowsOf_perm other).symm)).map _
  apply kept.eq_of_pairwise _ (sorted one) (sorted other)
  intro first second _ _ below above
  have swapped := compareBytes_swap first second
  exact compareBytes_zero.mp (show compareBytes first second = 0 by omega)

end Rows

/-- The bytes of the files of one spelled path, as the files are enumerated. -/
def contents (members : List SourceFile) (name : List UInt8) : List (List UInt8) := (members.filter (encode ·.path = name)).map (·.bytes)

/-- Two member sets of different files that spell the same rows. -/
def Respelled (sha256 : List UInt8 → String) (one other : List SourceFile) : Prop :=
  ¬ SameMembers one other ∧ spelled sha256 one = spelled sha256 other

/-- The same files, with those whose paths are spelled alike in another order. -/
def Reordered (one other : List SourceFile) : Prop := SameMembers one other ∧ ∃ name, contents one name ≠ contents other name

/-- No lone surrogate and no row end in a path. -/
def Plain (members : List SourceFile) : Prop := ∀ member ∈ members, isWellFormed member.path ∧
  ∀ before block after, encode member.path = before ++ (block ++ after) → isRowEnd block = false

/-- The digests agree exactly on one set of files, and an attestation binds one set. -/
def Identifies (sha256 : List UInt8 → String) (one other : List SourceFile) : Prop :=
  (bundleDigest sha256 one = bundleDigest sha256 other ↔ SameMembers one other) ∧
    ∀ review, checkProofA (some review) (bundleDigest sha256 one) = [] → checkProofA (some review) (bundleDigest sha256 other) = [] →
      SameMembers one other

/-- No two of the texts that are hashed share a digest. -/
structure CollisionFree (sha256 : List UInt8 → String) (one other : List SourceFile) : Prop where
  files : ∀ first ∈ one ++ other, ∀ second ∈ one ++ other, fileDigest sha256 first.bytes = fileDigest sha256 second.bytes → first.bytes = second.bytes
  manifests : sha256 (manifestBytes sha256 one) = sha256 (manifestBytes sha256 other) → manifestBytes sha256 one = manifestBytes sha256 other

section Binding

variable {sha256 : List UInt8 → String} {nfc : JsString → JsString} {one other : List SourceFile} {seen : List JsString}

theorem envelope_distinct {members : List SourceFile} (admitted : checkEnvelopeFrom nfc seen members = []) :
    (∀ member ∈ members, member.path ∉ seen) ∧ (members.map (·.path)).Nodup := by
  induction members generalizing seen with
  | nil => exact ⟨fun _ member => absurd member List.not_mem_nil, List.nodup_nil⟩
  | cons member members ih =>
    obtain ⟨⟨paths, _⟩, rest⟩ := (List.append_eq_nil_iff.mp admitted).imp_left List.append_eq_nil_iff.mp
    have fresh : member.path ∉ seen := fun again => by
      have repeated := (List.append_eq_nil_iff.mp paths).2
      rw [if_pos again] at repeated
      cases repeated
    obtain ⟨unseen, distinct⟩ := ih rest
    refine ⟨fun later listed => ?_, List.nodup_cons.mpr ⟨fun again => ?_, distinct⟩⟩
    · rcases List.mem_cons.mp listed with rfl | listed
      · exact fresh
      · exact fun before => unseen later listed (List.mem_append_left _ before)
    · obtain ⟨later, listed, same⟩ := List.mem_map.mp again
      exact unseen later listed (List.mem_append_right _ (List.mem_singleton.mpr same))

theorem same_perm (admitted : checkEnvelope nfc one = []) (admitted' : checkEnvelope nfc other = []) (same : SameMembers one other) :
    one.Perm other :=
  (List.perm_ext_iff_of_nodup (envelope_distinct admitted).2.of_map (envelope_distinct admitted').2.of_map).mpr same

/-- Lists that agree in one reading agree in another that it decides. -/
theorem reading_agrees {Item One Other : Type*} {first second : List Item} {read : Item → One} {reading : Item → Other}
    (decides : ∀ item ∈ first, ∀ another ∈ second, read item = read another → reading item = reading another)
    (same : first.map read = second.map read) : first.map reading = second.map reading := by
  induction first generalizing second with
  | nil => exact (List.map_eq_nil_iff.mp same.symm) ▸ rfl
  | cons item first ih =>
    cases second with
    | nil => cases same
    | cons another second =>
      obtain ⟨here, rest⟩ := List.cons.inj same
      rw [List.map_cons, List.map_cons, decides item List.mem_cons_self another List.mem_cons_self here,
        ih (fun item member another listed => decides item (List.mem_cons_of_mem _ member) another (List.mem_cons_of_mem _ listed)) rest]

variable (hexadecimal : ∀ bytes, bareSha256 (units (sha256 bytes)) = true)

include hexadecimal

theorem row_digested {members : List SourceFile} {row : Row} (member : row ∈ rowsOf sha256 members) :
    row.digest.length = 64 ∧ isRowEnd (endOf row.digest) = true := by
  obtain ⟨file, _, rfl⟩ := List.mem_map.mp ((rowsOf_perm members).mem_iff.mp member)
  exact ⟨(digest_bytes (hexadecimal file.bytes)).1, endOf_ends (hexadecimal file.bytes)⟩

/-- A digest tells apart what member sets spell. -/
theorem digest_spelled (free : CollisionFree sha256 one other) :
    bundleDigest sha256 one = bundleDigest sha256 other ↔ spelled sha256 one = spelled sha256 other := by
  have rows : (rowsOf sha256 one).flatMap Row.bytes = (rowsOf sha256 other).flatMap Row.bytes ↔ spelled sha256 one = spelled sha256 other :=
    rows_eq_iff (fun row member => (row_digested hexadecimal member).2) fun row member => (row_digested hexadecimal member).2
  rw [← rows]
  constructor
  · intro same
    exact List.append_cancel_left (free.manifests same)
  · intro same
    unfold bundleDigest manifestBytes
    rw [same]

omit hexadecimal in
theorem member_row (free : CollisionFree sha256 one other) {first second : SourceFile} (listed : first ∈ one) (listed' : second ∈ other)
    (same : rowOfMember sha256 first = rowOfMember sha256 second) : first.bytes = second.bytes :=
  free.files first (List.mem_append_left _ listed) second (List.mem_append_right _ listed') (encode_units_injective (Row.mk.inj same).2)

/-- The same files spell the same rows exactly if none stand in another order. -/
theorem same_spelled (free : CollisionFree sha256 one other) (moved : one.Perm other) :
    spelled sha256 one = spelled sha256 other ↔ ∀ name, contents one name = contents other name := by
  have rows : spelled sha256 one = spelled sha256 other ↔ rowsOf sha256 one = rowsOf sha256 other := by
    refine ⟨fun same => ?_, fun same => by rw [spelled, same, spelled]⟩
    apply rows_of_bytes (rowsOf_paths moved) (fun row member => (row_digested hexadecimal member).1)
      (fun row member => (row_digested hexadecimal member).1)
    exact (rows_eq_iff (fun row member => (row_digested hexadecimal member).2) fun row member => (row_digested hexadecimal member).2).mpr same
  have runs (members : List SourceFile) (name : List UInt8) : Ranks.run Row.path name (members.map (rowOfMember sha256)) =
      (members.filter (encode ·.path = name)).map (rowOfMember sha256) := List.filter_map
  have named {members : List SourceFile} {name : List UInt8} {member : SourceFile} (listed : member ∈ members.filter (encode ·.path = name)) :
      member ∈ members ∧ encode member.path = name := by simpa using List.mem_filter.mp listed
  rw [rows, rowsOf, rowsOf, byPathBytes_ranks.mergeSort_eq_iff]
  refine forall_congr' fun name => ?_
  rw [runs, runs]
  constructor
  · apply reading_agrees
    intro first listed second listed' same
    exact member_row free (named listed).1 (named listed').1 same
  · apply reading_agrees
    intro first listed second listed' same
    unfold rowOfMember
    rw [(named listed).2, (named listed').2, same]

omit hexadecimal in
/-- What binds two digests binds one. -/
theorem bound_once {review : ContentReview} {first second : String} (binds : checkProofA (some review) first = [])
    (binds' : checkProofA (some review) second = []) : first = second := by
  have bound {digest : String} (binds : checkProofA (some review) digest = []) : review.sourceDigest = units s!"sha256:{digest}" := by
    have last := (List.append_eq_nil_iff.mp binds).2
    split at last
    · cases last
    · split at last
      · cases last
      next same => exact not_not.mp same
  have spelled := (bound binds).symm.trans (bound binds')
  have texts := encode_units_injective (congrArg encode spelled)
  have characters := congrArg String.toList texts
  simp only [toString, String.toList_append] at characters
  exact String.toList_inj.mp (List.append_cancel_left characters)

/-- Two member sets are told apart exactly if neither spells the other's rows. -/
theorem identifies_iff (free : CollisionFree sha256 one other) (admitted : checkEnvelope nfc one = []) (admitted' : checkEnvelope nfc other = []) :
    Identifies sha256 one other ↔ ¬ Respelled sha256 one other ∧ ¬ Reordered one other := by
  have agrees : Identifies sha256 one other ↔ (spelled sha256 one = spelled sha256 other ↔ SameMembers one other) := by
    unfold Identifies
    rw [digest_spelled hexadecimal free]
    refine and_iff_left_of_imp fun agrees review binds binds' => ?_
    exact agrees.mp ((digest_spelled hexadecimal free).mp (bound_once binds binds'))
  rw [agrees]
  by_cases same : SameMembers one other
  · rw [same_spelled hexadecimal free (same_perm admitted admitted' same)]
    simp [Respelled, Reordered, same]
  · simp [Respelled, Reordered, same]

/-- Files of plain paths spell their own rows. -/
theorem plain_identifies (free : CollisionFree sha256 one other) (admitted : checkEnvelope nfc one = []) (admitted' : checkEnvelope nfc other = [])
    (plain : Plain one) (plain' : Plain other) : Identifies sha256 one other := by
  have whole {members : List SourceFile} (plain : Plain members) :
      spelled sha256 members = (rowsOf sha256 members).map fun row => (row.path, endOf row.digest) := by
    rw [spelled, List.map_eq_flatMap, List.flatMap_def, List.flatMap_def]
    refine congrArg _ (List.map_congr_left fun row member => ?_)
    obtain ⟨file, listed, rfl⟩ := List.mem_map.mp ((rowsOf_perm members).mem_iff.mp member)
    unfold unfolded rowOfMember
    rw [cutAt_plain (plain file listed).2]
    rfl
  rw [identifies_iff hexadecimal free admitted admitted']
  constructor
  · intro ⟨apart, same⟩
    rw [whole plain, whole plain'] at same
    have rows : rowsOf sha256 one = rowsOf sha256 other := by
      refine List.map_injective_iff.mpr (fun first second same => ?_) same
      obtain ⟨path, ends⟩ := Prod.mk.inj same
      obtain ⟨_, _⟩ := first
      obtain ⟨_, _⟩ := second
      exact Row.mk.injEq .. ▸ ⟨path, List.append_cancel_right (List.cons.inj ends).2⟩
    have moved : (one.map (rowOfMember sha256)).Perm (other.map (rowOfMember sha256)) :=
      (rowsOf_perm one).symm.trans (rows ▸ rowsOf_perm other)
    have found {first second : SourceFile} (listed : first ∈ one) (listed' : second ∈ other)
        (same : rowOfMember sha256 first = rowOfMember sha256 second) : first = second := by
      have path := encode_injective (plain first listed).1 (plain' second listed').1 (Row.mk.inj same).1
      have bytes := member_row free listed listed' same
      cases first
      cases second
      exact SourceFile.mk.injEq .. ▸ ⟨path, bytes⟩
    refine apart fun member => ⟨fun listed => ?_, fun listed => ?_⟩
    · obtain ⟨twin, listed', same⟩ := List.mem_map.mp (moved.mem_iff.mp (List.mem_map_of_mem listed))
      exact found listed listed' same.symm ▸ listed'
    · obtain ⟨twin, listed', same⟩ := List.mem_map.mp (moved.mem_iff.mpr (List.mem_map_of_mem listed))
      exact found listed' listed same ▸ listed'
  · intro ⟨same, name, differ⟩
    apply differ
    have moved := (same_perm admitted admitted' same).filter (encode ·.path = name)
    refine congrArg _ (moved.eq_of_pairwise ?_ (show List.Pairwise (fun _ _ => True) _ from List.pairwise_of_forall fun _ _ => trivial)
      (List.pairwise_of_forall fun _ _ => trivial))
    intro first second listed listed' _ _
    obtain ⟨listed, named⟩ := List.mem_filter.mp listed
    obtain ⟨listed', named'⟩ := List.mem_filter.mp listed'
    have spelled := (of_decide_eq_true named).trans (of_decide_eq_true named').symm
    have path := encode_injective (plain first listed).1 (plain' second listed').1 spelled
    exact List.inj_on_of_nodup_map (envelope_distinct admitted).2 listed ((same second).mpr listed') path

/-- A digest identifies a member set exactly if the sets do not spell each other's rows, as plain ones never do. -/
theorem package_identity (free : CollisionFree sha256 one other) (admitted : checkEnvelope nfc one = [])
    (admitted' : checkEnvelope nfc other = []) :
    (Identifies sha256 one other ↔ ¬ Respelled sha256 one other ∧ ¬ Reordered one other) ∧
      (Plain one → Plain other → Identifies sha256 one other) :=
  ⟨identifies_iff hexadecimal free admitted admitted', plain_identifies hexadecimal free admitted admitted'⟩

end Binding

section Samples

def emptyHex : String := "e3b0c44298fc1c149afbf4c8996fb92427ae41e4649b934ca495991b7852b855"

def emptyFileAt (path : String) : SourceFile := ⟨units path, []⟩

/-- The manifest of the one empty file `a`, and of `b`. -/
def emptyManifest (path : String) : List UInt8 := encode (units s!"okf-package-v1\n{path}\x00{emptyHex}\n")

/-- SHA-256 of the empty text and of two manifests. -/
def sampleHash (bytes : List UInt8) : String :=
  if bytes = [] then emptyHex
  else if bytes = emptyManifest "a" then "27ade7a263e20ff4e0961d731ad7d5ad4c09e97685da984bb5ad5508c9944394"
  else if bytes = emptyManifest "b" then "143e5ab55111e07032b4689e4dd8eebcc4a765bb25611d819557aaf2a0859e0e"
  else "3f7a6fa0d259b8375feb8f441f2d37f425983565e7646b58e48c2289fc26b528"

theorem sampleHash_hexadecimal (bytes : List UInt8) : bareSha256 (units (sampleHash bytes)) = true := by
  unfold sampleHash
  split
  · decide +kernel
  · split
    · decide +kernel
    · split <;> decide +kernel

theorem package_identity_files : Identifies sampleHash [emptyFileAt "a"] [emptyFileAt "b"] := by
  have plain (path : String) (short : (encode (units path)).length < 66) (formed : isWellFormed (units path)) : Plain [emptyFileAt path] := by
    intro member listed
    rw [List.mem_singleton.mp listed]
    refine ⟨formed, fun before block after split => ?_⟩
    by_contra ends
    obtain ⟨rest, rfl, long, _⟩ := rowEnds.shape block (by simpa using ends)
    have sized := congrArg List.length split
    simp only [emptyFileAt, List.length_append, List.length_cons] at sized
    omega
  have free : CollisionFree sampleHash [emptyFileAt "a"] [emptyFileAt "b"] := by
    refine ⟨by decide +kernel, fun same => ?_⟩
    exact absurd same (by decide +kernel)
  exact (@package_identity sampleHash id _ _ sampleHash_hexadecimal free (by decide +kernel) (by decide +kernel)).2
    (plain "a" (by decide +kernel) (by decide +kernel)) (plain "b" (by decide +kernel) (by decide +kernel))

/-- One path that holds a whole row and two paths of those rows, and a lone surrogate and what it is written as. -/
theorem shared_digests :
    let rows := [emptyFileAt s!"a\x00{emptyHex}\nb"]
    let files := [emptyFileAt "a", emptyFileAt "b"]
    let lone : List SourceFile := [⟨[0xd800], []⟩]
    let replaced : List SourceFile := [⟨[0xfffd], []⟩]
    (checkEnvelope id rows = [] ∧ checkEnvelope id files = [] ∧ bundleDigest sampleHash rows = bundleDigest sampleHash files ∧
      ¬ Identifies sampleHash rows files) ∧
    checkEnvelope id lone = [] ∧ checkEnvelope id replaced = [] ∧ ¬ Identifies sampleHash lone replaced := by
  intro rows files lone replaced
  have sorted : rowsOf sampleHash files = files.map (rowOfMember sampleHash) := List.mergeSort_of_pairwise (by decide +kernel)
  have shared : bundleDigest sampleHash rows = bundleDigest sampleHash files := by
    unfold bundleDigest manifestBytes
    rw [sorted]
    exact congrArg sampleHash (by decide +kernel)
  refine ⟨⟨by decide +kernel, by decide +kernel, shared, fun identifies => ?_⟩, by decide +kernel, by decide +kernel, fun identifies => ?_⟩
  · have listed := (identifies.1.mp shared (emptyFileAt "a")).mpr List.mem_cons_self
    exact absurd listed (by decide +kernel)
  · have listed := (identifies.1.mp (by decide +kernel) ⟨[0xd800], []⟩).mp List.mem_cons_self
    exact absurd listed (by decide +kernel)

end Samples

end SecureHome.Toolchain
