import SecureHome.Core.Primitives

/-! Normal forms of paths. A scheme is looked for before segments are dropped, so one that
stands behind a dropped segment comes out in front. -/

namespace SecureHome.Core
open Lib

variable {raw path : String}

/-- What a normalized path has none of. -/
structure NormalForm (path : String) : Prop where
  segments : ∀ segment ∈ path.toList.splitOn '/', segment ≠ [] ∧ segment ≠ ['.'] ∧ segment ≠ ['.', '.']
  relative : path.toList.head? ≠ some '/'
  posix : '\\' ∉ path.toList
  no_nul : '\x00' ∉ path.toList
  unqualified : schemeQualified path = false

/-- Normalized, a path stays as it is. -/
def StaysNormal (raw : String) : Prop := ∀ path, normalizePath raw = .ok path → normalizePath path = .ok path ∧ NormalForm path

/-- A path that is refused for nothing but a scheme, which it has behind a leading `./`. -/
def HidesScheme (raw : String) : Prop :=
  ['.', '/'] <+: raw.toList ∧ (∃ first, (segmentsOf raw).head? = some first ∧ schemeQualified (String.ofList first) = true) ∧
    '\\' ∉ raw.toList ∧ '\x00' ∉ raw.toList ∧ ['.', '.'] ∉ segmentsOf raw

/-- What a path that can be normalized has to be. -/
structure Normalizable (raw : String) : Prop where
  some_text : raw ≠ ""
  posix : '\\' ∉ raw.toList
  relative : raw.toList.head? ≠ some '/'
  unqualified : schemeQualified raw = false
  no_nul : '\x00' ∉ raw.toList
  some_segments : segmentsOf raw ≠ []
  untraversed : ['.', '.'] ∉ segmentsOf raw

theorem normalizePath_iff : normalizePath raw = .ok path ↔ Normalizable raw ∧ path.toList = ['/'].intercalate (segmentsOf raw) := by
  constructor
  · intro normal
    unfold normalizePath at normal
    split at normal
    · cases normal
    next some_text =>
    split at normal
    · cases normal
    next posix =>
    split at normal
    · cases normal
    next relative =>
    split at normal
    · cases normal
    next unqualified =>
    split at normal
    · cases normal
    next no_nul =>
    split at normal
    · cases normal
    next some_segments =>
    split at normal
    · cases normal
    next untraversed =>
    cases normal
    exact ⟨⟨some_text, posix, relative, by simpa using unqualified, no_nul, some_segments, untraversed⟩, String.toList_ofList⟩
  · intro ⟨able, text⟩
    unfold normalizePath
    rw [if_neg able.some_text, if_neg able.posix, if_neg able.relative, if_neg (by simp [able.unqualified]), if_neg able.no_nul,
      if_neg able.some_segments, if_neg able.untraversed, ← text, String.ofList_toList]

section Segments

variable {segments others : List (List Char)} {segment : List Char}

theorem segment_apart (member : segment ∈ segmentsOf raw) : '/' ∉ segment := splitOn_apart (List.mem_filter.mp member).1

theorem segment_kept (member : segment ∈ segmentsOf raw) : segment ≠ [] ∧ segment ≠ ['.'] := by
  simpa using (List.mem_filter.mp member).2

theorem splitOn_normal (able : Normalizable raw) (text : path.toList = ['/'].intercalate (segmentsOf raw)) :
    path.toList.splitOn '/' = segmentsOf raw := by
  rw [text]
  exact List.splitOn_intercalate '/' (fun _ member => segment_apart member) able.some_segments

theorem segmentsOf_normal (able : Normalizable raw) (text : path.toList = ['/'].intercalate (segmentsOf raw)) : segmentsOf path = segmentsOf raw := by
  unfold segmentsOf
  rw [splitOn_normal able text]
  exact List.filter_eq_self.mpr fun segment member => by simpa using segment_kept member

/-- What is in a joined text is in a part of it, or the separator. -/
theorem mem_joined {character : Char} (member : character ∈ ['/'].intercalate segments) : character = '/' ∨ ∃ segment ∈ segments, character ∈ segment := by
  induction segments with
  | nil => cases member
  | cons segment rest ih =>
    cases rest with
    | nil =>
      rw [List.intercalate_singleton] at member
      exact .inr ⟨segment, List.mem_cons_self, member⟩
    | cons next others =>
      rw [List.intercalate_cons_cons, List.append_assoc, List.mem_append, List.mem_append] at member
      rcases member with here | slash | later
      · exact .inr ⟨segment, List.mem_cons_self, here⟩
      · exact .inl (List.mem_singleton.mp slash)
      · exact (ih later).imp_right fun ⟨part, listed, inside⟩ => ⟨part, List.mem_cons_of_mem _ listed, inside⟩

theorem mem_segment {character : Char} (member : segment ∈ segmentsOf raw) (inside : character ∈ segment) : character ∈ raw.toList := by
  have joined : ['/'].intercalate (raw.toList.splitOn '/') = raw.toList := List.intercalate_splitOn '/'
  rw [← joined]
  have part := (List.mem_filter.mp member).1
  generalize raw.toList.splitOn '/' = parts at part
  induction parts with
  | nil => cases part
  | cons first rest ih =>
    cases rest with
    | nil =>
      rw [List.mem_singleton] at part
      rw [List.intercalate_singleton, ← part]
      exact inside
    | cons next others =>
      rw [List.intercalate_cons_cons]
      rcases List.mem_cons.mp part with rfl | later
      · exact List.mem_append_left _ (List.mem_append_left _ inside)
      · exact List.mem_append_right _ (ih later)

/-- A path has only the characters of the one it is normal form of. -/
theorem mem_normal {character : Char} (text : path.toList = ['/'].intercalate (segmentsOf raw)) (other : character ≠ '/')
    (member : character ∈ path.toList) : character ∈ raw.toList := by
  rw [text] at member
  rcases mem_joined member with slash | ⟨segment, listed, inside⟩
  · exact absurd slash other
  · exact mem_segment listed inside

end Segments

section Schemes

/-- A scheme is in the first part of a path. -/
theorem schemeQualified_first (first rest : List Char) :
    schemeQualified (String.ofList (first ++ '/' :: rest)) = schemeQualified (String.ofList first) := by
  unfold schemeQualified
  rw [String.toList_ofList, String.toList_ofList]
  cases first with
  | nil => rfl
  | cons letter others =>
    dsimp only [List.cons_append]
    congr 1
    rw [List.dropWhile_append]
    split
    next none_left =>
      rw [List.isEmpty_iff.mp none_left]
      rfl
    next some_left =>
      cases dropped : others.dropWhile _ with
      | nil =>
        rw [dropped] at some_left
        exact absurd rfl some_left
      | cons next after => rfl

theorem schemeQualified_joined {first : List Char} {rest : List (List Char)} :
    schemeQualified (String.ofList (['/'].intercalate (first :: rest))) = schemeQualified (String.ofList first) := by
  cases rest with
  | nil => rw [List.intercalate_singleton]
  | cons next others =>
    rw [List.intercalate_cons_cons, List.append_assoc]
    exact schemeQualified_first first _

/-- A scheme that comes out in front was behind a leading `./`. -/
theorem leading_dot (able : Normalizable raw) {first : List Char} (head : (segmentsOf raw).head? = some first)
    (qualified : schemeQualified (String.ofList first) = true) : ['.', '/'] <+: raw.toList := by
  have joined : ['/'].intercalate (raw.toList.splitOn '/') = raw.toList := List.intercalate_splitOn '/'
  unfold segmentsOf at head
  cases parts : raw.toList.splitOn '/' with
  | nil => exact absurd parts (List.splitOn_ne_nil _ _)
  | cons part rest =>
    rw [parts] at head joined
    have unqualified := able.unqualified
    rw [← @String.ofList_toList raw, ← joined, schemeQualified_joined] at unqualified
    by_cases empty : part = []
    · subst empty
      cases rest with
      | nil => exact absurd (String.toList_inj.mp joined.symm) able.some_text
      | cons next others =>
        refine absurd ?_ able.relative
        rw [← joined, List.intercalate_cons_cons]
        rfl
    · by_cases dot : part = ['.']
      · subst dot
        cases rest with
        | nil => exact absurd (show segmentsOf raw = [] by unfold segmentsOf; rw [parts]; rfl) able.some_segments
        | cons next others =>
          rw [← joined, List.intercalate_cons_cons]
          exact List.prefix_append _ _
      · rw [List.filter_cons_of_pos (by simp [empty, dot]), List.head?_cons] at head
        cases head
        rw [qualified] at unqualified
        cases unqualified

theorem unqualified_dot {rest : List Char} (text : raw.toList = '.' :: '/' :: rest) : schemeQualified raw = false := by
  unfold schemeQualified
  rw [text]
  rfl

/-- A path stays normal unless it hides a scheme. -/
theorem staysNormal_iff : StaysNormal raw ↔ ¬ HidesScheme raw := by
  constructor
  · intro stays ⟨⟨rest, text⟩, ⟨first, head, qualified⟩, posix, no_nul, untraversed⟩
    have some_segments : segmentsOf raw ≠ [] := by
      intro none_left
      rw [none_left] at head
      cases head
    have able : Normalizable raw := by
      refine ⟨?_, posix, ?_, unqualified_dot text.symm, no_nul, some_segments, untraversed⟩
      · rintro rfl
        cases text
      · rw [← text]
        exact nofun
    have normal := (stays _ (normalizePath_iff.mpr ⟨able, String.toList_ofList⟩)).2.unqualified
    cases segments : segmentsOf raw with
    | nil => exact some_segments segments
    | cons one others =>
      rw [segments] at head normal
      rw [List.head?_cons] at head
      cases head
      rw [schemeQualified_joined, qualified] at normal
      cases normal
  · intro shown path normal
    obtain ⟨able, text⟩ := normalizePath_iff.mp normal
    have kept := segmentsOf_normal able text
    have form : NormalForm path := by
      have posix : '\\' ∉ path.toList := fun member => able.posix (mem_normal text (by decide) member)
      have no_nul : '\x00' ∉ path.toList := fun member => able.no_nul (mem_normal text (by decide) member)
      refine ⟨?_, ?_, posix, no_nul, ?_⟩
      · intro segment member
        rw [splitOn_normal able text] at member
        refine ⟨(segment_kept member).1, (segment_kept member).2, ?_⟩
        rintro rfl
        exact able.untraversed member
      · cases segments : segmentsOf raw with
        | nil => exact absurd segments able.some_segments
        | cons first others =>
          have listed : first ∈ segmentsOf raw := by rw [segments]; exact List.mem_cons_self
          rw [text, segments]
          cases first with
          | nil => exact absurd rfl (segment_kept listed).1
          | cons letter letters =>
            have apart := segment_apart listed
            intro slash
            have same : letter = '/' := by cases others <;> simpa [List.intercalate_cons_cons] using slash
            exact apart (same ▸ List.mem_cons_self)
      · by_contra qualified
        refine shown ?_
        cases segments : segmentsOf raw with
        | nil => exact absurd segments able.some_segments
        | cons first others =>
          have head : (segmentsOf raw).head? = some first := by rw [segments]; rfl
          rw [← @String.ofList_toList path, text, segments, schemeQualified_joined] at qualified
          have scheme : schemeQualified (String.ofList first) = true := by simpa using qualified
          exact ⟨leading_dot able head scheme, ⟨first, head, scheme⟩, able.posix, able.no_nul, able.untraversed⟩
    refine ⟨normalizePath_iff.mpr ⟨⟨?_, form.posix, form.relative, form.unqualified, form.no_nul, ?_, ?_⟩, ?_⟩, form⟩
    · rintro rfl
      exact (form.segments [] (by simp)).1 rfl
    · rw [kept]
      exact able.some_segments
    · rw [kept]
      exact able.untraversed
    · rw [kept, text]

end Schemes

section Prefixes

theorem joined_append {one other : List (List Char)} (some_parts : one ≠ []) (some_others : other ≠ []) :
    ['/'].intercalate (one ++ other) = ['/'].intercalate one ++ '/' :: ['/'].intercalate other := by
  induction one with
  | nil => exact absurd rfl some_parts
  | cons part rest ih =>
    cases rest with
    | nil =>
      obtain ⟨next, others, rfl⟩ := List.exists_cons_of_ne_nil some_others
      rw [List.singleton_append, List.intercalate_cons_cons, List.intercalate_singleton, List.append_assoc]
      rfl
    | cons next others =>
      have later := ih (List.cons_ne_nil _ _)
      rw [List.cons_append] at later
      rw [List.cons_append, List.cons_append, List.intercalate_cons_cons, List.intercalate_cons_cons, later]
      simp only [List.append_assoc]

variable {other normal : String}

/-- One normal form is a prefix of another exactly if its segments come first. -/
theorem isPathPrefix_iff (one : normalizePath raw = .ok path) (two : normalizePath other = .ok normal) :
    isPathPrefix path normal = true ↔ segmentsOf raw <+: segmentsOf other := by
  obtain ⟨able, text⟩ := normalizePath_iff.mp one
  obtain ⟨able', text'⟩ := normalizePath_iff.mp two
  unfold isPathPrefix
  rw [Bool.or_eq_true, beq_iff_eq, List.isPrefixOf_iff_prefix]
  constructor
  · rintro (rfl | ⟨rest, longer⟩)
    · have same : segmentsOf raw = segmentsOf other := by rw [← splitOn_normal able text, ← splitOn_normal able' text']
      exact same ▸ List.prefix_refl _
    · have parts : normal.toList.splitOn '/' = path.toList.splitOn '/' ++ rest.splitOn '/' := by
        rw [← longer, List.append_assoc, List.singleton_append, List.splitOn_append_cons_self]
      rw [← splitOn_normal able text, ← splitOn_normal able' text']
      exact ⟨rest.splitOn '/', parts.symm⟩
  · rintro ⟨rest, longer⟩
    cases rest with
    | nil =>
      rw [List.append_nil] at longer
      left
      rw [← String.toList_inj, text, text', longer]
    | cons next others =>
      right
      refine ⟨['/'].intercalate (next :: others), ?_⟩
      rw [text, text', ← longer, joined_append able.some_segments (List.cons_ne_nil _ _), List.append_assoc, List.singleton_append]

/-- A path stays normal exactly if no scheme is hidden in it, and prefixes are by segments. -/
theorem normal_paths (raw : String) : (StaysNormal raw ↔ ¬ HidesScheme raw) ∧
    ∀ path other normal, normalizePath raw = .ok path → normalizePath other = .ok normal →
      (isPathPrefix path normal = true ↔ segmentsOf raw <+: segmentsOf other) :=
  ⟨staysNormal_iff, fun _ _ _ => isPathPrefix_iff⟩

/-- A scheme behind a dot comes out as one. -/
theorem hidden_scheme : normalizePath "./file:notes" = .ok "file:notes" ∧ normalizePath "file:notes" = .error "scheme-qualified path" ∧
    ¬ StaysNormal "./file:notes" := by
  have normal : normalizePath "./file:notes" = .ok "file:notes" := by decide
  have refused : normalizePath "file:notes" = .error "scheme-qualified path" := by decide
  refine ⟨normal, refused, fun stays => ?_⟩
  have again := (stays _ normal).1
  rw [refused] at again
  cases again

end Prefixes

end SecureHome.Core
