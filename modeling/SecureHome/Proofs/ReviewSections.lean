import Mathlib
import SecureHome.Proofs.Projections
import SecureHome.Proofs.ReviewProse

/-! An accepted review has its sections, its marker lines and its verdict in what it shows. The gate
does not look before the first heading, nor for verdicts outside of their section. -/

namespace SecureHome.Proofs.ReviewSections
open Lib Governance Reviews ReviewProse

section Counts

variable {holds : JsString → Bool} {line text other : JsString} {lines : List JsString} {index : ℕ}

/-- The lines as one text. -/
def joined (lines : List JsString) : JsString := (units "\n").intercalate lines

theorem countMatches_break (text other : JsString) :
    countMatches holds (text ++ 0x0a :: other) = countMatches holds text + countMatches holds other := by
  unfold countMatches
  rw [List.splitOnP_append_cons _ _ (by decide), List.countP_append]

/-- The matches of joined lines are those of each line. -/
theorem countMatches_joined (blank : holds [] = false) : countMatches holds (joined lines) = (lines.map (countMatches holds)).sum := by
  have newline : units "\n" = [0x0a] := by decide
  unfold joined
  rw [newline]
  induction lines with
  | nil =>
    change List.countP holds [[]] = 0
    rw [List.countP_singleton, blank]
    rfl
  | cons line rest ih =>
    cases rest with
    | nil => simp
    | cons next others =>
      rw [List.intercalate_cons_cons, List.append_assoc, List.singleton_append, countMatches_break, ih]
      rfl

theorem headingOf_parts {title : JsString} (found : headingOf line = some title) :
    ∃ rest, line = 0x23 :: 0x23 :: rest ∧ ∀ unit ∈ rest, endsJsLine unit = false := by
  unfold headingOf at found
  obtain ⟨rest, marked, found⟩ := Option.bind_eq_some_iff.mp found
  dsimp only at found
  split at found
  next admitted =>
    refine ⟨rest, ?_, fun unit member => ?_⟩
    · unfold remainder at marked
      split at marked
      next starts =>
        obtain ⟨behind, rfl⟩ := List.isPrefixOf_iff_prefix.mp starts
        cases marked
        rfl
      next => cases marked
    · have gap (unit : UInt16) (isGap : isGap unit = true) : endsJsLine unit = false := by
        unfold Reviews.isGap at isGap
        rcases Bool.or_eq_true_iff.mp isGap with same | same
        · rw [of_decide_eq_true same]
          rfl
        · rw [of_decide_eq_true same]
          rfl
      have taken (list : JsString) (member : unit ∈ list) : isGap unit = true ∨ unit ∈ list.dropWhile isGap := by
        rw [← @List.takeWhile_append_dropWhile _ isGap list] at member
        rcases List.mem_append.mp member with front | back
        · exact .inl (List.all_eq_true.mp List.all_takeWhile unit front)
        · exact .inr back
      rcases taken rest member with isGap | behind
      · exact gap unit isGap
      rcases taken _ (List.mem_reverse.mpr behind) with isGap | inside
      · exact gap unit isGap
      · simpa using List.all_eq_true.mp admitted.2.2 unit (List.mem_reverse.mpr inside)
  next => cases found

/-- A heading is no line of a pattern that starts with an asterisk. -/
theorem countMatches_heading (starred : ∀ text, holds text = true → text.head? = some 0x2a) (found : (headingOf line).isSome = true) :
    countMatches holds line = 0 := by
  obtain ⟨title, found⟩ := Option.isSome_iff_exists.mp found
  obtain ⟨rest, rfl, whole⟩ := headingOf_parts found
  unfold countMatches
  rw [List.splitOnP_eq_singleton, List.countP_singleton]
  · refine if_neg fun holding => ?_
    cases starred _ holding
  · intro unit member
    rcases List.mem_cons.mp member with rfl | member
    · rfl
    rcases List.mem_cons.mp member with rfl | member
    · rfl
    · exact whole unit member

/-- Every line but a heading stands before the first heading or in a section. -/
theorem sum_sections (weigh : JsString → ℕ) (headings : ∀ line, (headingOf line).isSome = true → weigh line = 0) :
    (lines.map weigh).sum = ((bodyLines lines).map weigh).sum + ((sectionsFrom index lines).map fun part =>
        (part.lines.map weigh).sum).sum := by
  induction lines generalizing index with
  | nil => rfl
  | cons line rest ih =>
    rw [List.map_cons, List.sum_cons, bodyLines, sectionsFrom]
    cases found : headingOf line with
    | some title =>
      rw [headings line (by rw [found]; rfl), @ih (index + 1)]
      simp
    | none =>
      rw [@ih (index + 1)]
      simp [Nat.add_assoc]

theorem titles_sections : (sectionsFrom index lines).map Section.title = lines.filterMap headingOf := by
  induction lines generalizing index with
  | nil => rfl
  | cons line rest ih =>
    rw [sectionsFrom]
    cases found : headingOf line with
    | some title => rw [List.map_cons, ih, List.filterMap_cons_some found]
    | none => rw [List.filterMap_cons_none found]; exact ih

theorem sections_after : ∀ part ∈ sectionsFrom index lines, index < part.line := by
  induction lines generalizing index with
  | nil => exact fun _ none_listed => absurd none_listed List.not_mem_nil
  | cons line rest ih =>
    rw [sectionsFrom]
    intro part member
    split at member
    · rcases List.mem_cons.mp member with rfl | later
      · exact Nat.lt_succ_self index
      · exact Nat.lt_of_succ_lt (ih part later)
    · exact Nat.lt_of_succ_lt (ih part member)

/-- Each section has a line of its own. -/
theorem sections_apart : (sectionsFrom index lines).Pairwise fun one other => one.line < other.line := by
  induction lines generalizing index with
  | nil => exact .nil
  | cons line rest ih =>
    rw [sectionsFrom]
    split
    · exact .cons (fun part member => sections_after part member) ih
    · exact ih

/-- The matches of all lines are those before the first heading and those of each section. -/
theorem countMatches_sections (starred : ∀ text, holds text = true → text.head? = some 0x2a) : countMatches holds (joined lines) =
    countMatches holds (joined (bodyLines lines)) + ((sectionsFrom index lines).map fun part => countMatches holds part.body).sum := by
  have blank : holds [] = false := by
    cases empty : holds [] with
    | false => rfl
    | true => cases starred [] empty
  rw [countMatches_joined blank, countMatches_joined blank,
    sum_sections (countMatches holds) fun line => countMatches_heading starred]
  apply congrArg
  apply congrArg
  exact List.map_congr_left fun part _ => (countMatches_joined blank).symm

end Counts

section Judged

variable {sections : List Section} {lines : List JsString} {text : JsString} {code : String} {message : JsString}

theorem failWith_ok {error : Option GateError} : failWith error = .ok () ↔ error = none := by
  cases error <;> simp [failWith]

theorem failIf_ok {refused : Bool} : failIf refused code message = .ok () ↔ refused = false := by
  unfold failIf
  rw [failWith_ok]
  cases refused <;> simp

theorem structure_order (passed : assertSectionStructure sections = .ok ()) :
    (sections.map Section.title).filter (· ∈ requiredSections) = requiredSections := by
  obtain ⟨_, _, passed⟩ := then_ok.mp passed
  obtain ⟨_, _, passed⟩ := then_ok.mp passed
  simpa using failIf_ok.mp passed

theorem forM_ok {Item : Type} {items : List Item} {check : Item → Except GateError Unit} (passed : items.forM check = .ok ()) :
    ∀ item ∈ items, check item = .ok () := by
  induction items with
  | nil => exact fun item none_listed => absurd none_listed List.not_mem_nil
  | cons item rest ih =>
    obtain ⟨_, here, later⟩ := then_ok.mp passed
    rw [List.forall_mem_cons]
    exact ⟨here, ih later⟩

theorem marker_counts {marker : SectionMarker} {owner : Section} (passed : assertMarker sections marker = .ok ())
    (owns : owning sections marker.owner = some owner) : countMatches marker.matches owner.body = 1 ∧
      ∀ part ∈ sections, part.line ≠ owner.line → countMatches marker.matches part.body = 0 := by
  unfold assertMarker at passed
  rw [owns] at passed
  obtain ⟨_, once, passed⟩ := then_ok.mp passed
  refine ⟨by simpa using failIf_ok.mp once, fun part member apart => ?_⟩
  have none_other := Option.map_eq_none_iff.mp (failWith_ok.mp passed)
  have nowhere := List.find?_eq_none.mp none_other part member
  simpa [apart] using nowhere

theorem verdict_counts {verdict : Section} (passed : assertVerdictSection sections = .ok ())
    (owns : owning sections (units "Verdict") = some verdict) :
    countMatches (isVerdict accepted) verdict.body = 1 ∧ (verdictTokens.map fun token => countMatches
        (isVerdict token) verdict.body).sum = 1 := by
  unfold assertVerdictSection at passed
  rw [owns] at passed
  obtain ⟨_, single, passed⟩ := then_ok.mp passed
  have one : (verdictTokens.map fun token => countMatches (isVerdict token) verdict.body).sum = 1 := by
    have long := failIf_ok.mp single
    simpa only [ne_eq, decide_not, Bool.not_eq_false', decide_eq_true_eq, List.length_flatMap, List.length_replicate] using long
  have stated := failIf_ok.mp passed
  simp only [ne_eq, decide_not, Bool.not_eq_false', decide_eq_true_eq] at stated
  obtain ⟨token, _, member⟩ := List.mem_flatMap.mp (List.mem_of_head? stated)
  obtain ⟨some_left, rfl⟩ := List.mem_replicate.mp member
  have listed : countMatches (isVerdict accepted) verdict.body ∈ verdictTokens.map fun token => countMatches (isVerdict token) verdict.body :=
    List.mem_map.mpr ⟨accepted, by decide, rfl⟩
  have bounded := List.le_sum_of_mem listed
  exact ⟨by omega, one⟩

end Judged

section Shown

variable {lines : List JsString} {text other : JsString} {sections : List Section}

/-- The verdicts of a text, of any token. -/
def verdicts (text : JsString) : ℕ := (verdictTokens.map fun token => countMatches (isVerdict token) text).sum

/-- The lines show what a review must: its sections in order, each marker line once and in its
section, and the one verdict in its section. -/
structure Good (lines : List JsString) : Prop where
  ordered : (lines.filterMap headingOf).filter (· ∈ requiredSections) = requiredSections
  marked : ∀ marker ∈ sectionMarkers, countMatches marker.matches (joined lines) = 1 ∧
    ∃ part ∈ sectionsFrom 0 lines, part.title = marker.owner ∧ countMatches marker.matches part.body = 1
  decided : verdicts (joined lines) = 1 ∧
    ∃ part ∈ sectionsFrom 0 lines, part.title = units "Verdict" ∧ countMatches (isVerdict accepted) part.body = 1

/-- No marker line stands before the first heading, and no verdict outside of its section. -/
structure Unstrayed (lines : List JsString) : Prop where
  markers : ∀ marker ∈ sectionMarkers, countMatches marker.matches (joined (bodyLines lines)) = 0
  before : verdicts (joined (bodyLines lines)) = 0
  elsewhere : ∀ part ∈ sectionsFrom 0 lines, part.title ≠ units "Verdict" → verdicts part.body = 0

theorem marker_starred {marker : SectionMarker} (governed : marker ∈ sectionMarkers) {line : JsString}
    (found : marker.matches line = true) : line.head? = some 0x2a := by
  have heads : ∀ marker ∈ sectionMarkers, marker.head.head? = some 0x2a := by decide +kernel
  obtain ⟨behind, found, _⟩ := (Option.any_eq_true ..).mp found
  obtain ⟨rest, starts, _⟩ := Option.bind_eq_some_iff.mp found
  rw [remainder_some starts, List.head?_append, heads marker governed]
  rfl

theorem verdict_starred {token line : JsString} (found : isVerdict token line = true) : line.head? = some 0x2a := by
  obtain ⟨behind, found, _⟩ := (Option.any_eq_true ..).mp found
  rw [remainder_some found]
  rfl

theorem verdicts_sections : verdicts (joined lines) =
    verdicts (joined (bodyLines lines)) + ((sectionsFrom 0 lines).map fun part => verdicts part.body).sum := by
  unfold verdicts
  induction verdictTokens with
  | nil => simp
  | cons token rest ih =>
    simp only [List.map_cons, List.sum_cons, List.sum_map_add]
    rw [ih, @countMatches_sections (isVerdict token) lines 0 fun line => verdict_starred]
    omega

/-- A title found once has one section, apart from all others. -/
theorem owning_alone {title : JsString} (apart : sections.Pairwise fun one other => one.line < other.line)
    (once : (sections.map Section.title).count title = 1) :
    ∃ front owner back, owning sections title = some owner ∧ sections = front ++ owner :: back ∧ owner.title = title ∧
      ∀ part ∈ front ++ back, part.line ≠ owner.line ∧ part.title ≠ title := by
  have listed : title ∈ sections.map Section.title := List.count_pos_iff.mp (by omega)
  obtain ⟨part, member, titled⟩ := List.mem_map.mp listed
  cases owns : owning sections title with
  | none => exact absurd (decide_eq_true titled) (List.find?_eq_none.mp owns part member)
  | some owner =>
    obtain ⟨titled, front, back, rfl, earlier⟩ := List.find?_eq_some_iff_append.mp owns
    have same : owner.title = title := of_decide_eq_true titled
    refine ⟨front, owner, back, rfl, rfl, same, fun part member => ⟨?_, ?_⟩⟩
    · obtain ⟨_, behind, across⟩ := List.pairwise_append.mp apart
      rcases List.mem_append.mp member with before | after
      · exact Nat.ne_of_lt (across part before owner List.mem_cons_self)
      · exact Nat.ne_of_gt (List.rel_of_pairwise_cons behind after)
    · rcases List.mem_append.mp member with before | after
      · simpa using earlier part before
      · intro again
        have more : 0 < (back.map Section.title).count title := List.count_pos_iff.mpr (List.mem_map.mpr ⟨part, after, again⟩)
        rw [List.map_append, List.map_cons, List.count_append, List.count_cons, same] at once
        simp at once
        omega

theorem sum_owner {front back : List Section} {owner : Section} (count : Section → ℕ) :
    ((front ++ owner :: back).map count).sum = ((front ++ back).map count).sum + count owner := by
  simp only [List.map_append, List.map_cons, List.sum_append, List.sum_cons]
  omega

theorem sum_none {count : Section → ℕ} : (sections.map count).sum = 0 ↔ ∀ part ∈ sections, count part = 0 := by
  rw [List.sum_eq_zero_iff_forall_eq_nat, List.forall_mem_map]

theorem accepted_shown (single : Uncrowded text) (passed : assertReviewBody text = .ok ()) :
    assertSectionStructure (sectionsFrom 0 (visible text)) = .ok () ∧
      (∀ marker ∈ sectionMarkers, assertMarker (sectionsFrom 0 (visible text)) marker = .ok ()) ∧
        assertVerdictSection (sectionsFrom 0 (visible text)) = .ok () := by
  unfold assertReviewBody parseSections at passed
  rw [maskNonProse_eq single] at passed
  obtain ⟨_, _, passed⟩ := then_ok.mp passed
  obtain ⟨_, ordered, passed⟩ := then_ok.mp passed
  obtain ⟨_, marked, decided⟩ := then_ok.mp passed
  exact ⟨ordered, forM_ok marked, decided⟩

/-- A required title has one section, where the sections have their order. -/
theorem required_once {title : JsString} (required : title ∈ requiredSections)
    (ordered : (lines.filterMap headingOf).filter (· ∈ requiredSections) = requiredSections) :
    ((sectionsFrom 0 lines).map Section.title).count title = 1 := by
  have apart : requiredSections.Nodup := by decide +kernel
  have kept := List.count_filter (l := lines.filterMap headingOf) (p := fun title => decide (title ∈ requiredSections))
    (decide_eq_true required)
  rw [titles_sections, ← kept, ordered]
  exact List.count_eq_one_of_mem apart required

/-- A marker that has its one line in its section has one line, where none stands before the first heading. -/
theorem marker_once {marker : SectionMarker} (governed : marker ∈ sectionMarkers)
    (ordered : (lines.filterMap headingOf).filter (· ∈ requiredSections) = requiredSections)
    (passed : assertMarker (sectionsFrom 0 lines) marker = .ok ()) :
    countMatches marker.matches (joined lines) = countMatches marker.matches (joined (bodyLines lines)) + 1 ∧
      ∃ part ∈ sectionsFrom 0 lines, part.title = marker.owner ∧ countMatches marker.matches part.body = 1 := by
  have owners : ∀ marker ∈ sectionMarkers, marker.owner ∈ requiredSections := by decide +kernel
  obtain ⟨front, owner, back, owns, split, titled, apart⟩ := owning_alone sections_apart (required_once (owners marker governed) ordered)
  obtain ⟨once, nowhere⟩ := marker_counts passed owns
  have others : ((front ++ back).map fun part => countMatches marker.matches part.body).sum = 0 := by
    apply sum_none.mpr
    intro part member
    apply nowhere part _ (apart part member).1
    rw [split]
    rcases List.mem_append.mp member with before | after
    · exact List.mem_append_left _ before
    · exact List.mem_append_right _ (List.mem_cons_of_mem _ after)
  refine ⟨?_, owner, ?_, titled, once⟩
  · rw [@countMatches_sections marker.matches lines 0 fun line => marker_starred governed, split, sum_owner, others, once]
  · rw [split]
    exact List.mem_append_right _ List.mem_cons_self

theorem verdict_required : units "Verdict" ∈ requiredSections := List.mem_map_of_mem (by decide)

/-- The verdict of the section of verdicts is the only one, where none stands elsewhere. -/
theorem verdict_once (ordered : (lines.filterMap headingOf).filter (· ∈ requiredSections) = requiredSections)
    (passed : assertVerdictSection (sectionsFrom 0 lines) = .ok ()) :
    (verdicts (joined lines) = 1 ↔ verdicts (joined (bodyLines lines)) = 0 ∧
        ∀ part ∈ sectionsFrom 0 lines, part.title ≠ units "Verdict" → verdicts part.body = 0) ∧
      ∃ part ∈ sectionsFrom 0 lines, part.title = units "Verdict" ∧ countMatches (isVerdict accepted) part.body = 1 := by
  obtain ⟨front, owner, back, owns, split, titled, apart⟩ := owning_alone sections_apart (required_once verdict_required ordered)
  obtain ⟨stated, once⟩ := verdict_counts passed owns
  have total : verdicts (joined lines) =
      verdicts (joined (bodyLines lines)) + ((front ++ back).map fun part => verdicts part.body).sum + 1 := by
    rw [verdicts_sections, split, sum_owner, Nat.add_assoc]
    exact congrArg _ (congrArg _ once)
  have elsewhere : ((front ++ back).map fun part => verdicts part.body).sum = 0 ↔
      ∀ part ∈ sectionsFrom 0 lines, part.title ≠ units "Verdict" → verdicts part.body = 0 := by
    rw [sum_none, split]
    constructor
    · intro nowhere part member other
      rcases List.mem_append.mp member with before | after
      · exact nowhere part (List.mem_append_left _ before)
      rcases List.mem_cons.mp after with rfl | after
      · exact absurd titled other
      · exact nowhere part (List.mem_append_right _ after)
    · intro nowhere part member
      apply nowhere part _ (apart part member).2
      rcases List.mem_append.mp member with before | after
      · exact List.mem_append_left _ before
      · exact List.mem_append_right _ (List.mem_cons_of_mem _ after)
  refine ⟨?_, owner, ?_, titled, stated⟩
  · rw [← elsewhere, total]
    omega
  · rw [split]
    exact List.mem_append_right _ List.mem_cons_self

/-- An accepted review with no second comment on a line shows what it must if nothing of it strays. -/
theorem accepted_good (single : Uncrowded text) (passed : assertReviewBody text = .ok ()) :
    Good (visible text) ↔ Unstrayed (visible text) := by
  obtain ⟨built, marked, decided⟩ := accepted_shown single passed
  have ordered := structure_order built
  rw [titles_sections] at ordered
  have verdict := verdict_once ordered decided
  constructor
  · intro good
    obtain ⟨before, elsewhere⟩ := verdict.1.mp good.decided.1
    refine ⟨fun marker governed => ?_, before, elsewhere⟩
    have once := (marker_once governed ordered (marked marker governed)).1
    rw [(good.marked marker governed).1] at once
    omega
  · intro unstrayed
    refine ⟨ordered, fun marker governed => ?_, verdict.1.mpr ⟨unstrayed.before, unstrayed.elsewhere⟩, verdict.2⟩
    obtain ⟨once, owned⟩ := marker_once governed ordered (marked marker governed)
    rw [unstrayed.markers marker governed] at once
    exact ⟨once, owned⟩

/-- What hidden text may do: an accepted review shows what it must, and no two reviews are told apart
by what they hide. -/
structure Judged (text : JsString) : Prop where
  shown : assertReviewBody text = .ok () → Good (visible text)
  blind : ∀ other, Alike text other → hasPlaceholder text = false → hasPlaceholder other = false →
    assertReviewBody text = assertReviewBody other

/-- A review of the required sections with their marker lines and the given lines as its verdict. -/
def reviewOf (verdict : List String) : JsString :=
  joined (requiredSections.flatMap fun title => heading title :: ((sectionMarkers.filter fun marker => marker.owner = title).map
    SectionMarker.label ++ if title = units "Verdict" then verdict.map units else []))

/-- The verdict of this review stands in the second comment of a line. -/
def hiddenVerdict : JsString := reviewOf ["<!\x2d- a --> <!\x2d-", "**ARCHITECTURE_ACCEPTED**", "-->"]

end Shown

end SecureHome.Proofs.ReviewSections
