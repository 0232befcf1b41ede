import SecureHome.Governance.Projections
import SecureHome.Lib.Fallible
import Mathlib.Data.List.Permutation

/-! What rendering the projections leaves of the texts that carry them. -/

namespace SecureHome.Governance
open Lib Publication

section Markers

/-- The units of which a marker is made between its brackets. -/
def isMarkerUnit (unit : UInt16) : Bool := isSpaceUnit unit || isAlphanumeric unit || unit == 0x2d || unit == 0x21 || unit == 0x3a

theorem remainder_some {start text rest : JsString} (found : remainder start text = some rest) : text = start ++ rest := by
  unfold remainder at found
  split at found
  next begins =>
    obtain ⟨after, rfl⟩ := List.isPrefixOf_iff_prefix.mp begins
    cases found
    rw [List.drop_left]
  next => cases found

theorem spaces_units {text : JsString} {unit : UInt16} (rest : ∀ unit ∈ text.dropWhile isSpaceUnit, isMarkerUnit unit = true)
    (member : unit ∈ text) : isMarkerUnit unit = true := by
  rw [← List.takeWhile_append_dropWhile (p := isSpaceUnit) (l := text)] at member
  rcases List.mem_append.mp member with space | later
  · have blank : isSpaceUnit unit = true := List.all_eq_true.mp List.all_takeWhile unit space
    simp [isMarkerUnit, blank]
  · exact rest unit later

theorem given_units {start text rest : JsString} (plain : ∀ unit ∈ start, isMarkerUnit unit = true) (found : remainder start text = some rest)
    (later : ∀ unit ∈ rest, isMarkerUnit unit = true) : ∀ unit ∈ text, isMarkerUnit unit = true := by
  rw [remainder_some found]
  exact List.forall_mem_append.mpr ⟨plain, later⟩

theorem readRegion_units {rest region : JsString} (read : readRegion rest = some region) : ∀ unit ∈ rest, isMarkerUnit unit = true := by
  unfold readRegion at read
  dsimp only at read
  split at read
  next => cases read
  next =>
    obtain ⟨back, dashes, read⟩ := Option.bind_eq_some_iff.mp read
    split at read
    next named =>
      have name : ∀ unit ∈ back.dropWhile isSpaceUnit, isMarkerUnit unit = true := by
        intro unit member
        have inside := List.mem_reverse.mpr member
        generalize (back.dropWhile isSpaceUnit).reverse = region at named inside
        cases region with
        | nil => cases inside
        | cons first others =>
          obtain ⟨alphanumeric, all⟩ := Bool.and_eq_true_iff.mp named
          rcases List.mem_cons.mp inside with rfl | later
          · simp [isMarkerUnit, alphanumeric]
          · have letter := List.all_eq_true.mp all unit later
            rw [Bool.or_eq_true] at letter
            rcases letter with letter | letter <;> simp [isMarkerUnit, letter]
      have reversed := given_units (List.all_eq_true.mp (by decide)) dashes fun unit member => spaces_units name member
      exact fun unit member => spaces_units (fun unit member => reversed unit (List.mem_reverse.mpr member)) member
    next => cases read

theorem readMarker_units {inner : JsString} {marker : Marker} (read : readMarker inner = some marker) :
    ∀ unit ∈ inner, isMarkerUnit unit = true := by
  unfold readMarker at read
  obtain ⟨comment, opened, read⟩ := Option.bind_eq_some_iff.mp read
  obtain ⟨label, labelled, read⟩ := Option.bind_eq_some_iff.mp read
  obtain ⟨⟨kind, rest⟩, found, read⟩ := Option.bind_eq_some_iff.mp read
  obtain ⟨region, named, _⟩ := Option.map_eq_some_iff.mp read
  have kinds : ∀ unit ∈ label, isMarkerUnit unit = true := by
    unfold readKind at found
    split at found
    next begins =>
      cases found
      exact given_units (List.all_eq_true.mp (by decide)) begins (readRegion_units named)
    next =>
      obtain ⟨_, ends, same⟩ := Option.map_eq_some_iff.mp found
      cases same
      exact given_units (List.all_eq_true.mp (by decide)) ends (readRegion_units named)
  have after := given_units (List.all_eq_true.mp (by decide)) labelled kinds
  exact given_units (List.all_eq_true.mp (by decide)) opened fun unit member => spaces_units after member

/-- A unit of no marker ends one. -/
theorem breaks_marker {unit : UInt16} (foreign : isMarkerUnit unit = false) : Breaks readMarker unit := by
  intro inner member
  cases read : readMarker inner with
  | none => rfl
  | some marker =>
    have inside := readMarker_units read unit member
    rw [foreign] at inside
    cases inside

/-- The text of a marker between its brackets. -/
def markerText (kind : MarkerKind) (region : String) : JsString :=
  units (match kind with | .begin => s!"!-- governance:begin {region} --" | .end => s!"!-- governance:end {region} --")

def markerWord (kind : MarkerKind) (region : String) : JsString := 0x3c :: (markerText kind region ++ [0x3e])

theorem beginMarker_word (region : String) : beginMarker region = markerWord .begin region := by
  simp only [beginMarker, markerWord, markerText, units_append, toString]
  simp [show units "<!-- governance:begin " = 0x3c :: units "!-- governance:begin " from rfl, show units " -->" = units " --" ++ [0x3e] from rfl]

theorem endMarker_word (region : String) : endMarker region = markerWord .end region := by
  simp only [endMarker, markerWord, markerText, units_append, toString]
  simp [show units "<!-- governance:end " = 0x3c :: units "!-- governance:end " from rfl, show units " -->" = units " --" ++ [0x3e] from rfl]

/-- The markers of the registered regions are words that can be read as what they are. -/
theorem markers_read : ∀ region ∈ registeredRegions, ∀ kind : MarkerKind, 0x3c ∉ markerText kind region ∧ 0x3e ∉ markerText kind region ∧
    readMarker (markerText kind region) = some ⟨kind, units region⟩ := by
  intro region member kind
  have listed : region ∈ ["decision-lifecycle", "question-summary", "resolution-banners"] := member
  simp only [List.mem_cons, List.not_mem_nil, or_false] at listed
  rcases listed with rfl | rfl | rfl <;> cases kind <;> decide +kernel

variable {region : String} {kind other : MarkerKind} {text before rest : JsString}

theorem markerWord_solid (registered : region ∈ registeredRegions) (kind : MarkerKind) : Solid 0x3c 0x3e (markerWord kind region) :=
  ⟨markerText kind region, rfl, (markers_read region registered kind).1, (markers_read region registered kind).2.1⟩

theorem markersOf_word (registered : region ∈ registeredRegions) :
    markersOf (before ++ (markerWord kind region ++ rest)) = markersOf before ++ ⟨kind, units region⟩ :: markersOf rest :=
  scan_word (by decide) (breaks_marker (by decide)) (markers_read region registered kind).1 (markers_read region registered kind).2.1
    (markers_read region registered kind).2.2

theorem marker_mem (registered : region ∈ registeredRegions) :
    ⟨kind, units region⟩ ∈ markersOf (before ++ (markerWord kind region ++ rest)) := by
  rw [markersOf_word registered]
  exact List.mem_append_right _ List.mem_cons_self

theorem markerWord_injective {one : String} (registered : region ∈ registeredRegions) (registered' : one ∈ registeredRegions)
    (same : markerWord kind region = markerWord other one) : kind = other ∧ units region = units one := by
  have inside := List.append_cancel_right (List.cons.inj same).2
  have read := (markers_read region registered kind).2.2
  rw [inside, (markers_read one registered' other).2.2] at read
  have marks := Option.some.inj read
  exact ⟨(congrArg Marker.kind marks).symm, (congrArg Marker.region marks).symm⟩

end Markers

section Splicing

/-- A region of a text, between what comes before its begin marker and what comes after its end marker. -/
def framed (region : String) (before inside after : JsString) : JsString :=
  before ++ (markerWord .begin region ++ (inside ++ (markerWord .end region ++ after)))

/-- A text with one region of a name. -/
structure Within (region : String) (text before inside after : JsString) : Prop where
  whole : text = framed region before inside after
  begins : ∀ one other, text = one ++ (markerWord .begin region ++ other) → one = before
  ends : ∀ one other, text = one ++ (markerWord .end region ++ other) → one = before ++ (markerWord .begin region ++ inside)

/-- A body on lines of its own. -/
def lined (body : JsString) : JsString := units "\n" ++ body ++ units "\n"

variable {region : String} {text before inside after body new : JsString}

theorem framed_ends : framed region before inside after =
    (before ++ (markerWord .begin region ++ inside)) ++ (markerWord .end region ++ after) := by
  simp only [framed, List.append_assoc]

theorem framed_inside (same : framed region before inside after = framed region before body after) : inside = body :=
  List.append_cancel_right (List.append_cancel_left (List.append_cancel_left same))

theorem markersOf_framed (registered : region ∈ registeredRegions) : markersOf (framed region before inside after) =
    markersOf before ++ ⟨.begin, units region⟩ :: (markersOf inside ++ ⟨.end, units region⟩ :: markersOf after) := by
  rw [framed, markersOf_word registered, markersOf_word registered]

theorem markersOf_lined : markersOf (lined body) = markersOf body := by
  unfold lined markersOf
  rw [scan_quiet (by decide) (by decide), scan_unopened (by decide)]

theorem Within.unique {before' inside' after' : JsString} (within : Within region text before inside after)
    (whole : text = framed region before' inside' after') : before' = before ∧ inside' = inside ∧ after' = after := by
  have start := within.begins before' _ whole
  subst start
  have rest := List.append_cancel_left (List.append_cancel_left (whole.symm.trans within.whole))
  have finish := within.ends (before' ++ (markerWord .begin region ++ inside')) after' (by rw [whole, framed_ends])
  have insides := List.append_cancel_left (List.append_cancel_left finish)
  subst insides
  exact ⟨rfl, rfl, List.append_cancel_left (List.append_cancel_left rest)⟩

/-- A region is the only one of its name if its markers are nowhere else. -/
theorem within_of_marks (registered : region ∈ registeredRegions) (marks : ∀ kind, ⟨kind, units region⟩ ∉ markersOf before ∧
    ⟨kind, units region⟩ ∉ markersOf inside ∧ ⟨kind, units region⟩ ∉ markersOf after) :
    Within region (framed region before inside after) before inside after := by
  have apart := markerWord_solid registered
  refine ⟨rfl, fun one other same => ?_, fun one other same => ?_⟩
  · rcases words_apart (by decide) (apart .begin) (apart .begin) same with ⟨here, _⟩ | ⟨between, _, later⟩ | ⟨between, earlier, _⟩
    · exact here.symm
    · rcases words_apart (by decide) (apart .end) (apart .begin) later with ⟨_, word, _⟩ | ⟨more, _, last⟩ | ⟨more, first, _⟩
      · exact absurd (markerWord_injective registered registered word).1 (by decide)
      · exact absurd (last ▸ marker_mem registered) (marks .begin).2.2
      · exact absurd (first ▸ marker_mem registered) (marks .begin).2.1
    · exact absurd (earlier ▸ marker_mem registered) (marks .begin).1
  · rw [framed_ends] at same
    rcases words_apart (by decide) (apart .end) (apart .end) same with ⟨here, _⟩ | ⟨between, _, later⟩ | ⟨between, earlier, _⟩
    · exact here.symm
    · exact absurd (later ▸ marker_mem registered) (marks .end).2.2
    · rcases words_apart (by decide) (apart .begin) (apart .end) earlier with ⟨_, word, _⟩ | ⟨more, _, last⟩ | ⟨more, first, _⟩
      · exact absurd (markerWord_injective registered registered word).1 (by decide)
      · exact absurd (last ▸ marker_mem registered) (marks .end).2.1
      · exact absurd (first ▸ marker_mem registered) (marks .end).1

theorem alone_iff {kind : MarkerKind} {index : Nat} : indexOf (markerWord kind region) text = some index ∧
    indexOf (markerWord kind region) (text.drop (index + 1)) = none ↔
      ∃ before after, Alone (markerWord kind region) text before after ∧ before.length = index :=
  indexOf_alone (List.cons_ne_nil _ _)

/-- What splicing cuts a text into. -/
theorem splice_cut : text = framed region before inside after →
    text.take (before.length + (markerWord .begin region).length) ++ units "\n" ++ body ++ units "\n" ++
      text.drop (before ++ (markerWord .begin region ++ inside)).length = framed region before (lined body) after := by
  intro whole
  have taken : text.take (before.length + (markerWord .begin region).length) = before ++ markerWord .begin region := by
    rw [whole, framed, ← List.append_assoc, ← List.length_append]
    exact List.take_left
  have dropped : text.drop (before ++ (markerWord .begin region ++ inside)).length = markerWord .end region ++ after := by
    rw [whole, framed_ends]
    exact List.drop_left
  rw [taken, dropped]
  simp only [framed, lined, List.append_assoc]

/-- Splicing replaces what is between the markers of the one region of its name. -/
theorem spliceRegion_ok (registered : region ∈ registeredRegions) : spliceRegion text region body = .ok new ↔
    ∃ before inside after, Within region text before inside after ∧ new = framed region before (lined body) after := by
  unfold spliceRegion
  rw [beginMarker_word, endMarker_word]
  constructor
  · intro spliced
    split at spliced
    next beginAt endAt begins ends =>
      split at spliced
      next => cases spliced
      next single =>
        obtain ⟨one_begin, one_end⟩ := not_or.mp single
        obtain ⟨before, _, ⟨split, begins_only⟩, rfl⟩ := alone_iff.mp ⟨begins, Option.not_isSome_iff_eq_none.mp one_begin⟩
        obtain ⟨upto, after, ⟨split', ends_only⟩, rfl⟩ := alone_iff.mp ⟨ends, Option.not_isSome_iff_eq_none.mp one_end⟩
        split at spliced
        next => cases spliced
        next ordered =>
          rcases words_apart (by decide) (markerWord_solid registered .begin) (markerWord_solid registered .end) (split.symm.trans split') with
            ⟨_, word, _⟩ | ⟨inside, rfl, _⟩ | ⟨between, rfl, _⟩
          · exact absurd (markerWord_injective registered registered word).1 (by decide)
          · have whole : text = framed region before inside after := by rw [split', framed_ends]
            refine ⟨before, inside, after, ⟨whole, fun one other same => begins_only one other same, fun one other same => ends_only one other same⟩, ?_⟩
            rw [← splice_cut whole]
            exact (Except.ok.inj spliced).symm
          · simp only [List.length_append] at ordered
            have some_word : 0 < (markerWord .end region).length := Nat.succ_pos _
            omega
    next => cases spliced
  · rintro ⟨before, inside, after, within, rfl⟩
    obtain ⟨begins, no_begin⟩ := alone_iff.mpr ⟨before, _, ⟨within.whole, within.begins⟩, rfl⟩
    obtain ⟨ends, no_end⟩ := alone_iff.mpr ⟨_, after, ⟨within.whole.trans framed_ends, within.ends⟩, rfl⟩
    rw [begins, ends]
    dsimp only
    rw [no_begin, no_end, if_neg (by simp), if_neg (by simp only [List.length_append]; omega), splice_cut within.whole]

/-- Spliced again with the same body, a text stays as it is. -/
theorem splice_again (registered : region ∈ registeredRegions) (clear : markersOf body = [])
    (marks : ∀ kind, ⟨kind, units region⟩ ∉ markersOf before ∧ ⟨kind, units region⟩ ∉ markersOf after) :
    spliceRegion (framed region before (lined body) after) region body = .ok (framed region before (lined body) after) := by
  have within : Within region (framed region before (lined body) after) before (lined body) after := by
    refine within_of_marks registered fun kind => ⟨(marks kind).1, ?_, (marks kind).2⟩
    rw [markersOf_lined, clear]
    exact List.not_mem_nil
  exact (spliceRegion_ok registered).mpr ⟨before, lined body, after, within, rfl⟩

/-- Another region stays alone in its place when its own body brings no marker. -/
theorem Within.respliced (registered : region ∈ registeredRegions) (within : Within region text before inside after) (clear : markersOf body = []) :
    Within region (framed region before (lined body) after) before (lined body) after := by
  have apart := markerWord_solid registered
  have barren (kind : MarkerKind) (one other : JsString) : lined body ≠ one ++ (markerWord kind region ++ other) := by
    intro holds
    have member := @marker_mem region kind one other registered
    rw [← holds, markersOf_lined, clear] at member
    cases member
  refine ⟨rfl, fun one other same => ?_, fun one other same => ?_⟩
  · rcases words_apart (by decide) (apart .begin) (apart .begin) same with ⟨here, _⟩ | ⟨between, _, later⟩ | ⟨between, earlier, _⟩
    · exact here.symm
    · rcases words_apart (by decide) (apart .end) (apart .begin) later with ⟨_, word, _⟩ | ⟨more, _, last⟩ | ⟨more, first, _⟩
      · exact absurd (markerWord_injective registered registered word).1 (by decide)
      · have twice := within.begins (before ++ (markerWord .begin region ++ (inside ++ (markerWord .end region ++ more)))) other
          (by rw [within.whole, last]; simp only [framed, List.append_assoc])
        have long := congrArg List.length twice
        simp only [List.length_append, markerWord, List.length_cons] at long
        omega
      · exact absurd first (barren _ _ _)
    · have twice := within.begins one (between ++ (markerWord .begin region ++ (inside ++ (markerWord .end region ++ after))))
        (by rw [within.whole, earlier]; simp only [framed, List.append_assoc])
      exact twice
  · rw [framed_ends] at same
    rcases words_apart (by decide) (apart .end) (apart .end) same with ⟨here, _⟩ | ⟨between, _, later⟩ | ⟨between, earlier, _⟩
    · exact here.symm
    · have twice := within.ends (before ++ (markerWord .begin region ++ (inside ++ (markerWord .end region ++ between)))) other
        (by rw [within.whole, later]; simp only [framed, List.append_assoc])
      have long := congrArg List.length twice
      simp only [List.length_append, markerWord, List.length_cons] at long
      omega
    · rcases words_apart (by decide) (apart .begin) (apart .end) earlier with ⟨_, word, _⟩ | ⟨more, _, last⟩ | ⟨more, first, _⟩
      · exact absurd (markerWord_injective registered registered word).1 (by decide)
      · exact absurd last (barren _ _ _)
      · have twice := within.ends one (more ++ (markerWord .begin region ++ (inside ++ (markerWord .end region ++ after))))
          (by rw [within.whole, first]; simp only [framed, List.append_assoc])
        rw [first] at twice
        have long := congrArg List.length twice
        simp only [List.length_append, markerWord, List.length_cons] at long
        omega

theorem framed_between {one other : String} {middle content last : JsString} :
    framed one before inside (framed other middle content last) = framed other (framed one before inside middle) content last := by
  simp only [framed, List.append_assoc]

variable {one other : String} {front rest : JsString}

/-- A region that has not ended when another begins ends before it. -/
theorem framed_ahead (registered : one ∈ registeredRegions) (registered' : other ∈ registeredRegions) (ended : ⟨.end, units one⟩ ∉ markersOf rest)
    (same : framed one before inside after = front ++ (markerWord .begin other ++ rest)) :
    ∃ between, front = framed one before inside between ∧ after = between ++ (markerWord .begin other ++ rest) := by
  rw [framed_ends] at same
  rcases words_apart (by decide) (markerWord_solid registered .end) (markerWord_solid registered' .begin) same with
    ⟨_, word, _⟩ | ⟨between, earlier, later⟩ | ⟨between, _, later⟩
  · exact absurd (markerWord_injective registered registered' word).1 (by decide)
  · exact ⟨between, by rw [earlier, framed_ends], later⟩
  · exact absurd (later ▸ marker_mem registered) ended

/-- A region that has not begun when another ends begins after it. -/
theorem framed_behind (registered : one ∈ registeredRegions) (registered' : other ∈ registeredRegions) (begun : ⟨.begin, units one⟩ ∉ markersOf front)
    (same : framed one before inside after = front ++ (markerWord .end other ++ rest)) :
    ∃ between, rest = framed one between inside after ∧ before = front ++ (markerWord .end other ++ between) := by
  rcases words_apart (by decide) (markerWord_solid registered .begin) (markerWord_solid registered' .end) same with
    ⟨_, word, _⟩ | ⟨between, earlier, _⟩ | ⟨between, earlier, later⟩
  · exact absurd (markerWord_injective registered registered' word).1 (by decide)
  · exact absurd (earlier ▸ marker_mem registered) begun
  · exact ⟨between, later, earlier⟩

end Splicing

section Bodies

/-- A text between two others that no marker reaches across. -/
def Separates (separator : JsString) : Prop := 0x3c ∉ separator ∧ 0x3e ∉ separator ∧ ∃ unit ∈ separator, isMarkerUnit unit = false

variable {text separator rest : JsString}

theorem markersOf_plain (unopened : 0x3c ∉ text) : markersOf (text ++ rest) = markersOf rest := scan_unopened unopened

theorem markersOf_apart (separates : Separates separator) : markersOf (text ++ separator ++ rest) = markersOf text ++ markersOf rest := by
  obtain ⟨unopened, unclosed, unit, member, foreign⟩ := separates
  obtain ⟨before, after, rfl⟩ := List.append_of_mem member
  have quiet (symbol : UInt16) (apart : symbol ∉ before ++ unit :: after) : symbol ∉ before ∧ symbol ∉ unit :: after :=
    not_or.mp (List.mem_append.not.mp apart)
  have whole : text ++ (before ++ unit :: after) ++ rest = (text ++ before) ++ unit :: (after ++ rest) := by simp
  have bracket : unit ≠ 0x3e := fun same => (quiet _ unclosed).2 (same ▸ List.mem_cons_self)
  unfold markersOf
  rw [whole, scan_break (breaks_marker foreign) bracket, scan_quiet (quiet _ unopened).1 (quiet _ unclosed).1]
  congr 1
  exact scan_unopened (quiet _ unopened).2

theorem markersOf_closing (separates : Separates separator) : markersOf (text ++ separator) = markersOf text := by
  have whole := @markersOf_apart text separator [] separates
  rwa [List.append_nil, show markersOf [] = [] from rfl, List.append_nil] at whole

theorem markersOf_opening (separates : Separates separator) : markersOf (separator ++ rest) = markersOf rest := markersOf_plain separates.1

theorem bars : Separates (units "| ") ∧ Separates (units " | ") ∧ Separates (units " |") := by
  refine ⟨⟨by decide, by decide, ?_⟩, ⟨by decide, by decide, ?_⟩, by decide, by decide, ?_⟩ <;> exact ⟨0x7c, by decide, by decide⟩

theorem points : Separates (units "- **") ∧ Separates (units "** — ") ∧ Separates (units "; ") := by
  refine ⟨⟨by decide, by decide, 0x2a, by decide, by decide⟩, ⟨by decide, by decide, 0x2a, by decide, by decide⟩,
    by decide, by decide, 0x3b, by decide, by decide⟩

/-- Rows on lines of their own are read row by row. -/
theorem markersOf_rows {rows : List JsString} (lead : ∀ row ∈ rows, ∃ start rest, row = start ++ rest ∧ Separates start) :
    markersOf (joinedBy "\n" rows) = rows.flatMap markersOf := by
  unfold joinedBy
  induction rows with
  | nil => rfl
  | cons row rows ih =>
    cases rows with
    | nil => rw [List.intercalate_singleton, List.flatMap_singleton]
    | cons next rows =>
      have later := ih fun row member => lead row (List.mem_cons_of_mem _ member)
      obtain ⟨start, rest, led, separates⟩ := lead next (List.mem_cons_of_mem _ List.mem_cons_self)
      obtain ⟨others, split⟩ : ∃ others, (units "\n").intercalate (next :: rows) = start ++ others := by
        cases rows with
        | nil => exact ⟨rest, by rw [List.intercalate_singleton, led]⟩
        | cons third rows => exact ⟨_, by rw [List.intercalate_cons_cons, led, List.append_assoc, List.append_assoc]⟩
      have apart : Separates (units "\n" ++ start) := by
        obtain ⟨unopened, unclosed, unit, member, foreign⟩ := separates
        have outside (symbol : UInt16) (there : symbol ∉ start) (here : symbol ∉ units "\n") : symbol ∉ units "\n" ++ start :=
          List.mem_append.not.mpr (not_or.mpr ⟨here, there⟩)
        exact ⟨outside _ unopened (by decide), outside _ unclosed (by decide), unit, List.mem_append_right _ member, foreign⟩
      rw [List.intercalate_cons_cons, split, List.append_assoc, ← List.append_assoc (units "\n"), ← List.append_assoc, markersOf_apart apart,
        List.flatMap_cons, ← later, split, markersOf_opening separates]

/-- The values in the cells of a row. -/
def lifecycleCells (adr : ProjectedAdr) : List JsString :=
  let resolves := sortedByText id adr.resolves
  [adr.id, adr.lifecycle, adr.decisionDate.getD dash] ++ if resolves = [] then [] else [joinedBy ", " resolves]

def summaryCells (answers : JsString → Option DerivedAnswer) (question : ProjectedQuestion) : List JsString :=
  [question.id, question.title, question.severity] ++ ((answers question.id).bind (·.resolver)).toList

def bannerCells (answers : JsString → Option DerivedAnswer) (question : ProjectedQuestion) : List JsString :=
  question.id :: ((answers question.id).bind (·.resolvedOn)).toList ++ [question.title]

def cellMarkers (values : List JsString) : List Marker := values.flatMap fun value => markersOf (cell value)

theorem markersOf_dash : markersOf dash = [] := rfl

theorem markersOf_lifecycleRow (adr : ProjectedAdr) : markersOf (lifecycleRow adr) = cellMarkers (lifecycleCells adr) := by
  unfold lifecycleRow
  dsimp only
  rw [markersOf_closing bars.2.2, markersOf_apart bars.2.1, markersOf_apart bars.2.1, markersOf_apart bars.2.1, markersOf_opening bars.1]
  unfold cellMarkers lifecycleCells
  split
  next none => simp [none, markersOf_dash]
  next some_ids => simp [some_ids]

theorem markersOf_summaryRow (answers : JsString → Option DerivedAnswer) (question : ProjectedQuestion) :
    markersOf (summaryRow answers question) = cellMarkers (summaryCells answers question) := by
  unfold summaryRow
  dsimp only
  have state (resolved : Bool) : markersOf (units (if resolved then "Resolved" else "Open")) = [] := by cases resolved <;> rfl
  rw [markersOf_closing bars.2.2, markersOf_apart bars.2.1, markersOf_apart bars.2.1, markersOf_apart bars.2.1, markersOf_apart bars.2.1,
    markersOf_opening bars.1, state]
  unfold cellMarkers summaryCells
  cases (answers question.id).bind (·.resolver) with
  | none => simp [markersOf_dash]
  | some resolver => simp

theorem markersOf_bannerRow (answers : JsString → Option DerivedAnswer) (question : ProjectedQuestion) :
    markersOf (bannerRow answers question) = cellMarkers (bannerCells answers question) := by
  unfold bannerRow
  dsimp only
  have state (resolved : Bool) : 0x3c ∉ units (if resolved then "resolved" else "open") := by cases resolved <;> decide
  rw [markersOf_apart points.2.2, List.append_assoc (_ ++ units "** — "), markersOf_apart points.2.1, markersOf_opening points.1,
    markersOf_plain (state _)]
  unfold cellMarkers bannerCells
  cases (answers question.id).bind (·.resolvedOn) with
  | none => simp [show markersOf [] = [] from rfl]
  | some date =>
    have dated : markersOf (units " on " ++ cell date) = markersOf (cell date) := markersOf_plain (by decide)
    simp [dated]

/-- No marker is in any of these values as it is rendered. -/
def Unmarked (values : List JsString) : Prop := ∀ value ∈ values, markersOf (cell value) = []

theorem rows_unmarked {Item : Type} {items : List Item} {textOf : Item → JsString} {header : List JsString} {row : Item → JsString}
    {cells : Item → List JsString} (plain : header.flatMap markersOf = []) (led : ∀ text ∈ header, ∃ start rest, text = start ++ rest ∧ Separates start)
    (lead : ∀ item, ∃ start rest, row item = start ++ rest ∧ Separates start) (marks : ∀ item, markersOf (row item) = cellMarkers (cells item)) :
    markersOf (joinedBy "\n" (header ++ (sortedByText textOf items).map row)) = [] ↔ ∀ item ∈ items, Unmarked (cells item) := by
  rw [markersOf_rows (List.forall_mem_append.mpr ⟨led, List.forall_mem_map.mpr fun item _ => lead item⟩), List.flatMap_append, plain,
    List.nil_append, List.flatMap_map, List.flatMap_eq_nil_iff]
  have listed (item : Item) : item ∈ sortedByText textOf items ↔ item ∈ items := (List.mergeSort_perm _ _).mem_iff
  refine forall_congr' fun item => imp_congr (listed item) ?_
  rw [marks item, cellMarkers, List.flatMap_eq_nil_iff]
  rfl

variable (state : ProjectedState)

theorem lifecycleRow_led (adr : ProjectedAdr) : ∃ start rest, lifecycleRow adr = start ++ rest ∧ Separates start := by
  unfold lifecycleRow
  simp only [List.append_assoc]
  exact ⟨units "| ", _, rfl, bars.1⟩

theorem summaryRow_led (answers : JsString → Option DerivedAnswer) (question : ProjectedQuestion) :
    ∃ start rest, summaryRow answers question = start ++ rest ∧ Separates start := by
  unfold summaryRow
  simp only [List.append_assoc]
  exact ⟨units "| ", _, rfl, bars.1⟩

theorem bannerRow_led (answers : JsString → Option DerivedAnswer) (question : ProjectedQuestion) :
    ∃ start rest, bannerRow answers question = start ++ rest ∧ Separates start := by
  unfold bannerRow
  simp only [List.append_assoc]
  exact ⟨units "- **", _, rfl, points.1⟩

theorem lifecycle_unmarked : markersOf (renderDecisionLifecycle state) = [] ↔ ∀ adr ∈ state.adrs, Unmarked (lifecycleCells adr) := by
  refine rows_unmarked (by decide) (fun text member => ?_) lifecycleRow_led markersOf_lifecycleRow
  rcases List.mem_pair.mp member with rfl | rfl
  · exact ⟨units "| ", units "Decision | Lifecycle | Decision date | Resolves |", rfl, bars.1⟩
  · exact ⟨units "| ", units "--- | --- | --- | --- |", rfl, bars.1⟩

theorem summary_unmarked : markersOf (renderQuestionSummary state) = [] ↔
    ∀ question ∈ state.questions, Unmarked (summaryCells state.answers question) := by
  refine rows_unmarked (by decide) (fun text member => ?_) (summaryRow_led state.answers) (markersOf_summaryRow state.answers)
  rcases List.mem_pair.mp member with rfl | rfl
  · exact ⟨units "| ", units "Question | Title | Severity | State | Resolved by |", rfl, bars.1⟩
  · exact ⟨units "| ", units "--- | --- | --- | --- | --- |", rfl, bars.1⟩

theorem banners_unmarked : markersOf (renderResolutionBanners state) = [] ↔
    ∀ question ∈ state.questions, Unmarked (bannerCells state.answers question) :=
  @rows_unmarked _ _ _ [] _ _ rfl (by simp) (bannerRow_led state.answers) (markersOf_bannerRow state.answers)

end Bodies

section Layout

/-- A region of a text with what comes before it. -/
structure Part where
  gap : JsString
  region : String
  content : JsString

def layoutText : List Part → JsString → JsString
  | [], last => last
  | part :: parts, last => framed part.region part.gap part.content (layoutText parts last)

/-- The regions of a target side by side in some order, with no marker between them or about them. -/
def LaidOut (regions : List String) (text : JsString) : Prop := ∃ parts last, text = layoutText parts last ∧
  (parts.map (·.region)).Perm regions ∧ (∀ part ∈ parts, markersOf part.gap = []) ∧ markersOf last = []

/-- One text is another with nothing replaced but what is between the markers of some of these regions. -/
def Resplices (regions : List String) (old new : JsString) : Prop := ∃ parts parts' last, old = layoutText parts last ∧ new = layoutText parts' last ∧
  parts'.map (fun part => (part.gap, part.region)) = parts.map (fun part => (part.gap, part.region)) ∧
  (parts.map (·.region)).Nodup ∧ ∀ part ∈ parts, part.region ∈ regions

def pairOfMarkers (region : String) : List Marker := [⟨.begin, units region⟩, ⟨.end, units region⟩]

/-- The markers of a text are one begin and one end of each region, in order. -/
def Marked (regions : List String) (text : JsString) : Prop := ∃ order : List String, order.Perm regions ∧ markersOf text = order.flatMap pairOfMarkers

def regionsOf (target : String) : List String := (projections.filter (·.target = target)).filterMap (·.region)

/-- A rendering replaces its own regions, leaves their markers alone and is repeated to the same effect. -/
structure Faithful (state : ProjectedState) (results : List (String × Rendering)) : Prop where
  regions : ∀ target rendering text, (target, rendering) ∈ results → regionsOf target ≠ [] → rendering.actual = some text →
    Resplices (regionsOf target) text rendering.expected ∧ Marked (regionsOf target) rendering.expected
  again : ∃ later, renderProjections state (fun target => (results.lookup target).map (·.expected)) = .ok later ∧
    ∀ target rendering, (target, rendering) ∈ later → rendering.actual = some rendering.expected

/-- The regions of every target are side by side with no other marker about them, and no cell holds one. -/
def Orderly (state : ProjectedState) (read : String → Option JsString) : Prop :=
  (∀ target ∈ registeredTargets, ∀ text, read target = some text → regionsOf target ≠ [] → LaidOut (regionsOf target) text) ∧
    (∀ adr ∈ state.adrs, Unmarked (lifecycleCells adr)) ∧
    ∀ question ∈ state.questions, Unmarked (summaryCells state.answers question ++ bannerCells state.answers question)

variable {state : ProjectedState} {read : String → Option JsString} {results : List (String × Rendering)}

/-- What a rendering is made of. -/
structure RenderedFrom (state : ProjectedState) (read : String → Option JsString) (index index' unresolved summed unresolved' : JsString) : Prop where
  index_read : read "docs/decisions/INDEX.md" = some index
  unresolved_read : read "docs/architecture/unresolved-decisions.md" = some unresolved
  lifecycle : spliceRegion index "decision-lifecycle" (renderDecisionLifecycle state) = .ok index'
  summary : spliceRegion unresolved "question-summary" (renderQuestionSummary state) = .ok summed
  banners : spliceRegion summed "resolution-banners" (renderResolutionBanners state) = .ok unresolved'

def resultsOf (state : ProjectedState) (read : String → Option JsString) (index index' unresolved unresolved' : JsString) :
    List (String × Rendering) := [
  ("governance/STATE.md", ⟨state.stateDocument, read "governance/STATE.md"⟩),
  ("docs/decisions/INDEX.md", ⟨index', some index⟩),
  ("docs/architecture/unresolved-decisions.md", ⟨unresolved', some unresolved⟩)]

theorem renderProjection_ok {target region : String} {render : ProjectedState → JsString} {earlier : List (String × Rendering)} :
    renderProjection state read earlier ⟨target, some region, render⟩ = .ok results ↔ ∃ text new, read target = some text ∧
      spliceRegion (((earlier.lookup target).map (·.expected)).getD text) region (render state) = .ok new ∧
      results = put earlier target ⟨new, some text⟩ := by
  unfold renderProjection
  dsimp only
  cases read target with
  | none => simp
  | some text =>
    dsimp only
    rw [then_ok]
    constructor
    · rintro ⟨new, spliced, same⟩
      exact ⟨text, new, rfl, spliced, (Except.ok.inj same).symm⟩
    · rintro ⟨_, new, ⟨⟩, spliced, rfl⟩
      exact ⟨new, spliced, rfl⟩

theorem renderProjections_ok : renderProjections state read = .ok results ↔ ∃ index index' unresolved summed unresolved',
    RenderedFrom state read index index' unresolved summed unresolved' ∧ results = resultsOf state read index index' unresolved unresolved' := by
  unfold renderProjections projections
  simp only [List.foldlM_cons, List.foldlM_nil, then_ok, renderProjection_ok]
  constructor
  · rintro ⟨_, whole, _, ⟨index, index', index_read, lifecycle, rfl⟩, _, ⟨unresolved, summed, unresolved_read, summary, rfl⟩, _,
      ⟨again, unresolved', again_read, banners, rfl⟩, ⟨⟩⟩
    cases whole
    rw [unresolved_read] at again_read
    cases again_read
    exact ⟨index, index', unresolved, summed, unresolved', ⟨index_read, unresolved_read, lifecycle, summary, banners⟩, rfl⟩
  · rintro ⟨index, index', unresolved, summed, unresolved', rendered, rfl⟩
    exact ⟨_, rfl, _, ⟨index, index', rendered.index_read, rendered.lifecycle, rfl⟩, _,
      ⟨unresolved, summed, rendered.unresolved_read, rendered.summary, rfl⟩, _,
      ⟨unresolved, unresolved', rendered.unresolved_read, rendered.banners, rfl⟩, rfl⟩

end Layout

section OneRegion

variable {region : String} {text body new : JsString}

theorem laidOut_one : LaidOut [region] text ↔
    ∃ before inside after, text = framed region before inside after ∧ markersOf before = [] ∧ markersOf after = [] := by
  constructor
  · rintro ⟨parts, last, rfl, order, gaps, finish⟩
    obtain ⟨part, rfl, rfl⟩ := List.map_eq_singleton_iff.mp (List.perm_singleton.mp order)
    exact ⟨part.gap, part.content, last, rfl, gaps part List.mem_cons_self, finish⟩
  · rintro ⟨before, inside, after, rfl, ahead, behind⟩
    exact ⟨[⟨before, region, inside⟩], after, rfl, .refl _, by simpa using ahead, behind⟩

theorem lone_marks (registered : region ∈ registeredRegions) {before after : JsString} :
    Marked [region] (framed region before (lined body) after) ↔ markersOf before = [] ∧ markersOf body = [] ∧ markersOf after = [] := by
  unfold Marked
  rw [markersOf_framed registered, markersOf_lined]
  constructor
  · rintro ⟨order, perm, marks⟩
    rw [List.perm_singleton.mp perm] at marks
    have long := congrArg List.length marks
    simp only [List.length_append, List.length_cons, List.flatMap_singleton, pairOfMarkers, List.length_nil] at long
    refine ⟨List.eq_nil_of_length_eq_zero ?_, List.eq_nil_of_length_eq_zero ?_, List.eq_nil_of_length_eq_zero ?_⟩ <;> omega
  · rintro ⟨ahead, clear, behind⟩
    exact ⟨[region], .refl _, by rw [ahead, clear, behind]; rfl⟩

variable (registered : region ∈ registeredRegions) (spliced : spliceRegion text region body = .ok new)
include registered spliced

/-- A lone region is marked as it should be exactly if nothing about it or in its body is a marker. -/
theorem lone_marked : Marked [region] new ↔ LaidOut [region] text ∧ markersOf body = [] := by
  obtain ⟨before, inside, after, within, rfl⟩ := (spliceRegion_ok registered).mp spliced
  rw [lone_marks registered, laidOut_one]
  constructor
  · rintro ⟨ahead, clear, behind⟩
    exact ⟨⟨before, inside, after, within.whole, ahead, behind⟩, clear⟩
  · rintro ⟨⟨_, _, _, whole, ahead, behind⟩, clear⟩
    obtain ⟨rfl, rfl, rfl⟩ := within.unique whole
    exact ⟨ahead, clear, behind⟩

theorem lone_again (clear : markersOf body = []) : spliceRegion new region body = .ok new := by
  obtain ⟨before, inside, after, within, rfl⟩ := (spliceRegion_ok registered).mp spliced
  exact (spliceRegion_ok registered).mpr ⟨before, lined body, after, within.respliced registered clear, rfl⟩

theorem lone_resplices : Resplices [region] text new := by
  obtain ⟨before, inside, after, within, rfl⟩ := (spliceRegion_ok registered).mp spliced
  exact ⟨[⟨before, region, inside⟩], [⟨before, region, lined body⟩], after, within.whole, rfl, rfl, List.nodup_singleton _, by simp⟩

end OneRegion

section TwoRegions

variable {one other : String} {text body body' summed new : JsString}

/-- Two regions of a text, the first before the second. -/
def SideBySide (one other : String) (text : JsString) : Prop := ∃ before inside middle content after,
  text = framed one before inside (framed other middle content after) ∧ markersOf before = [] ∧ markersOf middle = [] ∧ markersOf after = []

theorem laidOut_two : LaidOut [one, other] text ↔ SideBySide one other text ∨ SideBySide other one text := by
  have listed (first second : String) (order : [first, second].Perm [one, other]) : SideBySide first second text → LaidOut [one, other] text := by
    rintro ⟨before, inside, middle, content, after, rfl, ahead, between, behind⟩
    exact ⟨[⟨before, first, inside⟩, ⟨middle, second, content⟩], after, rfl, order, by simp [ahead, between], behind⟩
  constructor
  · rintro ⟨parts, last, rfl, order, gaps, finish⟩
    have apart (first second : String) (named : parts.map (·.region) = [first, second]) : SideBySide first second (layoutText parts last) := by
      match parts, named with
      | [part, next], named =>
        obtain ⟨rfl, rest⟩ := List.cons.inj named
        obtain ⟨rfl, _⟩ := List.cons.inj rest
        exact ⟨part.gap, part.content, next.gap, next.content, last, rfl, gaps part (by simp), gaps next (by simp), finish⟩
    rcases List.perm_pair.mp order with named | named
    · exact .inl (apart _ _ named)
    · exact .inr (apart _ _ named)
  · rintro (ordered | reversed)
    · exact listed one other (.refl _) ordered
    · exact listed other one (.swap _ _ _) reversed

theorem lone_pair (registered : one ∈ registeredRegions) {before inside after : JsString} (marks : markersOf (framed one before inside after) = pairOfMarkers one) :
    markersOf before = [] ∧ markersOf inside = [] ∧ markersOf after = [] := by
  rw [markersOf_framed registered] at marks
  have long := congrArg List.length marks
  simp only [List.length_append, List.length_cons, pairOfMarkers, List.length_nil] at long
  refine ⟨List.eq_nil_of_length_eq_zero ?_, List.eq_nil_of_length_eq_zero ?_, List.eq_nil_of_length_eq_zero ?_⟩ <;> omega

theorem foreign_mark (distinct : units one ≠ units other) (kind : MarkerKind) : (⟨kind, units other⟩ : Marker) ∉ pairOfMarkers one := by
  intro member
  rcases List.mem_pair.mp member with same | same
  · exact distinct (congrArg Marker.region same).symm
  · exact distinct (congrArg Marker.region same).symm

/-- Two regions side by side are each spliced again to the same effect. -/
theorem sides_again (registered : one ∈ registeredRegions) (registered' : other ∈ registeredRegions) (distinct : units one ≠ units other)
    {front middle back : JsString} (quiet : markersOf front = [] ∧ markersOf middle = [] ∧ markersOf back = [])
    (clear : markersOf body = []) (clear' : markersOf body' = []) : let both := framed one front (lined body) (framed other middle (lined body') back)
      markersOf both = [one, other].flatMap pairOfMarkers ∧ spliceRegion both one body = .ok both ∧ spliceRegion both other body' = .ok both := by
  obtain ⟨ahead, between, behind⟩ := quiet
  have ahead_marks : markersOf (framed one front (lined body) middle) = pairOfMarkers one := by
    rw [markersOf_framed registered, markersOf_lined, ahead, between, clear]
    rfl
  have behind_marks : markersOf (framed other middle (lined body') back) = pairOfMarkers other := by
    rw [markersOf_framed registered', markersOf_lined, between, behind, clear']
    rfl
  refine ⟨?_, ?_, ?_⟩
  · rw [markersOf_framed registered, behind_marks, markersOf_lined, clear, ahead]
    rfl
  · refine splice_again registered clear fun kind => ⟨?_, behind_marks ▸ foreign_mark distinct.symm kind⟩
    rw [ahead]
    exact List.not_mem_nil
  · rw [framed_between]
    refine splice_again registered' clear' fun kind => ⟨ahead_marks ▸ foreign_mark distinct kind, ?_⟩
    rw [behind]
    exact List.not_mem_nil

/-- Where the markers of the second region stand among the marked ones. -/
theorem pair_marks (registered : other ∈ registeredRegions) (distinct : units one ≠ units other) {before inside after : JsString} (marks : Marked [one, other] (framed other before inside after)) : markersOf inside = [] ∧
    ((markersOf before = pairOfMarkers one ∧ markersOf after = []) ∨ (markersOf before = [] ∧ markersOf after = pairOfMarkers one)) := by
  obtain ⟨order, perm, marks⟩ := marks
  rw [markersOf_framed registered] at marks
  have split (ahead behind : List Marker) (begins : ⟨.begin, units other⟩ ∉ ahead) (rest : ⟨.begin, units other⟩ ∉ behind) (ends : ⟨.end, units other⟩ ∉ behind)
      (same : ahead ++ ⟨.begin, units other⟩ :: ⟨.end, units other⟩ :: behind =
        markersOf before ++ ⟨.begin, units other⟩ :: (markersOf inside ++ ⟨.end, units other⟩ :: markersOf after)) :
      ahead = markersOf before ∧ [] = markersOf inside ∧ behind = markersOf after := by
    obtain ⟨front, _, back⟩ := (List.append_cons_inj_of_notMem begins (by simpa using rest)).mp same
    obtain ⟨middle, _, last⟩ := (@List.append_cons_inj_of_notMem _ [] _ _ _ _ _ List.not_mem_nil ends).mp back
    exact ⟨front, middle, last⟩
  rcases List.perm_pair.mp perm with rfl | rfl
  · obtain ⟨front, middle, last⟩ := split (pairOfMarkers one) [] (foreign_mark distinct .begin) List.not_mem_nil List.not_mem_nil marks.symm
    exact ⟨middle.symm, .inl ⟨front.symm, last.symm⟩⟩
  · obtain ⟨front, middle, last⟩ := split [] (pairOfMarkers one) List.not_mem_nil (foreign_mark distinct .begin) (foreign_mark distinct .end) marks.symm
    exact ⟨middle.symm, .inr ⟨front.symm, last.symm⟩⟩

variable (registered : one ∈ registeredRegions) (registered' : other ∈ registeredRegions) (distinct : units one ≠ units other)
  (first : spliceRegion text one body = .ok summed) (second : spliceRegion summed other body' = .ok new)
include registered registered' distinct first second

/-- Two regions that are marked as they should be and spliced again to the same effect were side by side. -/
theorem pair_laidOut (marked : Marked [one, other] new)
    (again : ∃ later, spliceRegion new one body = .ok later ∧ spliceRegion later other body' = .ok new) :
    LaidOut [one, other] text ∧ markersOf body = [] ∧ markersOf body' = [] := by
  obtain ⟨before, inside, after, within, rfl⟩ := (spliceRegion_ok registered).mp first
  obtain ⟨ahead, content, behind, within', rfl⟩ := (spliceRegion_ok registered').mp second
  obtain ⟨clear', sides⟩ := pair_marks registered' distinct marked
  rw [markersOf_lined] at clear'
  obtain ⟨later, first_again, second_again⟩ := again
  obtain ⟨before', inside', after', within_new, rfl⟩ := (spliceRegion_ok registered).mp first_again
  obtain ⟨ahead', content', behind', within_later, whole⟩ := (spliceRegion_ok registered').mp second_again
  -- The second region stands in one place of the new text, so in the same place of the text it was spliced into.
  have placed : Within other (framed other ahead (lined body') behind) ahead (lined body') behind := by
    refine within_of_marks registered' fun kind => ?_
    rw [markersOf_lined, clear']
    rcases sides with ⟨here, none⟩ | ⟨none, here⟩
    · exact ⟨here ▸ foreign_mark distinct kind, List.not_mem_nil, none ▸ List.not_mem_nil⟩
    · exact ⟨none ▸ List.not_mem_nil, List.not_mem_nil, here ▸ foreign_mark distinct kind⟩
  obtain ⟨rfl, _, rfl⟩ := placed.unique whole
  rcases sides with ⟨here, none⟩ | ⟨none, here⟩
  · have ended : (⟨.end, units one⟩ : Marker) ∉ markersOf (lined body' ++ (markerWord .end other ++ behind')) := by
      rw [markersOf_word registered', markersOf_lined, clear', none]
      simpa using distinct
    obtain ⟨between, rfl, rfl⟩ := framed_ahead registered registered' ended within_new.whole.symm
    obtain ⟨same, _, _⟩ := within_later.unique framed_between
    have inner : lined body = inside' := framed_inside same
    subst inner
    obtain ⟨front, clear, middle⟩ := lone_pair registered here
    obtain ⟨rfl, _, rfl⟩ := (within.respliced registered (markersOf_lined ▸ clear)).unique (within'.whole.trans framed_between.symm)
    exact ⟨laidOut_two.mpr (.inl ⟨_, inside, between, content, behind', within.whole, front, middle, none⟩), markersOf_lined ▸ clear, clear'⟩
  · have begun : (⟨.begin, units one⟩ : Marker) ∉ markersOf (ahead' ++ (markerWord .begin other ++ lined body')) := by
      rw [markersOf_word registered', markersOf_lined, clear', none]
      simpa using distinct
    obtain ⟨between, rfl, rfl⟩ := framed_behind registered registered' begun (within_new.whole.symm.trans framed_ends)
    have later : framed one (framed other ahead' (lined body') between) (lined body) after' =
        framed other ahead' (lined body') (framed one between (lined body) after') := framed_between.symm
    rw [@framed_ends other ahead'] at later
    obtain ⟨_, _, same⟩ := within_later.unique later
    have inner : lined body = inside' := framed_inside same
    subst inner
    obtain ⟨middle, clear, back⟩ := lone_pair registered here
    obtain ⟨rfl, _, rfl⟩ := (within.respliced registered (markersOf_lined ▸ clear)).unique (within'.whole.trans framed_between)
    refine ⟨laidOut_two.mpr (.inr ⟨ahead', content, between, inside, after', ?_, none, middle, back⟩), markersOf_lined ▸ clear, clear'⟩
    exact within.whole.trans framed_between.symm

/-- Side by side, two regions are spliced apart from each other. -/
theorem pair_spliced (laid : LaidOut [one, other] text) (clear : markersOf body = []) (clear' : markersOf body' = []) :
    Resplices [one, other] text new ∧ Marked [one, other] new ∧ spliceRegion new one body = .ok new ∧ spliceRegion new other body' = .ok new := by
  have apart : one ≠ other := fun same => distinct (congrArg units same)
  obtain ⟨before, inside, after, within, rfl⟩ := (spliceRegion_ok registered).mp first
  obtain ⟨ahead, content, behind, within', rfl⟩ := (spliceRegion_ok registered').mp second
  rcases laidOut_two.mp laid with ⟨front, old, middle, old', back, whole, quiet⟩ | ⟨front, old', middle, old, back, whole, quiet⟩
  · obtain ⟨rfl, rfl, rfl⟩ := within.unique whole
    obtain ⟨rfl, rfl, rfl⟩ := within'.unique framed_between
    rw [← framed_between]
    obtain ⟨marks, again, again'⟩ := sides_again registered registered' distinct quiet clear clear'
    refine ⟨⟨[⟨front, one, old⟩, ⟨middle, other, old'⟩], [⟨front, one, lined body⟩, ⟨middle, other, lined body'⟩], back, whole, rfl, rfl,
      by simpa using apart, by simp⟩, ⟨[one, other], .refl _, marks⟩, again, again'⟩
  · obtain ⟨rfl, rfl, rfl⟩ := within.unique (whole.trans framed_between)
    obtain ⟨rfl, rfl, rfl⟩ := within'.unique framed_between.symm
    obtain ⟨marks, again', again⟩ := sides_again registered' registered distinct.symm quiet clear' clear
    refine ⟨⟨[⟨front, other, old'⟩, ⟨middle, one, old⟩], [⟨front, other, lined body'⟩, ⟨middle, one, lined body⟩], back, whole, rfl, rfl,
      by simpa using apart.symm, by simp⟩, ⟨[other, one], .swap _ _ _, marks⟩, again, again'⟩

end TwoRegions

section Faithfulness

variable {state : ProjectedState} {read : String → Option JsString} {results : List (String × Rendering)}
  {index index' unresolved summed unresolved' : JsString}

theorem lifecycle_registered : "decision-lifecycle" ∈ registeredRegions := by decide

theorem summary_registered : "question-summary" ∈ registeredRegions := by decide

theorem banners_registered : "resolution-banners" ∈ registeredRegions := by decide

theorem summary_apart : units "question-summary" ≠ units "resolution-banners" := by decide

theorem regionsOf_state : regionsOf "governance/STATE.md" = [] := by decide

theorem regionsOf_index : regionsOf "docs/decisions/INDEX.md" = ["decision-lifecycle"] := by decide

theorem regionsOf_unresolved :
    regionsOf "docs/architecture/unresolved-decisions.md" = ["question-summary", "resolution-banners"] := by decide

theorem targets_listed : registeredTargets = ["governance/STATE.md", "docs/decisions/INDEX.md", "docs/architecture/unresolved-decisions.md"] := by
  decide

/-- The layout of the texts that a rendering is made of. -/
theorem orderly_iff (rendered : RenderedFrom state read index index' unresolved summed unresolved') : Orderly state read ↔
    (LaidOut ["decision-lifecycle"] index ∧ markersOf (renderDecisionLifecycle state) = []) ∧
      LaidOut ["question-summary", "resolution-banners"] unresolved ∧ markersOf (renderQuestionSummary state) = [] ∧
        markersOf (renderResolutionBanners state) = [] := by
  rw [lifecycle_unmarked, summary_unmarked, banners_unmarked, Orderly, targets_listed]
  simp only [List.forall_mem_cons, List.not_mem_nil, false_implies, implies_true, and_true, regionsOf_state, regionsOf_index, regionsOf_unresolved,
    rendered.index_read, rendered.unresolved_read, ne_eq, not_true_eq_false, reduceCtorEq, not_false_eq_true, forall_const, Option.some.injEq,
    forall_eq', true_and]
  have both : (∀ question ∈ state.questions, Unmarked (summaryCells state.answers question ++ bannerCells state.answers question)) ↔
      (∀ question ∈ state.questions, Unmarked (summaryCells state.answers question)) ∧
        ∀ question ∈ state.questions, Unmarked (bannerCells state.answers question) := by
    unfold Unmarked
    simp only [List.forall_mem_append]
    exact ⟨fun all => ⟨fun question member => (all question member).1, fun question member => (all question member).2⟩,
      fun all question member => ⟨all.1 question member, all.2 question member⟩⟩
  rw [both]
  tauto

theorem faithful_iff :
    Faithful state (resultsOf state read index index' unresolved unresolved') ↔
      (Resplices ["decision-lifecycle"] index index' ∧ Marked ["decision-lifecycle"] index') ∧
      (Resplices ["question-summary", "resolution-banners"] unresolved unresolved' ∧ Marked ["question-summary", "resolution-banners"] unresolved') ∧
      spliceRegion index' "decision-lifecycle" (renderDecisionLifecycle state) = .ok index' ∧
      ∃ later, spliceRegion unresolved' "question-summary" (renderQuestionSummary state) = .ok later ∧
        spliceRegion later "resolution-banners" (renderResolutionBanners state) = .ok unresolved' := by
  have regions : (∀ target rendering text, (target, rendering) ∈ resultsOf state read index index' unresolved unresolved' → regionsOf target ≠ [] →
      rendering.actual = some text → Resplices (regionsOf target) text rendering.expected ∧ Marked (regionsOf target) rendering.expected) ↔
      (Resplices ["decision-lifecycle"] index index' ∧ Marked ["decision-lifecycle"] index') ∧
        Resplices ["question-summary", "resolution-banners"] unresolved unresolved' ∧ Marked ["question-summary", "resolution-banners"] unresolved' := by
    rw [← regionsOf_index, ← regionsOf_unresolved]
    constructor
    · intro all
      exact ⟨all _ ⟨index', some index⟩ _ (by simp [resultsOf]) (by decide) rfl, all _ ⟨unresolved', some unresolved⟩ _ (by simp [resultsOf]) (by decide) rfl⟩
    · rintro ⟨one, two⟩ target rendering text member some_region actual
      simp only [resultsOf, List.mem_cons, List.not_mem_nil, or_false, Prod.mk.injEq] at member
      rcases member with ⟨rfl, rfl⟩ | ⟨rfl, rfl⟩ | ⟨rfl, rfl⟩
      · exact absurd regionsOf_state some_region
      · cases actual
        exact one
      · cases actual
        exact two
  have again : (∃ later, renderProjections state (fun target => ((resultsOf state read index index' unresolved unresolved').lookup target).map (·.expected)) =
      .ok later ∧ ∀ target rendering, (target, rendering) ∈ later → rendering.actual = some rendering.expected) ↔
      spliceRegion index' "decision-lifecycle" (renderDecisionLifecycle state) = .ok index' ∧
        ∃ later, spliceRegion unresolved' "question-summary" (renderQuestionSummary state) = .ok later ∧
          spliceRegion later "resolution-banners" (renderResolutionBanners state) = .ok unresolved' := by
    constructor
    · rintro ⟨_, rerendered, same⟩
      obtain ⟨index_again, index_later, unresolved_again, later, unresolved_later, from_results, rfl⟩ := renderProjections_ok.mp rerendered
      have index_same := same "docs/decisions/INDEX.md" ⟨index_later, some index_again⟩ (by simp [resultsOf])
      have unresolved_same := same "docs/architecture/unresolved-decisions.md" ⟨unresolved_later, some unresolved_again⟩ (by simp [resultsOf])
      cases from_results.index_read
      cases from_results.unresolved_read
      cases index_same
      cases unresolved_same
      exact ⟨from_results.lifecycle, later, from_results.summary, from_results.banners⟩
    · rintro ⟨lifecycle, later, summary, banners⟩
      refine ⟨_, renderProjections_ok.mpr ⟨index', index', unresolved', later, unresolved', ⟨rfl, rfl, lifecycle, summary, banners⟩, rfl⟩, ?_⟩
      intro target rendering member
      simp only [resultsOf, List.mem_cons, List.not_mem_nil, or_false, Prod.mk.injEq] at member
      rcases member with ⟨rfl, rfl⟩ | ⟨rfl, rfl⟩ | ⟨rfl, rfl⟩ <;> rfl
  rw [← and_assoc, ← regions, ← again]
  exact ⟨fun faithful => ⟨faithful.regions, faithful.again⟩, fun both => ⟨both.1, both.2⟩⟩

/-- A rendering touches only its regions and is a fixed point exactly if the regions are side by side with no other marker about them and no
cell holds one. -/
theorem projections_faithful (rendered : renderProjections state read = .ok results) : Faithful state results ↔ Orderly state read := by
  obtain ⟨index, index', unresolved, summed, unresolved', from_texts, rfl⟩ := renderProjections_ok.mp rendered
  rw [faithful_iff, orderly_iff from_texts]
  constructor
  · rintro ⟨⟨_, one_marked⟩, ⟨_, two_marked⟩, _, again⟩
    exact ⟨(lone_marked lifecycle_registered from_texts.lifecycle).mp one_marked,
      pair_laidOut summary_registered banners_registered summary_apart from_texts.summary from_texts.banners two_marked again⟩
  · rintro ⟨⟨laid, clear⟩, laid_both, clear_summary, clear_banners⟩
    obtain ⟨resplices, marked, again, again'⟩ := pair_spliced summary_registered banners_registered summary_apart from_texts.summary
      from_texts.banners laid_both clear_summary clear_banners
    exact ⟨⟨lone_resplices lifecycle_registered from_texts.lifecycle, (lone_marked lifecycle_registered from_texts.lifecycle).mpr ⟨laid, clear⟩⟩,
      ⟨resplices, marked⟩, lone_again lifecycle_registered from_texts.lifecycle clear, _, again, again'⟩

/-- The regions of each target side by side, with nothing in them. -/
def apartTexts (target : String) : Option JsString :=
  if target = "docs/decisions/INDEX.md" then some (framed "decision-lifecycle" [] [] [])
  else if target = "docs/architecture/unresolved-decisions.md" then some (framed "question-summary" [] [] (framed "resolution-banners" [] [] []))
  else none

/-- One proposed decision and one open question. -/
def fixtureState : ProjectedState where
  adrs := [⟨units "ADR-0001", units "Proposed", none, []⟩]
  questions := [⟨units "U4", units "Fixture question", units "medium"⟩]
  answers := fun _ => some ⟨false, none, none⟩
  stateDocument := []

theorem empty_within {region : String} (registered : region ∈ registeredRegions) : Within region (framed region [] [] []) [] [] [] :=
  within_of_marks registered fun _ => ⟨List.not_mem_nil, List.not_mem_nil, List.not_mem_nil⟩

theorem fixture_decision : ∀ adr ∈ fixtureState.adrs, Unmarked (lifecycleCells adr) := by
  simp only [fixtureState, List.mem_singleton, forall_eq]
  unfold Unmarked lifecycleCells
  simp only [sortedByText, List.mergeSort_nil]
  decide +kernel

theorem fixture_question : ∀ question ∈ fixtureState.questions,
    Unmarked (summaryCells fixtureState.answers question ++ bannerCells fixtureState.answers question) := by
  simp only [fixtureState, List.mem_singleton, forall_eq]
  unfold Unmarked
  decide +kernel

theorem projections_faithful_apart :
    ∃ results, renderProjections fixtureState apartTexts = .ok results ∧ Faithful fixtureState results := by
  have clear : markersOf (renderQuestionSummary fixtureState) = [] :=
    (summary_unmarked fixtureState).mpr fun question member value inside =>
      fixture_question question member value (List.mem_append_left _ inside)
  have summary_within : Within "question-summary" (framed "question-summary" [] [] (framed "resolution-banners" [] [] [])) [] []
      (framed "resolution-banners" [] [] []) := by
    refine within_of_marks summary_registered fun kind => ⟨List.not_mem_nil, List.not_mem_nil, ?_⟩
    rw [markersOf_framed banners_registered]
    exact foreign_mark summary_apart.symm kind
  have banners_within : Within "resolution-banners"
      (framed "question-summary" [] (lined (renderQuestionSummary fixtureState)) (framed "resolution-banners" [] [] []))
      (framed "question-summary" [] (lined (renderQuestionSummary fixtureState)) []) [] [] := by
    rw [framed_between]
    refine within_of_marks banners_registered fun kind => ⟨?_, List.not_mem_nil, List.not_mem_nil⟩
    rw [markersOf_framed summary_registered, markersOf_lined, clear]
    exact foreign_mark summary_apart kind
  have from_texts : RenderedFrom fixtureState apartTexts _ _ _ _ _ := ⟨rfl, rfl,
    (spliceRegion_ok lifecycle_registered).mpr ⟨[], [], [], empty_within lifecycle_registered, rfl⟩,
    (spliceRegion_ok summary_registered).mpr ⟨[], [], _, summary_within, rfl⟩,
    (spliceRegion_ok banners_registered).mpr ⟨_, [], [], banners_within, rfl⟩⟩
  have rendered := renderProjections_ok.mpr ⟨_, _, _, _, _, from_texts, rfl⟩
  refine ⟨_, rendered, (projections_faithful rendered).mpr ((orderly_iff from_texts).mpr ⟨⟨?_, (lifecycle_unmarked _).mpr fixture_decision⟩, ?_, clear, ?_⟩)⟩
  · exact laidOut_one.mpr ⟨[], [], [], rfl, rfl, rfl⟩
  · exact laidOut_two.mpr (.inl ⟨[], [], [], [], [], rfl, rfl, rfl, rfl⟩)
  · exact (banners_unmarked _).mpr fun question member value inside => fixture_question question member value (List.mem_append_right _ inside)

/-- One region of a target within the other. -/
def nestedTexts (target : String) : Option JsString :=
  if target = "docs/decisions/INDEX.md" then some (framed "decision-lifecycle" [] [] [])
  else if target = "docs/architecture/unresolved-decisions.md" then some (framed "resolution-banners" [] (framed "question-summary" [] [] []) [])
  else none

/-- Nested regions are rendered without a problem, whatever the state, and the inner one is gone then. -/
theorem nested_rendering
    (unmarked : ∀ question ∈ state.questions, Unmarked (summaryCells state.answers question ++ bannerCells state.answers question)) :
    ∃ results, renderProjections state nestedTexts = .ok results ∧ ¬ Faithful state results := by
  have clear : markersOf (renderQuestionSummary state) = [] :=
    (summary_unmarked state).mpr fun question member value inside => unmarked question member value (List.mem_append_left _ inside)
  have clear' : markersOf (renderResolutionBanners state) = [] :=
    (banners_unmarked state).mpr fun question member value inside => unmarked question member value (List.mem_append_right _ inside)
  have nested (inside : JsString) : framed "resolution-banners" [] (framed "question-summary" [] inside []) [] =
      framed "question-summary" (markerWord .begin "resolution-banners") inside (markerWord .end "resolution-banners") := by
    simp [framed]
  have summary_within : Within "question-summary" (framed "resolution-banners" [] (framed "question-summary" [] [] []) [])
      (markerWord .begin "resolution-banners") [] (markerWord .end "resolution-banners") := by
    rw [nested]
    refine within_of_marks summary_registered fun kind => ⟨?_, List.not_mem_nil, ?_⟩ <;> cases kind <;> decide +kernel
  have banners_within : Within "resolution-banners" (framed "question-summary" (markerWord .begin "resolution-banners")
      (lined (renderQuestionSummary state)) (markerWord .end "resolution-banners")) []
      (framed "question-summary" [] (lined (renderQuestionSummary state)) []) [] := by
    rw [← nested]
    refine within_of_marks banners_registered fun kind => ⟨List.not_mem_nil, ?_, List.not_mem_nil⟩
    rw [markersOf_framed summary_registered, markersOf_lined, clear]
    exact foreign_mark summary_apart kind
  have from_texts : RenderedFrom state nestedTexts _ _ _ _ _ := ⟨rfl, rfl,
    (spliceRegion_ok lifecycle_registered).mpr ⟨[], [], [], empty_within lifecycle_registered, rfl⟩,
    (spliceRegion_ok summary_registered).mpr ⟨_, [], _, summary_within, rfl⟩,
    (spliceRegion_ok banners_registered).mpr ⟨[], _, [], banners_within, rfl⟩⟩
  refine ⟨_, renderProjections_ok.mpr ⟨_, _, _, _, _, from_texts, rfl⟩, fun faithful => ?_⟩
  obtain ⟨_, ⟨_, order, perm, marks⟩, _⟩ := faithful_iff.mp faithful
  have begins : (⟨.begin, units "question-summary"⟩ : Marker) ∈ order.flatMap pairOfMarkers :=
    List.mem_flatMap.mpr ⟨_, perm.mem_iff.mpr List.mem_cons_self, List.mem_cons_self⟩
  rw [← marks, markersOf_framed banners_registered, markersOf_lined, clear'] at begins
  exact foreign_mark summary_apart.symm .begin begins

theorem nested_unfaithful : unregisteredMarkers nestedTexts = [] ∧
    ∃ results, renderProjections fixtureState nestedTexts = .ok results ∧ ¬ Faithful fixtureState results :=
  ⟨by decide +kernel, nested_rendering fixture_question⟩

end Faithfulness

end SecureHome.Governance
