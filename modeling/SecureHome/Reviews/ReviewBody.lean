import SecureHome.Lib.Words
import SecureHome.Governance.ArchivedPackage
import SecureHome.Governance.Projections

/-! The body of a review: its sections, the marker lines they own and its verdict, read of the
prose that fenced blocks and comments leave. -/

namespace SecureHome.Reviews
open Lib Governance

section Prose

def commentOpens : JsString := units "<!--"

def commentCloses : JsString := units "-->"

/-- A run of backticks or tildes after at most three spaces, with what is before it and behind it. -/
def fenceRun (line : JsString) : Option (JsString × JsString × JsString) :=
  let margin := line.takeWhile isSpaceUnit
  match line.dropWhile isSpaceUnit with
  | [] => none
  | unit :: rest =>
    let run := unit :: rest.takeWhile (· = unit)
    if margin.length ≤ 3 ∧ (unit = 0x60 ∨ unit = 0x7e) ∧ 3 ≤ run.length then some (margin, run, rest.dropWhile (· = unit)) else none

/-- A line of nothing but a run as long as the one that opened, of its unit. -/
def closesFence (fence line : JsString) : Bool :=
  (fenceRun line).any fun (_, run, behind) => behind.all isSpaceUnit ∧ run.head? = fence.head? ∧ fence.length ≤ run.length

/-- Where a line starts: in prose, behind an opening fence or in a comment. -/
inductive Mode where
  | prose
  | fenced (fence : JsString)
  | comment
  deriving DecidableEq

/-- The prose of a line, and where the next one starts. -/
def maskLine (line : JsString) : Mode → JsString × Mode
  | .fenced fence => ([], if closesFence fence line then .prose else .fenced fence)
  | .comment =>
    match indexOf commentCloses line with
    | none => ([], .comment)
    | some close => (line.drop (close + commentCloses.length), .prose)
  | .prose =>
    match fenceRun line with
    | some (_, run, _) => ([], .fenced run)
    | none =>
      match indexOf commentOpens line with
      | none => (line, .prose)
      | some start =>
        match indexOf commentCloses (line.drop start) with
        | none => (line.take start, .comment)
        | some close => (line.take start ++ line.drop (start + close + commentCloses.length), .prose)

def maskLines : Mode → List JsString → List JsString
  | _, [] => []
  | mode, line :: rest => (maskLine line mode).1 :: maskLines (maskLine line mode).2 rest

/-- The lines of a text, without fenced blocks and comments. -/
def maskNonProse (text : JsString) : List JsString := maskLines .prose (text.splitOn 0x0a)

end Prose

section Sections

structure Section where
  title : JsString
  line : ℕ
  lines : List JsString
  deriving DecidableEq

def Section.body (part : Section) : JsString := (units "\n").intercalate part.lines

def isGap (unit : UInt16) : Bool := unit = 0x20 || unit = 0x09

/-- The title of a heading of the second level. -/
def headingOf (line : JsString) : Option JsString :=
  (remainder (units "##") line).bind fun rest =>
    let title := ((rest.dropWhile isGap).reverse.dropWhile isGap).reverse
    if rest.head?.any isGap ∧ title.head?.any (fun unit => !isSpaceUnit unit) ∧ title.all (fun unit => !endsJsLine unit) then some title
    else none

/-- The lines up to the next heading. -/
def bodyLines : List JsString → List JsString
  | [] => []
  | line :: rest => if (headingOf line).isSome then [] else line :: bodyLines rest

/-- Each heading with the lines behind it. A section ends at the next heading. -/
def sectionsFrom : ℕ → List JsString → List Section
  | _, [] => []
  | index, line :: rest =>
    match headingOf line with
    | some title => ⟨title, index + 1, bodyLines rest⟩ :: sectionsFrom (index + 1) rest
    | none => sectionsFrom (index + 1) rest

def parseSections (reviewText : JsString) : List Section := sectionsFrom 0 (maskNonProse reviewText)

end Sections

section Assertions

structure GateError where
  code : String
  message : JsString
  deriving DecidableEq

def failWith : Option GateError → Except GateError Unit
  | some error => .error error
  | none => .ok ()

def failIf (refused : Bool) (code : String) (message : JsString) : Except GateError Unit :=
  failWith (if refused then some ⟨code, message⟩ else none)

def requiredSections : List JsString :=
  ["Review Pin", "Independent Review Statement", "Reviewed Artifact Manifest", "Review Method", "Architecture Acceptance Checks",
    "Severity Calibration", "Findings", "Authority Allocation Assessment", "Repository Feasibility", "Invariant Stability",
    "Review-Finding Regression Promotion", "Verdict", "Apply Eligibility"].map units

def verdictTokens : List JsString :=
  ["REVIEW_REQUIRED", "ARCHITECTURE_ACCEPTED", "FOCUSED_CLOSURE_REQUIRED", "ARCHITECTURE_REJECTED"].map units

/-- A line that one section must have, as the two texts with a gap between them. -/
structure SectionMarker where
  owner : JsString
  label : JsString
  head : JsString
  tail : JsString
  code : String

def marker (owner head tail code : String) : SectionMarker where
  owner := units owner
  label := units head ++ units " " ++ units tail
  head := units head
  tail := units tail
  code := code

/-- `SECTION_MARKERS` -/
def sectionMarkers : List SectionMarker :=
  [marker "Findings" "**Unresolved P1 findings:**" "`none`" "HUMAN_P1_COUNT_MISMATCH",
    marker "Findings" "**Unassigned P2/P3 findings:**" "`0`" "HUMAN_ASSIGNMENT_COUNT_MISMATCH",
    marker "Authority Allocation Assessment" "**Authority allocation complete:**" "`YES`" "HUMAN_AUTHORITY_STATUS_MISMATCH",
    marker "Invariant Stability" "**Invariant set changed by this review:**" "`NO`" "HUMAN_INVARIANT_STATUS_MISMATCH",
    marker "Apply Eligibility" "**Apply eligible:**" "`YES`" "APPLY_ELIGIBILITY_MISMATCH"]

/-- The pattern of a marker, on a whole line. -/
def SectionMarker.matches (marker : SectionMarker) (line : JsString) : Bool :=
  ((remainder marker.head line).bind fun rest => remainder marker.tail (rest.dropWhile isGap)).any fun behind => behind.all isGap

/-- The pattern of a verdict, on a whole line. -/
def isVerdict (token line : JsString) : Bool := (remainder (units "**" ++ token ++ units "**") line).any fun behind => behind.all isGap

/-- The matches of a pattern of whole lines, whatever ends a line. -/
def countMatches (holds : JsString → Bool) (text : JsString) : ℕ := (text.splitOnP endsJsLine).countP holds

def heading (title : JsString) : JsString := units "## " ++ title

/-- A required section that comes after another of its title. -/
def firstRepeated : List Section → List Section → Option (Section × Section)
  | _, [] => none
  | seen, part :: rest =>
    if part.title ∉ requiredSections then firstRepeated seen rest
    else
      match seen.find? (·.title = part.title) with
      | some earlier => some (earlier, part)
      | none => firstRepeated (part :: seen) rest

def assertSectionStructure (sections : List Section) : Except GateError Unit := do
  failWith ((firstRepeated [] sections).map fun (earlier, part) => ⟨"DUPLICATE_REVIEW_SECTION",
    units "required section appears more than once: " ++ heading part.title ++ units " (lines " ++ units earlier.line.repr ++
      units " and " ++ units part.line.repr ++ units ")"⟩)
  failWith ((requiredSections.find? fun title => title ∉ sections.map Section.title).map fun title =>
    ⟨"REVIEW_SECTION_MISSING", units "required review section missing: " ++ heading title⟩)
  let order := (sections.map Section.title).filter (· ∈ requiredSections)
  failIf (order ≠ requiredSections) "REVIEW_SECTION_ORDER" (units "required sections are out of contract order\nexpected: " ++
    (units " -> ").intercalate requiredSections ++ units "\nactual:   " ++ (units " -> ").intercalate order)

/-- The section of a title, of the ones that are required. -/
def owning (sections : List Section) (title : JsString) : Option Section := sections.find? (·.title = title)

def assertMarker (sections : List Section) (marker : SectionMarker) : Except GateError Unit :=
  match owning sections marker.owner with
  | none => .ok ()
  | some owner => do
    let occurrences := countMatches marker.matches owner.body
    failIf (occurrences ≠ 1) marker.code (heading marker.owner ++ units " must contain exactly one line: " ++ marker.label ++
      units " (found " ++ units occurrences.repr ++ units ")")
    -- elsewhere the marker leaves open which section it answers
    failWith ((sections.find? fun part => part.line ≠ owner.line && 0 < countMatches marker.matches part.body).map fun part =>
      ⟨"MARKER_OUTSIDE_OWNING_SECTION",
        marker.label ++ units " belongs to " ++ heading marker.owner ++ units "; also found in " ++ heading part.title⟩)

def accepted : JsString := units "ARCHITECTURE_ACCEPTED"

def assertVerdictSection (sections : List Section) : Except GateError Unit :=
  match owning sections (units "Verdict") with
  | none => .ok ()
  | some verdict => do
    let found := verdictTokens.flatMap fun token => List.replicate (countMatches (isVerdict token) verdict.body) token
    failIf (found.length ≠ 1) "HUMAN_VERDICT_MISMATCH"
      (units "## Verdict must state exactly one governed verdict token as a bold line of its own; found " ++
      units found.length.repr ++ (if found = [] then [] else units " (" ++ (units ", ").intercalate found ++ units ")"))
    failIf (found.head? ≠ some accepted) "REVIEW_NOT_ACCEPTED"
      (units "## Verdict states " ++ found.headD [] ++ units "; the gate accepts only ARCHITECTURE_ACCEPTED")

def placeholders : List JsString :=
  ["REPLACE_WITH_40_HEX_COMMIT", "REPLACE_WITH_RFC3339_TIMESTAMP", "REPLACE_WITH_INDEPENDENT_REVIEWER"].map units

def hasPlaceholder (reviewText : JsString) : Bool := placeholders.any fun placeholder => (indexOf placeholder reviewText).isSome

def assertReviewBody (reviewText : JsString) : Except GateError Unit := do
  failIf (hasPlaceholder reviewText) "REVIEW_PLACEHOLDER_REMAINS" (units "machine-readable gate placeholders remain")
  let sections := parseSections reviewText
  assertSectionStructure sections
  sectionMarkers.forM (assertMarker sections)
  assertVerdictSection sections

end Assertions

end SecureHome.Reviews
