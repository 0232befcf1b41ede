import SecureHome.Lib.Words
import SecureHome.Lib.Association
import SecureHome.Governance.Publication

/-! Deterministic projections of the registry. A generated region of a target is replaced
between its markers, and every byte outside it is hand-authored. -/

namespace SecureHome.Governance
open Lib Publication

section Markers

def beginMarker (region : String) : JsString := units s!"<!-- governance:begin {region} -->"
def endMarker (region : String) : JsString := units s!"<!-- governance:end {region} -->"

inductive MarkerKind where
  | begin
  | «end»
  deriving DecidableEq, Repr

structure Marker where
  kind : MarkerKind
  region : JsString
  deriving DecidableEq, Repr

/-- `\s`. -/
def isSpaceUnit (unit : UInt16) : Bool :=
  (0x09 ≤ unit.toNat && unit.toNat ≤ 0x0d) || (0x2000 ≤ unit.toNat && unit.toNat ≤ 0x200a) ||
    ([0x20, 0xa0, 0x1680, 0x2028, 0x2029, 0x202f, 0x205f, 0x3000, 0xfeff] : List UInt16).contains unit

/-- `[A-Za-z0-9][A-Za-z0-9-]*`. -/
def isRegionName : JsString → Bool
  | [] => false
  | first :: rest => isAlphanumeric first && rest.all fun unit => isAlphanumeric unit || unit == 0x2d

/-- What follows a given start. -/
def remainder (start text : JsString) : Option JsString := if start.isPrefixOf text then some (text.drop start.length) else none

def readKind (label : JsString) : Option (MarkerKind × JsString) :=
  match remainder (units "begin") label with
  | some rest => some (.begin, rest)
  | none => (remainder (units "end") label).map (.end, ·)

/-- `\s+([A-Za-z0-9][A-Za-z0-9-]*)\s*--`. -/
def readRegion (rest : JsString) : Option JsString :=
  let name := rest.dropWhile isSpaceUnit
  if name.length = rest.length then none
  else (remainder (units "--") name.reverse).bind fun back =>
    let region := (back.dropWhile isSpaceUnit).reverse
    if isRegionName region then some region else none

/-- `ANY_MARKER` between its angle brackets. -/
def readMarker (inner : JsString) : Option Marker :=
  (remainder (units "!--") inner).bind fun comment =>
    (remainder (units "governance:") (comment.dropWhile isSpaceUnit)).bind fun label =>
      (readKind label).bind fun (kind, rest) => (readRegion rest).map (⟨kind, ·⟩)

/-- Every marker of a text, registered or not. A match of the pattern opens and closes once, so none lies within another. -/
def markersOf (text : JsString) : List Marker := scan 0x3c 0x3e readMarker text

def markersIn (text : JsString) : List JsString := (markersOf text).map (·.region)

end Markers

section Rendering

/-- `\r?\n` as a blank. -/
def onOneLine : JsString → JsString
  | [] => []
  | [unit] => if unit = 0x0a then [0x20] else [unit]
  | unit :: next :: rest =>
    if unit = 0x0d ∧ next = 0x0a then 0x20 :: onOneLine rest
    else if unit = 0x0a then 0x20 :: onOneLine (next :: rest)
    else unit :: onOneLine (next :: rest)

/-- Backslashes first, then pipes, then line breaks. -/
def cell (value : JsString) : JsString :=
  onOneLine (value.flatMap fun unit => if unit = 0x5c then [0x5c, 0x5c] else if unit = 0x7c then [0x5c, 0x7c] else [unit])

structure ProjectedAdr where
  id : JsString
  lifecycle : JsString
  decisionDate : Option JsString
  resolves : List JsString
  deriving DecidableEq, Repr

structure ProjectedQuestion where
  id : JsString
  title : JsString
  severity : JsString
  deriving DecidableEq, Repr

/-- What the evaluation derives of a question. -/
structure DerivedAnswer where
  resolved : Bool
  resolver : Option JsString
  resolvedOn : Option JsString
  deriving DecidableEq, Repr

/-- What the projections read of the state and of what is derived from it. The whole document is rendered elsewhere. -/
structure ProjectedState where
  adrs : List ProjectedAdr
  questions : List ProjectedQuestion
  answers : JsString → Option DerivedAnswer
  stateDocument : JsString

/-- Sorted by the units of their texts. -/
def sortedByText {Item : Type} (textOf : Item → JsString) (items : List Item) : List Item :=
  items.mergeSort fun left right => decide (textOf left ≤ textOf right)

def joinedBy (separator : String) (texts : List JsString) : JsString := (units separator).intercalate texts

def dash : JsString := units "—"

def lifecycleRow (adr : ProjectedAdr) : JsString :=
  let resolves := sortedByText id adr.resolves
  units "| " ++ cell adr.id ++ units " | " ++ cell adr.lifecycle ++ units " | " ++ cell (adr.decisionDate.getD dash) ++ units " | " ++
    (if resolves = [] then dash else cell (joinedBy ", " resolves)) ++ units " |"

def renderDecisionLifecycle (state : ProjectedState) : JsString :=
  joinedBy "\n" ([units "| Decision | Lifecycle | Decision date | Resolves |", units "| --- | --- | --- | --- |"] ++
    (sortedByText (·.id) state.adrs).map lifecycleRow)

def summaryRow (answers : JsString → Option DerivedAnswer) (question : ProjectedQuestion) : JsString :=
  let answer := answers question.id
  units "| " ++ cell question.id ++ units " | " ++ cell question.title ++ units " | " ++ cell question.severity ++ units " | " ++
    units (if answer.any (·.resolved) then "Resolved" else "Open") ++ units " | " ++
    ((answer.bind (·.resolver)).map cell).getD dash ++ units " |"

def renderQuestionSummary (state : ProjectedState) : JsString :=
  joinedBy "\n" ([units "| Question | Title | Severity | State | Resolved by |", units "| --- | --- | --- | --- | --- |"] ++
    (sortedByText (·.id) state.questions).map (summaryRow state.answers))

def bannerRow (answers : JsString → Option DerivedAnswer) (question : ProjectedQuestion) : JsString :=
  let answer := answers question.id
  units "- **" ++ cell question.id ++ units "** — " ++ units (if answer.any (·.resolved) then "resolved" else "open") ++
    ((answer.bind (·.resolvedOn)).map fun date => units " on " ++ cell date).getD [] ++ units "; " ++ cell question.title

def renderResolutionBanners (state : ProjectedState) : JsString :=
  joinedBy "\n" ((sortedByText (·.id) state.questions).map (bannerRow state.answers))

end Rendering

section Registry

/-- A projection of a target: the whole file, or one region of it. -/
structure Projection where
  target : String
  region : Option String
  render : ProjectedState → JsString

/-- The closed projection registry. -/
def projections : List Projection := [
  ⟨"governance/STATE.md", none, (·.stateDocument)⟩,
  ⟨"docs/decisions/INDEX.md", some "decision-lifecycle", renderDecisionLifecycle⟩,
  ⟨"docs/architecture/unresolved-decisions.md", some "question-summary", renderQuestionSummary⟩,
  ⟨"docs/architecture/unresolved-decisions.md", some "resolution-banners", renderResolutionBanners⟩]

def registeredRegions : List String := projections.filterMap (·.region)

def registeredTargets : List String := (projections.map (·.target)).dedup

structure RenderError where
  code : String
  path : String
  message : String
  deriving DecidableEq, Repr

/-- Replaces exactly one registered region, preserving what is outside it. -/
def spliceRegion (document : JsString) (region : String) (body : JsString) : Except RenderError JsString :=
  match indexOf (beginMarker region) document, indexOf (endMarker region) document with
  | some beginAt, some endAt =>
    if (indexOf (beginMarker region) (document.drop (beginAt + 1))).isSome ∨ (indexOf (endMarker region) (document.drop (endAt + 1))).isSome then
      .error ⟨"ADV-G22", region, "the registered region markers are duplicated"⟩
    else if endAt < beginAt then .error ⟨"ADV-G22", region, "the region end marker precedes its begin marker"⟩
    else .ok (document.take (beginAt + (beginMarker region).length) ++ units "\n" ++ body ++ units "\n" ++ document.drop endAt)
  | _, _ => .error ⟨"ADV-G22", region, "the registered region markers are missing"⟩

/-- Renders one projection after those before it. -/
def renderProjection (state : ProjectedState) (read : String → Option JsString) (results : List (String × Rendering)) (projection : Projection) :
    Except RenderError (List (String × Rendering)) :=
  let existing := read projection.target
  match projection.region with
  | none => .ok (put results projection.target ⟨projection.render state, existing⟩)
  | some region =>
    match existing with
    | none => .error ⟨"ADV-G22", projection.target, "a registered projection target is missing"⟩
    | some text => do
      let current := ((results.lookup projection.target).map (·.expected)).getD text
      let expected ← spliceRegion current region (projection.render state)
      return put results projection.target ⟨expected, some text⟩

/-- Renders every registered projection. -/
def renderProjections (state : ProjectedState) (read : String → Option JsString) : Except RenderError (List (String × Rendering)) :=
  projections.foldlM (renderProjection state read) []

def unregisteredProblem (target : String) (region : JsString) : Problem :=
  ⟨"ADV-G22", units target ++ units "#" ++ region,
    units ("the document carries generated-region markers the renderer does not register; an " ++
      "unowned region is a hand-maintained copy wearing a generated label")⟩

/-- Markers the renderer does not own. -/
def unregisteredMarkers (read : String → Option JsString) : List Problem :=
  registeredTargets.flatMap fun target =>
    match read target with
    | none => []
    | some text => ((markersIn text).filter fun region => region ∉ registeredRegions.map units).map (unregisteredProblem target)

end Registry

end SecureHome.Governance
