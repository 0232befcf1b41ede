import SecureHome.Lib.Words
import SecureHome.Governance.Projections

/-! The links a document declares. A link is read where a pair of brackets is followed by a
parenthesis, or where a line is a definition; fenced blocks and code spans are blanked first. -/

namespace SecureHome.Toolchain
open Lib Governance

section Blanking

/-- The units that `.` does not match. -/
def endsLine (unit : UInt16) : Bool := unit = 0x0a || unit = 0x0d || unit = 0x2028 || unit = 0x2029

structure Fence where
  unit : UInt16
  length : ℕ
  deriving DecidableEq, Repr

/-- A line after at most three spaces. -/
def unindented (line : JsString) : Option JsString :=
  let rest := line.dropWhile isSpaceUnit
  if line.length - rest.length ≤ 3 then some rest else none

/-- `FENCE`, its run and what follows it. -/
def fenceOf (line : JsString) : Option (Fence × JsString) :=
  (unindented line).bind fun rest =>
    match rest with
    | [] => none
    | unit :: _ =>
      let run := rest.takeWhile (· = unit)
      let info := rest.dropWhile (· = unit)
      if (unit = 0x60 ∨ unit = 0x7e) ∧ 3 ≤ run.length ∧ info.all (fun unit => !endsLine unit) then some (⟨unit, run.length⟩, info)
      else none

/-- Fenced blocks are blanked, each with its fences. -/
def withoutFences : Option Fence → List JsString → List JsString
  | _, [] => []
  | none, line :: rest =>
    match fenceOf line with
    | none => line :: withoutFences none rest
    | some (fence, _) => [] :: withoutFences (some fence) rest
  | some fence, line :: rest =>
    let closes := (fenceOf line).any fun (run, info) => run.unit = fence.unit ∧ fence.length ≤ run.length ∧ info.all isSpaceUnit
    [] :: withoutFences (if closes then none else some fence) rest

/-- Code spans and escaped units are blanked. -/
def withoutCodeSpans : JsString → JsString
  | [] => []
  | unit :: rest =>
    if unit = 0x5c then 0x20 :: 0x20 :: withoutCodeSpans (rest.drop 1)
    else if unit ≠ 0x60 then unit :: withoutCodeSpans rest
    else
      let more := (rest.takeWhile (· = 0x60)).length
      let after := rest.drop more
      match indexOf (List.replicate (more + 1) 0x60) after with
      -- unterminated: the backticks are text
      | none => List.replicate (more + 1) 0x20 ++ withoutCodeSpans after
      | some close => List.replicate (more + 1 + close + (more + 1)) 0x20 ++ withoutCodeSpans (after.drop (close + (more + 1)))
termination_by text => text.length
decreasing_by all_goals simp only [List.length_drop, List.length_cons]; omega

/-- The lines that links are read of. -/
def visible (text : JsString) : List JsString := (withoutFences none (text.splitOn 0x0a)).map withoutCodeSpans

end Blanking

section Reading

inductive LinkKind where
  | internal
  | external
  | unreadable
  deriving DecidableEq, Repr

structure LinkTarget where
  kind : LinkKind
  raw : JsString
  line : ℕ
  deriving DecidableEq, Repr

def isLetterUnit (unit : UInt16) : Bool := (0x41 ≤ unit.toNat && unit.toNat ≤ 0x5a) || (0x61 ≤ unit.toNat && unit.toNat ≤ 0x7a)

def isTagUnit (unit : UInt16) : Bool := isAlphanumeric unit || unit = 0x2d

/-- What follows an angle bracket that opens a tag, a declaration or an instruction. -/
def tagOf (rest : JsString) : Option JsString :=
  let name := if rest.head? = some 0x2f then rest.drop 1 else rest
  if name.head?.any isLetterUnit then
    let after := name.dropWhile isTagUnit
    if after.head?.all fun unit => isSpaceUnit unit || unit = 0x2f || unit = 0x3e then some (rest.take (rest.length - after.length))
    else none
  else if rest.head? = some 0x21 ∨ rest.head? = some 0x3f then some (rest.take 1)
  else none

/-- `RAW_HTML`, where it first matches. -/
def rawHtml : JsString → Option JsString
  | [] => none
  | unit :: rest =>
    match if unit = 0x3c then tagOf rest else none with
    | some tag => some (unit :: tag)
    | none => rawHtml rest

def trimmed (raw : JsString) : JsString := ((raw.dropWhile isSpaceUnit).reverse.dropWhile isSpaceUnit).reverse

/-- A destination without the angle brackets around it. -/
def unwrapped : JsString → JsString
  | 0x3c :: inside =>
    if inside.getLast? = some 0x3e ∧ inside.dropLast.all (fun unit => !endsLine unit) then inside.dropLast else 0x3c :: inside
  | raw => raw

/-- `SCHEME` -/
def hasScheme (raw : JsString) : Bool :=
  raw.head?.any isLetterUnit &&
    (raw.dropWhile fun unit => isAlphanumeric unit || unit = 0x2b || unit = 0x2e || unit = 0x2d).head? = some 0x3a

def classify (raw : JsString) (line : ℕ) : LinkTarget :=
  let target := unwrapped (trimmed raw)
  if target = [] then ⟨.unreadable, raw, line⟩
  else if target.head? = some 0x23 then ⟨.external, raw, line⟩
  else if hasScheme target ∨ target.take 2 = [0x2f, 0x2f] then ⟨.external, raw, line⟩
  else ⟨.internal, target.takeWhile (· ≠ 0x23), line⟩

/-- The first parenthesis that closes more than opens before it. -/
def closing : ℕ → ℕ → JsString → Option ℕ
  | _, _, [] => none
  | depth, column, unit :: rest =>
    if unit = 0x28 then closing (depth + 1) (column + 1) rest
    else if unit = 0x29 then
      if depth = 0 then some column else closing (depth - 1) (column + 1) rest
    else closing depth (column + 1) rest

/-- The column of the parenthesis that closes a destination. An angle form is skipped first. -/
def destinationEnd (line : JsString) (start : ℕ) : Option ℕ :=
  match line.drop start with
  | 0x3c :: inside => (indexOf [0x3e] inside).bind fun shut => closing 0 (start + 1 + shut + 1) (inside.drop (shut + 1))
  | rest => closing 0 start rest

def readDestination (raw : JsString) (line : ℕ) : LinkTarget :=
  if raw.head? ≠ some 0x3c ∧ raw.any (fun unit => unit = 0x28 || unit = 0x29) then ⟨.unreadable, raw, line⟩ else classify raw line

/-- A title up to the end. -/
def isTitle : JsString → Bool
  | [] => false
  | unit :: rest =>
    let shut : Option UInt16 :=
      if unit = 0x22 then some 0x22 else if unit = 0x27 then some 0x27 else if unit = 0x28 then some 0x29 else none
    shut.any fun shut =>
      match rest.dropWhile (· ≠ shut) with
      | [] => false
      | _ :: after => after.all isSpaceUnit

/-- What may follow a destination: a title apart from it, or nothing. -/
def isTail (rest : JsString) : Bool :=
  let title := rest.dropWhile isSpaceUnit
  title = [] || title.length < rest.length && isTitle title

def bareDestination (text : JsString) : Option JsString :=
  let raw := text.takeWhile fun unit => !isSpaceUnit unit
  if raw ≠ [] ∧ isTail (text.dropWhile fun unit => !isSpaceUnit unit) then some raw else none

/-- `DESTINATION`, its destination. -/
def destinationOf (inner : JsString) : Option JsString :=
  let text := inner.dropWhile isSpaceUnit
  match text with
  | 0x3c :: inside =>
    match indexOf [0x3e] inside with
    | some shut => if isTail (inside.drop (shut + 1)) then some (0x3c :: inside.take (shut + 1)) else bareDestination text
    | none => bareDestination text
  | _ => bareDestination text

/-- What follows the label of a definition, where `DEFINITION_START` matches. -/
def definitionOf (line : JsString) : Option JsString :=
  (unindented line).bind fun rest =>
    match rest with
    | 0x5b :: label =>
      match label.dropWhile (· ≠ 0x5d) with
      | 0x5d :: 0x3a :: after => if label.head? = some 0x5d then none else some after
      | _ => none
    | _ => none

def definitionTarget (line after : JsString) (number : ℕ) : LinkTarget :=
  match bareDestination (after.dropWhile isSpaceUnit) with
  | none => ⟨.unreadable, trimmed line, number⟩
  | some raw => readDestination raw number

/-- The target of a link whose bracket closes at a column, and whose destination ends at another. -/
def innerTarget (line : JsString) (number column close : ℕ) : LinkTarget :=
  let inner := (line.take close).drop (column + 2)
  match destinationOf inner with
  | none => ⟨.unreadable, inner, number⟩
  | some raw => readDestination raw number

theorem closing_le {depth column close : ℕ} {rest : JsString} (found : closing depth column rest = some close) : column ≤ close := by
  induction rest generalizing depth column with
  | nil => cases found
  | cons unit rest ih =>
    rw [closing] at found
    split at found
    next => exact Nat.le_of_succ_le (ih found)
    split at found
    next =>
      split at found
      next => exact Nat.le_of_eq (Option.some.inj found)
      next => exact Nat.le_of_succ_le (ih found)
    next => exact Nat.le_of_succ_le (ih found)

theorem destinationEnd_le {line : JsString} {start close : ℕ} (found : destinationEnd line start = some close) : start ≤ close := by
  unfold destinationEnd at found
  split at found
  next =>
    obtain ⟨shut, _, found⟩ := Option.bind_eq_some_iff.mp found
    have later := closing_le found
    omega
  next => exact closing_le found

/-- The links of a line from a column on, each beside the column of its bracket, with the brackets
that are open there. -/
def scanLinks (row : JsString) (number column : ℕ) (opened : List ℕ) : List (Option ℕ × LinkTarget) :=
  if inside : column < row.length then
    if row[column] = 0x5b then scanLinks row number (column + 1) (column :: opened)
    else if row[column] ≠ 0x5d then scanLinks row number (column + 1) opened
    else
      match opened with
      | [] => scanLinks row number (column + 1) []
      | _ :: outer =>
        if row[column + 1]? ≠ some 0x28 then scanLinks row number (column + 1) outer
        else
          match ended : destinationEnd row (column + 2) with
          | none => [(some column, ⟨.unreadable, row.drop (column + 1), number⟩)]
          | some close => (some column, innerTarget row number column close) :: scanLinks row number (close + 1) outer
  else []
termination_by row.length + 2 - column
decreasing_by
  all_goals try omega
  have later := destinationEnd_le ended
  omega

/-- What a line declares. A line of raw HTML is refused, and a definition is read as a whole. -/
def lineLinks (line : JsString) (number : ℕ) : List (Option ℕ × LinkTarget) :=
  match rawHtml line with
  | some raw => [(none, ⟨.unreadable, raw, number⟩)]
  | none =>
    match definitionOf line with
    | some after => [(none, definitionTarget line after number)]
    | none => scanLinks line number 0 []

def linkEntries (text : JsString) : List (Option ℕ × LinkTarget) :=
  (visible text).zipIdx.flatMap fun (line, index) => lineLinks line (index + 1)

/-- Every link destination a document declares. -/
def linkTargets (text : JsString) : List LinkTarget := (linkEntries text).map Prod.snd

end Reading

end SecureHome.Toolchain
