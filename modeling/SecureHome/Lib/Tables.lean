import SecureHome.Lib.Unicode
import Mathlib.Data.List.Basic

/-! Tables written as text, a row a line and a cell between two pipes. A pipe behind a
backslash is text, unless that backslash is behind another. -/

namespace SecureHome.Lib

section Lines

variable {text first rest : JsString} {unit : UInt16}

def endsLine (unit : UInt16) : Prop := unit = 0x0a ∨ unit = 0x0d

instance (unit : UInt16) : Decidable (endsLine unit) := inferInstanceAs (Decidable (_ ∨ _))

/-- A unit before the first of some lines. -/
def extend (unit : UInt16) : List JsString → List JsString
  | [] => [[unit]]
  | line :: lines => (unit :: line) :: lines

/-- The lines of a text. A line feed, a carriage return, or both in this order end a line. -/
def textLines : JsString → List JsString
  | [] => [[]]
  | [unit] => if endsLine unit then [[], []] else [[unit]]
  | unit :: next :: rest =>
    if unit = 0x0d ∧ next = 0x0a then [] :: textLines rest
    else if endsLine unit then [] :: textLines (next :: rest)
    else extend unit (textLines (next :: rest))

/-- A text with a blank for each of its line endings. -/
def spaced : JsString → JsString
  | [] => []
  | [unit] => if endsLine unit then [0x20] else [unit]
  | unit :: next :: rest =>
    if unit = 0x0d ∧ next = 0x0a then 0x20 :: spaced rest
    else if endsLine unit then 0x20 :: spaced (next :: rest)
    else unit :: spaced (next :: rest)

theorem textLines_some (text : JsString) : textLines text ≠ [] := by
  fun_induction textLines text with
  | case1 => simp
  | case2 => simp
  | case3 => simp
  | case4 => simp
  | case5 => simp
  | case6 unit next rest _ _ ih => cases lines : textLines (next :: rest) <;> simp [extend]

theorem extend_length {lines : List JsString} (some_lines : lines ≠ []) : (extend unit lines).length = lines.length := by
  cases lines with
  | nil => exact absurd rfl some_lines
  | cons line lines => rfl

/-- A text is one line exactly if nothing in it ends one. -/
theorem textLines_single : (textLines text).length = 1 ↔ ∀ unit ∈ text, ¬ endsLine unit := by
  fun_induction textLines text with
  | case1 => simp
  | case2 unit ends => simp [ends]
  | case3 unit plain => simp [plain]
  | case4 unit next rest both ih =>
    have some_lines := textLines_some rest
    simp only [List.length_cons, Nat.add_eq_right, List.length_eq_zero_iff, some_lines, false_iff, not_forall]
    exact ⟨unit, List.mem_cons_self, not_not.mpr (.inr both.1)⟩
  | case5 unit next rest _ ends ih =>
    have some_lines := textLines_some (next :: rest)
    simp only [List.length_cons, Nat.add_eq_right, List.length_eq_zero_iff, some_lines, false_iff, not_forall]
    exact ⟨unit, List.mem_cons_self, not_not.mpr ends⟩
  | case6 unit next rest _ plain ih =>
    rw [extend_length (textLines_some _), ih, List.forall_mem_cons (a := unit)]
    exact ⟨fun later => ⟨plain, later⟩, fun all => all.2⟩

theorem textLines_plain (plain : ∀ unit ∈ text, ¬ endsLine unit) : textLines text = [text] := by
  fun_induction textLines text with
  | case1 => rfl
  | case2 unit ends => exact absurd ends (plain unit List.mem_cons_self)
  | case3 unit _ => rfl
  | case4 unit next rest both ih => exact absurd (.inr both.1) (plain unit List.mem_cons_self)
  | case5 unit next rest _ ends ih => exact absurd ends (plain unit List.mem_cons_self)
  | case6 unit next rest _ _ ih => rw [ih fun unit member => plain unit (List.mem_cons_of_mem _ member), extend]

/-- A line feed behind no carriage return ends the lines of one text and begins those of another. -/
theorem textLines_append (apart : first.getLast? ≠ some 0x0d) : textLines (first ++ 0x0a :: rest) = textLines first ++ textLines rest := by
  have begun : textLines (0x0a :: rest) = [] :: textLines rest := by
    cases rest <;> simp [textLines, endsLine]
  fun_induction textLines first with
  | case1 => exact begun
  | case2 unit ends =>
    have feed : unit ≠ 0x0d := by simpa using apart
    rw [List.singleton_append, textLines, if_neg (by simp [feed]), if_pos ends, begun]
    rfl
  | case3 unit plain =>
    have feed : unit ≠ 0x0d := fun same => plain (.inr same)
    rw [List.singleton_append, textLines, if_neg (by simp [feed]), if_neg plain, begun]
    rfl
  | case4 unit next more both ih =>
    have later : more.getLast? ≠ some 0x0d := by
      cases more with
      | nil => simp
      | cons third more => simpa [List.getLast?_cons_cons] using apart
    rw [List.cons_append, List.cons_append, textLines, if_pos both, ih later]
    rfl
  | case5 unit next more one ends ih =>
    rw [List.cons_append, List.cons_append, textLines, if_neg one, if_pos ends, ← List.cons_append, ih (by simpa using apart)]
    rfl
  | case6 unit next more one plain ih =>
    rw [List.cons_append, List.cons_append, textLines, if_neg one, if_neg plain, ← List.cons_append, ih (by simpa using apart)]
    cases lines : textLines (next :: more) with
    | nil => exact absurd lines (textLines_some _)
    | cons line lines => rfl

/-- The lines of texts that line feeds part. -/
theorem textLines_joined {texts : List JsString} (some_texts : texts ≠ []) (apart : ∀ text ∈ texts, text.getLast? ≠ some 0x0d) :
    textLines ([0x0a].intercalate texts) = texts.flatMap textLines := by
  induction texts with
  | nil => exact absurd rfl some_texts
  | cons text others ih =>
    cases others with
    | nil => simp [List.intercalate]
    | cons next others =>
      have joined : [0x0a].intercalate (text :: next :: others) = text ++ 0x0a :: [0x0a].intercalate (next :: others) := by
        simp [List.intercalate, List.intersperse]
      rw [joined, textLines_append (apart text List.mem_cons_self), ih (List.cons_ne_nil _ _) fun text member =>
        apart text (List.mem_cons_of_mem _ member)]
      rfl

end Lines

section Cells

/-- A value as a cell has it. -/
def escaped (value : JsString) : JsString :=
  value.flatMap fun unit => if unit = 0x5c then [0x5c, 0x5c] else if unit = 0x7c then [0x5c, 0x7c] else [unit]

/-- What the pipes of a line part, where the backslashes right before are odd in number or not. -/
def splitCells : Bool → JsString → List JsString
  | _, [] => [[]]
  | odd, unit :: rest =>
    if unit = 0x7c ∧ odd = false then [] :: splitCells false rest
    else extend unit (splitCells (unit = 0x5c && !odd) rest)

/-- One blank less on either side. -/
def strip (text : JsString) : JsString :=
  let inner := if text.head? = some 0x20 then text.tail else text
  if inner.getLast? = some 0x20 then inner.dropLast else inner

def unescaped : JsString → JsString
  | [] => []
  | [unit] => [unit]
  | unit :: next :: rest => if unit = 0x5c ∧ (next = 0x5c ∨ next = 0x7c) then next :: unescaped rest else unit :: unescaped (next :: rest)

/-- The cells of a row, from its first pipe to its last. -/
def readRow (line : JsString) : List JsString := ((splitCells false line).tail.dropLast).map fun text => unescaped (strip text)

def rowOf (values : List JsString) : JsString := 0x7c :: values.flatMap fun value => 0x20 :: (escaped value ++ [0x20, 0x7c])

variable {value rest : JsString}

theorem splitCells_some {odd : Bool} {text : JsString} : splitCells odd text ≠ [] := by
  cases text with
  | nil => simp [splitCells]
  | cons unit rest =>
    rw [splitCells]
    split
    · simp
    · cases splitCells (unit = 0x5c && !odd) rest <;> simp [extend]

/-- An escaped value stands in one cell. -/
theorem splitCells_escaped {line : JsString} {lines : List JsString} (split : splitCells false rest = line :: lines) :
    splitCells false (escaped value ++ rest) = (escaped value ++ line) :: lines := by
  induction value with
  | nil => exact split
  | cons unit value ih =>
    rw [escaped, List.flatMap_cons, List.append_assoc, ← escaped]
    by_cases slash : unit = 0x5c
    · subst slash
      simp only [if_pos, List.cons_append, List.nil_append, splitCells]
      simp [extend, ih]
    · by_cases pipe : unit = 0x7c
      · subst pipe
        simp [splitCells, extend, ih]
      · simp only [if_neg slash, if_neg pipe, List.cons_append, List.nil_append, splitCells]
        simp [slash, pipe, extend, ih]

theorem unescaped_escaped (value : JsString) : unescaped (escaped value) = value := by
  induction value with
  | nil => rfl
  | cons unit value ih =>
    rw [escaped, List.flatMap_cons, ← escaped]
    by_cases slash : unit = 0x5c
    · subst slash
      simp [unescaped, ih]
    · by_cases pipe : unit = 0x7c
      · subst pipe
        simp [unescaped, ih]
      · rw [if_neg slash, if_neg pipe, List.singleton_append]
        cases more : escaped value with
        | nil =>
          rw [more] at ih
          rw [← ih]
          rfl
        | cons next later => rw [unescaped, if_neg (by simp [slash]), ← more, ih]

/-- A row is read back as its values. -/
theorem readRow_rowOf (values : List JsString) : readRow (rowOf values) = values := by
  have cells (values : List JsString) : splitCells false (values.flatMap fun value => 0x20 :: (escaped value ++ [0x20, 0x7c])) =
      (values.map fun value => 0x20 :: (escaped value ++ [0x20])) ++ [[]] := by
    induction values with
    | nil => rfl
    | cons value values ih =>
      have ended : splitCells false ([0x20, 0x7c] ++ values.flatMap fun value => 0x20 :: (escaped value ++ [0x20, 0x7c])) =
          [0x20] :: ((values.map fun value => 0x20 :: (escaped value ++ [0x20])) ++ [[]]) := by
        rw [← ih]
        simp [splitCells, extend]
      rw [List.flatMap_cons, List.cons_append, List.append_assoc, splitCells, if_neg (by decide)]
      change extend 0x20 (splitCells false (escaped value ++ ([0x20, 0x7c] ++ values.flatMap _))) = _
      rw [splitCells_escaped ended]
      simp [extend]
  unfold readRow rowOf
  rw [splitCells, if_pos (by simp), cells, List.tail_cons, List.dropLast_concat, List.map_map]
  calc values.map ((fun text => unescaped (strip text)) ∘ fun value => 0x20 :: (escaped value ++ [0x20]))
    _ = values.map id := by
      apply List.map_congr_left
      intro value _
      simp [strip, unescaped_escaped]
    _ = values := List.map_id _

end Cells

end SecureHome.Lib
