import SecureHome.Governance.StateDocument
import SecureHome.Lib.Tables
import SecureHome.Lib.DoubleText
import SecureHome.Lib.Sorting
import SecureHome.Proofs.GovernanceHistory
import Mathlib.Data.List.Induction
import Mathlib.Algebra.BigOperators.Group.List.Basic

/-! The tables of the projections, read back. A reader finds a row for each record, and in
its cells what the record says. -/

namespace SecureHome.Proofs.ProjectedTables
open Lib Governance

section Values

/-- A carriage return that no line feed follows. -/
def LoneReturn (value : JsString) : Prop := ∃ before after, value = before ++ 0x0d :: after ∧ after.head? ≠ some 0x0a

variable {value : JsString}

theorem loneReturn_cons {unit : UInt16} {rest : JsString} :
    LoneReturn (unit :: rest) ↔ (unit = 0x0d ∧ rest.head? ≠ some 0x0a) ∨ LoneReturn rest := by
  constructor
  · rintro ⟨before, after, split, alone⟩
    cases before with
    | nil =>
      obtain ⟨rfl, rfl⟩ := List.cons.inj split
      exact .inl ⟨rfl, alone⟩
    | cons first before => exact .inr ⟨before, after, (List.cons.inj split).2, alone⟩
  · rintro (⟨rfl, alone⟩ | ⟨before, after, rfl, alone⟩)
    · exact ⟨[], rest, rfl, alone⟩
    · exact ⟨unit :: before, after, rfl, alone⟩

theorem loneReturn_nil : ¬ LoneReturn [] := by
  rintro ⟨before, after, split, _⟩
  simp at split

/-- Once on one line, a value ends a line only where it returned alone. -/
theorem onOneLine_ends {unit : UInt16} (ends : endsLine unit) : unit ∈ onOneLine value ↔ unit = 0x0d ∧ LoneReturn value := by
  have blank : unit ≠ 0x20 := by
    rintro rfl
    revert ends
    decide
  fun_induction onOneLine value with
  | case1 => simp [loneReturn_nil]
  | case2 => simp [blank, loneReturn_cons, loneReturn_nil]
  | case3 last other =>
    simp only [List.mem_singleton, loneReturn_cons, loneReturn_nil, List.head?_nil, ne_eq, reduceCtorEq, not_false_eq_true, and_true,
      or_false]
    rcases ends with rfl | rfl
    · simp [Ne.symm other]
    · simp [eq_comm]
  | case4 first next rest both ih =>
    obtain ⟨rfl, rfl⟩ := both
    simp [blank, ih, loneReturn_cons]
  | case5 next rest _ ih => simp [blank, ih, loneReturn_cons]
  | case6 first next rest one other ih =>
    rw [List.mem_cons, @loneReturn_cons first, List.head?_cons]
    refine (or_congr_right ih).trans ?_
    rcases ends with rfl | rfl
    · simp [Ne.symm other]
    · by_cases same : first = 0x0d
      · simp [same, show next ≠ 0x0a from fun feed => one ⟨same, feed⟩]
      · simp [same, Ne.symm same]

/-- Where no carriage return stands alone, the line endings become blanks. -/
theorem onOneLine_spaced (plain : ¬ LoneReturn value) : onOneLine value = spaced value := by
  fun_induction onOneLine value with
  | case1 => rfl
  | case2 => rfl
  | case3 last other =>
    have ends : ¬ endsLine last := by
      rintro (feed | turn)
      · exact other feed
      · exact plain (loneReturn_cons.mpr (.inl ⟨turn, by simp⟩))
    rw [spaced, if_neg ends]
  | case4 first next rest both ih =>
    rw [spaced, if_pos both, ih fun later => plain (loneReturn_cons.mpr (.inr (loneReturn_cons.mpr (.inr later))))]
  | case5 next rest one ih =>
    rw [spaced, if_neg one, if_pos (.inl rfl), ih fun later => plain (loneReturn_cons.mpr (.inr later))]
  | case6 first next rest one other ih =>
    have ends : ¬ endsLine first := by
      rintro (feed | turn)
      · exact other feed
      · exact plain (loneReturn_cons.mpr (.inl ⟨turn, by simpa using fun feed => one ⟨turn, feed⟩⟩))
    rw [spaced, if_neg one, if_neg ends, ih fun later => plain (loneReturn_cons.mpr (.inr later))]

end Values

section Rows

/-- A row as the projections write it. -/
def shownRow (values : List JsString) : JsString := rowOf (values.map onOneLine)

/-- The lines of a table are its header, its delimiters and its rows, each with the values it shows. -/
def Reads (text : JsString) (header : List String) (rows : List (List JsString)) : Prop :=
  (textLines text).map readRow = header.map units :: (header.map fun _ => units "---") :: rows.map fun row => row.map spaced

variable {values : List JsString} {rows others : List (List JsString)} {header : List String} {top ruler : JsString}

theorem onOneLine_cons (unit : UInt16) (text : JsString) : onOneLine (unit :: text) =
    if unit = 0x0d ∧ text.head? = some 0x0a then 0x20 :: onOneLine text.tail
    else if unit = 0x0a then 0x20 :: onOneLine text
    else unit :: onOneLine text := by
  cases text with
  | nil => by_cases feed : unit = 0x0a <;> simp [onOneLine, feed]
  | cons next text => simp [onOneLine]

theorem escaped_head {value : JsString} : (escaped value).head? = some 0x0a ↔ value.head? = some 0x0a := by
  cases value with
  | nil => rfl
  | cons unit value =>
    rw [escaped, List.flatMap_cons]
    by_cases slash : unit = 0x5c
    · simp [slash]
    · by_cases pipe : unit = 0x7c <;> simp [slash, pipe]

/-- A cell is the value on one line, escaped. -/
theorem cell_escaped (value : JsString) : cell value = escaped (onOneLine value) := by
  change onOneLine (escaped value) = _
  fun_induction onOneLine value with
  | case1 => rfl
  | case2 => decide
  | case3 last other =>
    by_cases slash : last = 0x5c
    · subst slash
      decide
    · by_cases pipe : last = 0x7c
      · subst pipe
        decide
      · simp [escaped, slash, pipe, onOneLine, other]
  | case4 first next rest both ih =>
    obtain ⟨rfl, rfl⟩ := both
    have split : escaped (0x0d :: 0x0a :: rest) = 0x0d :: 0x0a :: escaped rest := rfl
    rw [split, onOneLine_cons, if_pos ⟨rfl, rfl⟩, List.tail_cons, ih]
    rfl
  | case5 next rest one ih =>
    have split : escaped (0x0a :: next :: rest) = 0x0a :: escaped (next :: rest) := rfl
    rw [split, onOneLine_cons, if_neg (fun both => absurd both.1 (by decide)), if_pos rfl, ih]
    rfl
  | case6 first next rest one other ih =>
    by_cases slash : first = 0x5c
    · subst slash
      have split : escaped (0x5c :: next :: rest) = 0x5c :: 0x5c :: escaped (next :: rest) := rfl
      rw [split, onOneLine_cons, if_neg (by simp), if_neg (by decide), onOneLine_cons, if_neg (by simp), if_neg (by decide), ih]
      rfl
    · by_cases pipe : first = 0x7c
      · subst pipe
        have split : escaped (0x7c :: next :: rest) = 0x5c :: 0x7c :: escaped (next :: rest) := rfl
        rw [split, onOneLine_cons, if_neg (by simp), if_neg (by decide), onOneLine_cons, if_neg (by simp), if_neg (by decide), ih]
        rfl
      · have split (text : JsString) : escaped (first :: text) = first :: escaped text := by simp [escaped, slash, pipe]
        have apart : ¬ (first = 0x0d ∧ (escaped (next :: rest)).head? = some 0x0a) := by
          rw [escaped_head]
          simpa using one
        rw [split, onOneLine_cons, if_neg apart, if_neg other, ih, split]

/-- Only what returns alone ends a line within a row. -/
theorem shownRow_ends : (∃ unit ∈ shownRow values, endsLine unit) ↔ ∃ value ∈ values, LoneReturn value := by
  have escaped_ends {value : JsString} {unit : UInt16} (ends : endsLine unit) : unit ∈ escaped value ↔ unit ∈ value := by
    unfold escaped
    rw [List.mem_flatMap]
    constructor
    · rintro ⟨other, member, among⟩
      split at among
      · rcases ends with rfl | rfl <;> exact absurd among (by decide)
      split at among
      · rcases ends with rfl | rfl <;> exact absurd among (by decide)
      · exact List.mem_singleton.mp among ▸ member
    · intro member
      refine ⟨unit, member, ?_⟩
      rcases ends with rfl | rfl <;> decide
  constructor
  · rintro ⟨unit, member, ends⟩
    have frame : unit ≠ 0x7c ∧ unit ≠ 0x20 := by rcases ends with rfl | rfl <;> decide
    unfold shownRow rowOf at member
    rw [List.mem_cons, List.mem_flatMap] at member
    obtain ⟨shown, listed, among⟩ := member.resolve_left frame.1
    obtain ⟨value, given, rfl⟩ := List.mem_map.mp listed
    simp only [List.mem_cons, List.mem_append, List.not_mem_nil, frame.1, frame.2, or_false, false_or] at among
    exact ⟨value, given, ((onOneLine_ends ends).mp ((escaped_ends ends).mp among)).2⟩
  · rintro ⟨value, given, alone⟩
    have ends : endsLine 0x0d := .inr rfl
    refine ⟨0x0d, List.mem_cons_of_mem _ (List.mem_flatMap.mpr ⟨onOneLine value, List.mem_map_of_mem given, ?_⟩), ends⟩
    simp [(escaped_ends ends).mpr ((onOneLine_ends ends).mpr ⟨rfl, alone⟩)]

theorem shownRow_last : (shownRow values).getLast? ≠ some 0x0d := by
  have bar (values : List JsString) :
      (0x7c :: values.flatMap fun value => 0x20 :: (escaped value ++ [0x20, 0x7c])).getLast? = some 0x7c := by
    induction values using List.reverseRecOn with
    | nil => rfl
    | append_singleton values value _ => simp [List.flatMap_append, List.getLast?_append, List.getLast?_cons]
  unfold shownRow rowOf
  rw [bar]
  decide

theorem ones_of_sum {Item : Type} {size : Item → Nat} {items : List Item} (least : ∀ item ∈ items, 1 ≤ size item)
    (most : (items.map size).sum ≤ items.length) : ∀ item ∈ items, size item = 1 := by
  induction items with
  | nil => simp
  | cons item rest ih =>
    obtain ⟨here, later⟩ := List.forall_mem_cons.mp least
    rw [List.map_cons, List.sum_cons, List.length_cons] at most
    have some := List.length_le_sum_of_one_le (rest.map size) (by simpa using later)
    rw [List.length_map] at some
    exact List.forall_mem_cons.mpr ⟨by omega, ih later (by omega)⟩

/-- The header and the delimiters of a table are two lines. -/
structure Headed (header : List String) (top ruler : JsString) : Prop where
  tops : top = rowOf (header.map units)
  rulers : ruler = rowOf (header.map fun _ => units "---")
  whole : ∀ line ∈ [top, ruler], textLines line = [line]
  last : ∀ line ∈ [top, ruler], line.getLast? ≠ some 0x0d

/-- A table of rows in which nothing returns alone reads back. -/
theorem Headed.reads (headed : Headed header top ruler) (plain : ∀ row ∈ rows, ∀ value ∈ row, ¬ LoneReturn value) :
    Reads (joinedBy "\n" ([top, ruler] ++ rows.map shownRow)) header rows := by
  have single : ∀ row ∈ rows, textLines (shownRow row) = [shownRow row] := by
    intro row member
    apply textLines_plain
    intro unit among ends
    obtain ⟨value, given, alone⟩ := shownRow_ends.mp ⟨unit, among, ends⟩
    exact plain row member value given alone
  have lines : textLines (joinedBy "\n" ([top, ruler] ++ rows.map shownRow)) = [top, ruler] ++ rows.map shownRow := by
    change textLines ([0x0a].intercalate _) = _
    rw [textLines_joined (by simp) fun line member => ?_]
    · rw [List.flatMap_append, List.flatMap_map]
      congr 1
      · simp [headed.whole]
      · rw [List.map_eq_flatMap]
        exact List.flatMap_congr single
    · rcases List.mem_append.mp member with head | row
      · exact headed.last line head
      · obtain ⟨values, _, rfl⟩ := List.mem_map.mp row
        exact shownRow_last
  unfold Reads
  rw [lines, List.map_append, List.map_cons, List.map_cons, List.map_nil, headed.tops, headed.rulers, readRow_rowOf, readRow_rowOf,
    List.map_map]
  have read : rows.map (readRow ∘ shownRow) = rows.map fun row => row.map spaced := by
    apply List.map_congr_left
    intro row member
    rw [Function.comp_apply, shownRow, readRow_rowOf]
    apply List.map_congr_left
    intro value given
    exact onOneLine_spaced (plain row member value given)
  rw [read]
  rfl

/-- A table that reads back to so many rows has nothing that returns alone. -/
theorem Headed.plain (headed : Headed header top ruler) (counted : others.length = rows.length)
    (reads : Reads (joinedBy "\n" ([top, ruler] ++ rows.map shownRow)) header others) :
    ∀ row ∈ rows, ∀ value ∈ row, ¬ LoneReturn value := by
  have lines : textLines (joinedBy "\n" ([top, ruler] ++ rows.map shownRow)) = [top, ruler] ++ rows.flatMap (textLines ∘ shownRow) := by
    change textLines ([0x0a].intercalate _) = _
    rw [textLines_joined (by simp) fun line member => ?_]
    · rw [List.flatMap_append, List.flatMap_map]
      congr 1
      simp [headed.whole]
    · rcases List.mem_append.mp member with head | row
      · exact headed.last line head
      · obtain ⟨values, _, rfl⟩ := List.mem_map.mp row
        exact shownRow_last
  have length := congrArg List.length reads
  rw [lines] at length
  simp only [List.length_map, List.length_append, List.length_cons, List.length_nil, counted, List.length_flatMap] at length
  have each : ∀ row ∈ rows, (textLines (shownRow row)).length = 1 := by
    apply ones_of_sum
    · exact fun row _ => List.length_pos_iff.mpr (textLines_some _)
    · have same : (rows.map fun row => (textLines (shownRow row)).length).sum = rows.length := by
        simp only [Function.comp_apply] at length
        omega
      exact same.le
  intro row member value given alone
  have ended := shownRow_ends.mpr ⟨value, given, alone⟩
  obtain ⟨unit, among, ends⟩ := ended
  exact textLines_single.mp (each row member) unit among ends

end Rows

section Tables

def decisionHeader : List String := ["Decision", "Lifecycle", "Decision date", "Resolves"]

def questionHeader : List String := ["Question", "Title", "Severity", "State", "Resolved by"]

def programHeader : List String := ["Node", "Kind", "Delivery", "Readiness", "Unsatisfied"]

def inventoryHeader : List String := ["Disposition", "Count"]

def listed (texts : List JsString) : JsString := if texts = [] then dash else joinedBy ", " texts

def lifecycleCells (adr : ProjectedAdr) : List JsString :=
  [adr.id, adr.lifecycle, adr.decisionDate.getD dash, listed (sortedByText id adr.resolves)]

def summaryCells (answers : JsString → Option DerivedAnswer) (question : ProjectedQuestion) : List JsString :=
  [question.id, question.title, question.severity, units (if (answers question.id).any (·.resolved) then "Resolved" else "Open"),
    ((answers question.id).bind (·.resolver)).getD dash]

def gateCells (gate : ProjectedGate) : List JsString :=
  [gate.id, units "gate", dash, units (if gate.satisfied then "Satisfied" else "Unsatisfied"), dash]

def landingCells (landing : ProjectedLanding) : List JsString :=
  [landing.id, landing.kind, landing.lifecycle, (landing.readiness.map fun readiness => readinessText readiness.1).getD dash,
    listed (sortedByText id ((landing.readiness.map Prod.snd).getD []))]

def countCells (entry : JsString × Nat) : List JsString := [entry.1, units (toString entry.2)]

theorem cell_dash : cell dash = dash := by decide

theorem cell_listed (texts : List JsString) : cell (listed texts) = if texts = [] then dash else cell (joinedBy ", " texts) := by
  unfold listed
  split
  · exact cell_dash
  · rfl

theorem shownRow_cons (value next : JsString) (rest : List JsString) :
    shownRow (value :: next :: rest) = units "| " ++ cell value ++ units " " ++ shownRow (next :: rest) := by
  simp [shownRow, rowOf, cell_escaped, show units "| " = [0x7c, 0x20] from rfl, show units " " = [0x20] from rfl]

theorem shownRow_last_cell (value : JsString) : shownRow [value] = units "| " ++ cell value ++ units " |" := by
  simp [shownRow, rowOf, cell_escaped, show units "| " = [0x7c, 0x20] from rfl, show units " |" = [0x20, 0x7c] from rfl]

theorem units_bar : units " | " = units " " ++ units "| " := rfl

theorem lifecycleRow_shown (adr : ProjectedAdr) : lifecycleRow adr = shownRow (lifecycleCells adr) := by
  simp only [lifecycleRow, lifecycleCells, shownRow_cons, shownRow_last_cell, units_bar, cell_listed, List.append_assoc]

theorem summaryRow_shown (answers : JsString → Option DerivedAnswer) (question : ProjectedQuestion) :
    summaryRow answers question = shownRow (summaryCells answers question) := by
  have state (resolved : Bool) :
      cell (units (if resolved then "Resolved" else "Open")) = units (if resolved then "Resolved" else "Open") := by
    cases resolved <;> decide
  have resolver (resolver : Option JsString) : cell (resolver.getD dash) = (resolver.map cell).getD dash := by
    cases resolver with
    | none => exact cell_dash
    | some text => rfl
  simp only [summaryRow, summaryCells, shownRow_cons, shownRow_last_cell, units_bar, state, resolver, List.append_assoc]

theorem gateRow_shown (gate : ProjectedGate) : gateRow gate = shownRow (gateCells gate) := by
  have state (satisfied : Bool) : cell (units (if satisfied then "Satisfied" else "Unsatisfied")) =
      units (if satisfied then "Satisfied" else "Unsatisfied") := by
    cases satisfied <;> decide
  have kind : units " | gate | — | " = units " " ++ (units "| " ++ (cell (units "gate") ++ (units " " ++ (units "| " ++ (cell dash ++
      (units " " ++ units "| ")))))) := by decide
  have ended : units " | — |" = units " " ++ (units "| " ++ (cell dash ++ units " |")) := by decide
  simp only [gateRow, gateCells, shownRow_cons, shownRow_last_cell, state, kind, ended, List.append_assoc]

theorem landingRow_shown (landing : ProjectedLanding) : landingRow landing = shownRow (landingCells landing) := by
  simp only [landingRow, landingCells, shownRow_cons, shownRow_last_cell, units_bar, cell_listed, List.append_assoc]

theorem cell_decimal {text : JsString} (decimal : text.all isDecimal = true) : cell text = text := by
  induction text with
  | nil => rfl
  | cons unit text ih =>
    obtain ⟨digit, later⟩ := (List.all_cons ▸ decimal : (isDecimal unit && text.all isDecimal) = true) |> Bool.and_eq_true_iff.mp
    have apart : unit ≠ 0x0a ∧ unit ≠ 0x0d ∧ unit ≠ 0x5c ∧ unit ≠ 0x7c := by
      refine ⟨?_, ?_, ?_, ?_⟩ <;> rintro rfl <;> exact absurd digit (by decide)
    rw [cell_escaped, onOneLine_cons, if_neg (by simp [apart]), if_neg apart.1]
    have step : escaped (unit :: onOneLine text) = unit :: escaped (onOneLine text) := by simp [escaped, apart]
    rw [step, ← cell_escaped, ih later]

theorem countRow_shown (entry : JsString × Nat) : countRow entry = shownRow (countCells entry) := by
  have count : cell (units (toString entry.2)) = units (toString entry.2) := cell_decimal (Digits.repr_decimal entry.2).2.1
  simp only [countRow, countCells, shownRow_cons, shownRow_last_cell, units_bar, count, List.append_assoc]

def programTable (program : ProjectedProgram) : JsString := joinedBy "\n" (programRows program)

def inventoryTable (counts : List (JsString × Nat)) : JsString := joinedBy "\n" (inventoryRows counts)

/-- Records in the order of their identifiers. -/
structure InOrder {Item : Type} (idOf : Item → JsString) (records ordered : List Item) : Prop where
  same : ordered.Perm records
  ascending : ordered.Pairwise fun one other => idOf one ≤ idOf other

theorem sortedByText_inOrder {Item : Type} (idOf : Item → JsString) (records : List Item) :
    InOrder idOf records (sortedByText idOf records) := by
  have ranks : Ranks (fun one other => decide (idOf one ≤ idOf other)) idOf := ranks_of_keys fun _ _ => decide_eq_true_iff
  have sorted := List.pairwise_mergeSort ranks.trans ranks.total records
  exact ⟨List.mergeSort_perm _ _, sorted.imp of_decide_eq_true⟩

/-- The lines of a table stand in a document, between blank ones. -/
def Stands (table document : JsString) : Prop := ∃ before after, textLines document = before ++ [] :: (textLines table ++ [] :: after)

/-- Every table has one row for each of its records, in the order of their identifiers, and a cell for each of its columns, which
shows what the record says with a blank for each line ending. -/
structure TablesReadBack (state : ProjectedState) (program : ProjectedProgram) : Prop where
  decisions : ∃ adrs, InOrder (·.id) state.adrs adrs ∧ Reads (renderDecisionLifecycle state) decisionHeader (adrs.map lifecycleCells)
  questions : ∃ questions, InOrder (·.id) state.questions questions ∧
    Reads (renderQuestionSummary state) questionHeader (questions.map (summaryCells state.answers))
  nodes : ∃ gates landings, InOrder (·.id) program.gates gates ∧ InOrder (·.id) program.landings landings ∧
    Reads (programTable program) programHeader (gates.map gateCells ++ landings.map landingCells)
  counts : ∀ inventory ∈ inventories program.annex, Reads (inventoryTable inventory.2) inventoryHeader (inventory.2.map countCells)
  document : ∀ table ∈ [renderDecisionLifecycle state, renderQuestionSummary state, programTable program] ++
    (inventories program.annex).map (inventoryTable ·.2), Stands table (renderStateDocument state program)

/-- The values of the records that the tables show. -/
def authored (state : ProjectedState) (program : ProjectedProgram) : List JsString :=
  state.adrs.flatMap (fun adr => [adr.id, adr.lifecycle] ++ adr.decisionDate.toList ++ adr.resolves) ++
    state.questions.flatMap (fun question => [question.id, question.title, question.severity] ++
      ((state.answers question.id).bind (·.resolver)).toList) ++
    program.gates.map (·.id) ++
    program.landings.flatMap (fun landing => [landing.id, landing.kind, landing.lifecycle] ++ (landing.readiness.map Prod.snd).getD []) ++
    (inventories program.annex).flatMap fun inventory => inventory.2.map Prod.fst

end Tables

section Documents

variable {texts front back rows rest : List JsString}

theorem joinedBy_append (first : front ≠ []) (second : back ≠ []) :
    joinedBy "\n" (front ++ back) = joinedBy "\n" front ++ 0x0a :: joinedBy "\n" back := by
  change [0x0a].intercalate _ = [0x0a].intercalate _ ++ 0x0a :: [0x0a].intercalate _
  induction front with
  | nil => exact absurd rfl first
  | cons text front ih =>
    cases front with
    | nil =>
      obtain ⟨next, others, rfl⟩ := List.exists_cons_of_ne_nil second
      simp [List.intercalate, List.intersperse]
    | cons next front =>
      have joined (others : List JsString) :
          [0x0a].intercalate (text :: next :: others) = text ++ 0x0a :: [0x0a].intercalate (next :: others) := by
        simp [List.intercalate, List.intersperse]
      rw [List.cons_append, List.cons_append, joined, ← List.cons_append, ih (List.cons_ne_nil _ _), joined]
      simp

/-- Whatever ended the line before, a line feed leaves an empty one. -/
theorem textLines_ended (text : JsString) : ∃ lines, textLines (text ++ [0x0a]) = lines ++ [[]] := by
  fun_induction textLines text with
  | case1 => exact ⟨[[]], rfl⟩
  | case2 unit ends =>
    rcases ends with rfl | rfl
    · exact ⟨[[], []], rfl⟩
    · exact ⟨[[]], rfl⟩
  | case3 unit plain =>
    have turn : unit ≠ 0x0d := fun same => plain (.inr same)
    exact ⟨[[unit]], by simp [textLines, turn, plain, extend, show endsLine 0x0a from .inl rfl]⟩
  | case4 unit next more both ih =>
    obtain ⟨lines, ended⟩ := ih
    exact ⟨[] :: lines, by rw [List.cons_append, List.cons_append, textLines, if_pos both, ended]; rfl⟩
  | case5 unit next more one ends ih =>
    obtain ⟨lines, ended⟩ := ih
    exact ⟨[] :: lines, by rw [List.cons_append, List.cons_append, textLines, if_neg one, if_pos ends, ← List.cons_append, ended]; rfl⟩
  | case6 unit next more one plain ih =>
    obtain ⟨lines, ended⟩ := ih
    rw [List.cons_append, List.cons_append, textLines, if_neg one, if_neg plain, ← List.cons_append, ended]
    cases lines with
    | nil =>
      have single := textLines_single.mp (congrArg List.length ended)
      exact absurd (.inl rfl) (single 0x0a (by simp))
    | cons line lines => exact ⟨(unit :: line) :: lines, rfl⟩

/-- A table stands in a document between the empty texts around it. -/
theorem stands_within (first : front ≠ []) (some_rows : rows ≠ []) (last : (joinedBy "\n" rows).getLast? ≠ some 0x0d)
    (split : texts = front ++ [[]] ++ (rows ++ [] :: back)) : Stands (joinedBy "\n" rows) (joinedBy "\n" texts) := by
  obtain ⟨before, ended⟩ := textLines_ended (joinedBy "\n" front)
  have opened : joinedBy "\n" (front ++ [[]]) = joinedBy "\n" front ++ [0x0a] := by
    rw [joinedBy_append first (List.cons_ne_nil _ _)]
    rfl
  have closed : ∃ after, textLines (joinedBy "\n" ([] :: back)) = [] :: after := by
    cases back with
    | nil => exact ⟨[], rfl⟩
    | cons text back =>
      have joined := @joinedBy_append [[]] _ (List.cons_ne_nil _ _) (List.cons_ne_nil text back)
      exact ⟨textLines (joinedBy "\n" (text :: back)), joined ▸ @textLines_append [] _ (by simp)⟩
  obtain ⟨after, closed⟩ := closed
  refine ⟨before, after, ?_⟩
  rw [split, joinedBy_append (by simp) (by simp), joinedBy_append some_rows (List.cons_ne_nil _ _), opened,
    textLines_append (by simp), ended, textLines_append last, closed]
  simp

theorem joinedBy_single (text : JsString) : joinedBy "\n" [text] = text := by simp [joinedBy, List.intercalate]

theorem stands_single {text : JsString} (last : text.getLast? ≠ some 0x0d) (first : front ≠ [])
    (split : texts = front ++ [[]] ++ ([text] ++ [] :: back)) : Stands text (joinedBy "\n" texts) := by
  have stands := stands_within first (List.cons_ne_nil text []) ((joinedBy_single text).symm ▸ last) split
  rwa [joinedBy_single] at stands

end Documents

section Authored

variable {state : ProjectedState} {program : ProjectedProgram} {texts : List JsString} {first rest value : JsString}

theorem loneReturn_append (apart : rest.head? ≠ some 0x0a) : LoneReturn (first ++ rest) ↔ LoneReturn first ∨ LoneReturn rest := by
  induction first with
  | nil => simp [loneReturn_nil]
  | cons unit first ih =>
    rw [List.cons_append, loneReturn_cons, loneReturn_cons, ih, or_assoc]
    cases first with
    | nil => simp [apart]
    | cons next first => simp

theorem not_loneReturn (without : 0x0d ∉ value) : ¬ LoneReturn value := by
  rintro ⟨before, after, rfl, _⟩
  simp at without

theorem loneReturn_listed : LoneReturn (listed texts) ↔ ∃ text ∈ texts, LoneReturn text := by
  have joined (text : JsString) (others : List JsString) :
      LoneReturn (joinedBy ", " (text :: others)) ↔ ∃ one ∈ text :: others, LoneReturn one := by
    induction others generalizing text with
    | nil => simp [joinedBy, List.intercalate]
    | cons next others ih =>
      have split : joinedBy ", " (text :: next :: others) = text ++ 0x2c :: 0x20 :: joinedBy ", " (next :: others) := by
        simp [joinedBy, List.intercalate, List.intersperse, show units ", " = [0x2c, 0x20] from rfl]
      rw [split, loneReturn_append (by simp), loneReturn_cons, loneReturn_cons, ih]
      simp
  cases texts with
  | nil => simp [listed, not_loneReturn (show 0x0d ∉ dash by decide)]
  | cons text others =>
    rw [listed, if_neg (List.cons_ne_nil _ _)]
    exact joined text others

theorem sortedByText_mem {Item : Type} {idOf : Item → JsString} {item : Item} {records : List Item} :
    item ∈ sortedByText idOf records ↔ item ∈ records := (sortedByText_inOrder idOf records).same.mem_iff

theorem loneReturn_sorted : LoneReturn (listed (sortedByText id texts)) ↔ ∃ text ∈ texts, LoneReturn text := by
  rw [loneReturn_listed]
  simp only [sortedByText_mem]

theorem lifecycleCells_lone (adr : ProjectedAdr) : (∀ value ∈ lifecycleCells adr, ¬ LoneReturn value) ↔
    ∀ value ∈ [adr.id, adr.lifecycle] ++ adr.decisionDate.toList ++ adr.resolves, ¬ LoneReturn value := by
  have dashed := not_loneReturn (show 0x0d ∉ dash by decide)
  unfold lifecycleCells
  cases adr.decisionDate <;> simp [loneReturn_sorted, dashed]

theorem summaryCells_lone (answers : JsString → Option DerivedAnswer) (question : ProjectedQuestion) :
    (∀ value ∈ summaryCells answers question, ¬ LoneReturn value) ↔
    ∀ value ∈ [question.id, question.title, question.severity] ++ ((answers question.id).bind (·.resolver)).toList,
      ¬ LoneReturn value := by
  have dashed := not_loneReturn (show 0x0d ∉ dash by decide)
  have stated (resolved : Bool) : ¬ LoneReturn (units (if resolved then "Resolved" else "Open")) := by
    apply not_loneReturn
    cases resolved <;> decide
  unfold summaryCells
  cases (answers question.id).bind (·.resolver) <;> simp [stated, dashed]

theorem gateCells_lone (gate : ProjectedGate) : (∀ value ∈ gateCells gate, ¬ LoneReturn value) ↔ ¬ LoneReturn gate.id := by
  have dashed := not_loneReturn (show 0x0d ∉ dash by decide)
  have kind := not_loneReturn (show 0x0d ∉ units "gate" by decide)
  have stated (satisfied : Bool) : ¬ LoneReturn (units (if satisfied then "Satisfied" else "Unsatisfied")) := by
    apply not_loneReturn
    cases satisfied <;> decide
  simp [gateCells, stated, dashed, kind]

theorem landingCells_lone (landing : ProjectedLanding) : (∀ value ∈ landingCells landing, ¬ LoneReturn value) ↔
    ∀ value ∈ [landing.id, landing.kind, landing.lifecycle] ++ (landing.readiness.map Prod.snd).getD [], ¬ LoneReturn value := by
  have dashed := not_loneReturn (show 0x0d ∉ dash by decide)
  have stated (ready : Bool) : ¬ LoneReturn (readinessText ready) := by
    apply not_loneReturn
    cases ready <;> decide
  unfold landingCells
  cases landing.readiness <;> simp [loneReturn_sorted, stated, dashed]

theorem countCells_lone (entry : JsString × Nat) : (∀ value ∈ countCells entry, ¬ LoneReturn value) ↔ ¬ LoneReturn entry.1 := by
  have count : ¬ LoneReturn (units entry.2.repr) := by
    apply not_loneReturn
    intro member
    exact absurd (List.all_eq_true.mp (Digits.repr_decimal entry.2).2.1 _ member) (by decide)
  simp [countCells, count]

/-- Nothing returns alone in what the tables show. -/
structure Alone (state : ProjectedState) (program : ProjectedProgram) : Prop where
  decisions : ∀ adr ∈ state.adrs, ∀ value ∈ lifecycleCells adr, ¬ LoneReturn value
  questions : ∀ question ∈ state.questions, ∀ value ∈ summaryCells state.answers question, ¬ LoneReturn value
  gates : ∀ gate ∈ program.gates, ∀ value ∈ gateCells gate, ¬ LoneReturn value
  landings : ∀ landing ∈ program.landings, ∀ value ∈ landingCells landing, ¬ LoneReturn value
  counts : ∀ inventory ∈ inventories program.annex, ∀ entry ∈ inventory.2, ∀ value ∈ countCells entry, ¬ LoneReturn value

theorem authored_alone : (∀ value ∈ authored state program, ¬ LoneReturn value) ↔ Alone state program := by
  have each : (∀ value ∈ authored state program, ¬ LoneReturn value) ↔
      (∀ adr ∈ state.adrs, ∀ value ∈ lifecycleCells adr, ¬ LoneReturn value) ∧
      (∀ question ∈ state.questions, ∀ value ∈ summaryCells state.answers question, ¬ LoneReturn value) ∧
      (∀ gate ∈ program.gates, ∀ value ∈ gateCells gate, ¬ LoneReturn value) ∧
      (∀ landing ∈ program.landings, ∀ value ∈ landingCells landing, ¬ LoneReturn value) ∧
      ∀ inventory ∈ inventories program.annex, ∀ entry ∈ inventory.2, ∀ value ∈ countCells entry, ¬ LoneReturn value := by
    simp only [lifecycleCells_lone, summaryCells_lone, gateCells_lone, landingCells_lone, countCells_lone, authored]
    simp only [List.forall_mem_append, List.forall_mem_flatMap, List.forall_mem_map, and_assoc]
  rw [each]
  exact ⟨fun ⟨decisions, questions, gates, landings, counts⟩ => ⟨decisions, questions, gates, landings, counts⟩,
    fun alone => ⟨alone.decisions, alone.questions, alone.gates, alone.landings, alone.counts⟩⟩

end Authored

section Document

variable {state : ProjectedState} {program : ProjectedProgram}

theorem lifecycle_rows (state : ProjectedState) : renderDecisionLifecycle state =
    joinedBy "\n" ([units "| Decision | Lifecycle | Decision date | Resolves |", units "| --- | --- | --- | --- |"] ++
      ((sortedByText (·.id) state.adrs).map lifecycleCells).map shownRow) := by
  rw [List.map_map]
  exact congrArg (fun rows => joinedBy "\n" (_ ++ rows)) (List.map_congr_left fun adr _ => lifecycleRow_shown adr)

theorem summary_rows (state : ProjectedState) : renderQuestionSummary state =
    joinedBy "\n" ([units "| Question | Title | Severity | State | Resolved by |", units "| --- | --- | --- | --- | --- |"] ++
      ((sortedByText (·.id) state.questions).map (summaryCells state.answers)).map shownRow) := by
  rw [List.map_map]
  exact congrArg (fun rows => joinedBy "\n" (_ ++ rows)) (List.map_congr_left fun question _ => summaryRow_shown state.answers question)

theorem program_rows (program : ProjectedProgram) : programTable program =
    joinedBy "\n" ([units "| Node | Kind | Delivery | Readiness | Unsatisfied |", units "| --- | --- | --- | --- | --- |"] ++
      ((sortedByText (·.id) program.gates).map gateCells ++ (sortedByText (·.id) program.landings).map landingCells).map shownRow) := by
  have gates := List.map_congr_left fun gate (_ : gate ∈ sortedByText (·.id) program.gates) => gateRow_shown gate
  have landings := List.map_congr_left fun landing (_ : landing ∈ sortedByText (·.id) program.landings) => landingRow_shown landing
  unfold programTable programRows
  rw [gates, landings, List.map_append, List.map_map, List.map_map, List.append_assoc]
  rfl

theorem inventory_rows (counts : List (JsString × Nat)) : inventoryTable counts =
    joinedBy "\n" ([units "| Disposition | Count |", units "| --- | --- |"] ++ (counts.map countCells).map shownRow) := by
  rw [List.map_map]
  exact congrArg (fun rows => joinedBy "\n" (_ ++ rows)) (List.map_congr_left fun entry _ => countRow_shown entry)

theorem decisionHeaded : Headed decisionHeader (units "| Decision | Lifecycle | Decision date | Resolves |")
    (units "| --- | --- | --- | --- |") :=
  ⟨by decide, by decide, by decide, by decide⟩

theorem questionHeaded : Headed questionHeader (units "| Question | Title | Severity | State | Resolved by |")
    (units "| --- | --- | --- | --- | --- |") :=
  ⟨by decide, by decide, by decide, by decide⟩

theorem programHeaded : Headed programHeader (units "| Node | Kind | Delivery | Readiness | Unsatisfied |")
    (units "| --- | --- | --- | --- | --- |") :=
  ⟨by decide, by decide, by decide, by decide⟩

theorem inventoryHeaded : Headed inventoryHeader (units "| Disposition | Count |") (units "| --- | --- |") :=
  ⟨by decide, by decide, by decide, by decide⟩

/-- A table of rows does not end in a carriage return. -/
theorem Headed.closed {header : List String} {top ruler : JsString} (headed : Headed header top ruler) (rows : List (List JsString)) :
    (joinedBy "\n" ([top, ruler] ++ rows.map shownRow)).getLast? ≠ some 0x0d := by
  have joined {texts : List JsString} {text : JsString} (last : text.getLast? ≠ some 0x0d) :
      (joinedBy "\n" (texts ++ [text])).getLast? ≠ some 0x0d := by
    cases texts with
    | nil => simpa [joinedBy, List.intercalate] using last
    | cons first texts =>
      rw [joinedBy_append (List.cons_ne_nil _ _) (List.cons_ne_nil _ _), List.getLast?_append, List.getLast?_cons]
      cases text using List.reverseRecOn with
      | nil => simp [joinedBy, List.intercalate]
      | append_singleton text unit =>
        have apart : unit ≠ 0x0d := by simpa using last
        simp [joinedBy, List.intercalate, apart]
  cases rows using List.reverseRecOn with
  | nil => exact @joined [top] _ (headed.last ruler (by simp))
  | append_singleton rows row _ =>
    rw [List.map_append, ← List.append_assoc]
    exact joined shownRow_last

def inventoryTexts (listed : List (String × List (JsString × Nat))) : List JsString :=
  listed.flatMap fun (heading, counts) => [[], units heading, []] ++ inventoryRows counts

/-- The inventories of a document, and its end, begin with an empty text. -/
theorem inventories_open (listed : List (String × List (JsString × Nat))) : ∃ back, inventoryTexts listed ++ [[]] = [] :: back := by
  cases listed with
  | nil => exact ⟨[], rfl⟩
  | cons inventory listed => exact ⟨_, rfl⟩

theorem context_open (annex : Annex) (listed : List (String × List (JsString × Nat))) :
    ∃ back, contextLines annex ++ (inventoryTexts listed ++ [[]]) = [] :: back := by
  unfold contextLines
  cases annex.historicalContext with
  | none => exact inventories_open listed
  | some context => exact ⟨_, rfl⟩

/-- The texts of a document, under its headings. -/
theorem document_texts (state : ProjectedState) (program : ProjectedProgram) : ∃ title note first second third : JsString,
    renderStateDocument state program = joinedBy "\n" ([title, [], note, [], first, [], renderDecisionLifecycle state, [], second, [],
      renderQuestionSummary state, [], third, []] ++ programRows program ++ contextLines program.annex ++
      inventoryTexts (inventories program.annex) ++ [[]]) :=
  ⟨_, _, _, _, _, rfl⟩

/-- Every table stands in the document as it is, whatever the records say. -/
theorem document_tables (state : ProjectedState) (program : ProjectedProgram) :
    ∀ table ∈ [renderDecisionLifecycle state, renderQuestionSummary state, programTable program] ++
      (inventories program.annex).map (inventoryTable ·.2), Stands table (renderStateDocument state program) := by
  have decisions : (renderDecisionLifecycle state).getLast? ≠ some 0x0d := lifecycle_rows state ▸ decisionHeaded.closed _
  have questions : (renderQuestionSummary state).getLast? ≠ some 0x0d := summary_rows state ▸ questionHeaded.closed _
  have nodes : (programTable program).getLast? ≠ some 0x0d := program_rows program ▸ programHeaded.closed _
  have counts (counts : List (JsString × Nat)) : (inventoryTable counts).getLast? ≠ some 0x0d :=
    inventory_rows counts ▸ inventoryHeaded.closed _
  obtain ⟨title, note, first, second, third, texts⟩ := document_texts state program
  rw [texts]
  intro table member
  rcases List.mem_append.mp member with fixed | listed
  · simp only [List.mem_cons, List.not_mem_nil, or_false] at fixed
    rcases fixed with rfl | rfl | rfl
    · apply stands_single decisions (List.cons_ne_nil title [[], note, [], first])
      simp only [List.append_assoc, List.cons_append, List.nil_append]
      rfl
    · apply stands_single questions (List.cons_ne_nil title [[], note, [], first, [], renderDecisionLifecycle state, [], second])
      simp only [List.append_assoc, List.cons_append, List.nil_append]
      rfl
    · obtain ⟨back, opened⟩ := context_open program.annex (inventories program.annex)
      have headed : programRows program ≠ [] := List.cons_ne_nil _ _
      apply @stands_within _ [title, [], note, [], first, [], renderDecisionLifecycle state, [], second, [], renderQuestionSummary state,
        [], third] back _ (List.cons_ne_nil _ _) headed nodes
      rw [← opened]
      simp only [List.append_assoc, List.cons_append, List.nil_append]
  · obtain ⟨inventory, given, rfl⟩ := List.mem_map.mp listed
    obtain ⟨before, after, split⟩ := List.append_of_mem given
    obtain ⟨back, opened⟩ := inventories_open after
    have headed : inventoryRows inventory.2 ≠ [] := List.cons_ne_nil _ _
    apply @stands_within _ ([title, [], note, [], first, [], renderDecisionLifecycle state, [], second, [], renderQuestionSummary state, [],
      third, []] ++ programRows program ++ contextLines program.annex ++ inventoryTexts before ++ [[], units inventory.1]) back _
      (by simp) headed (counts inventory.2)
    rw [← opened, split]
    simp only [inventoryTexts, List.flatMap_append, List.flatMap_cons, List.append_assoc, List.cons_append, List.nil_append]

/-- What the tables show without a lone return, they show row by row. -/
theorem Alone.reads (alone : Alone state program) : TablesReadBack state program where
  decisions := by
    refine ⟨_, sortedByText_inOrder _ _, lifecycle_rows state ▸ decisionHeaded.reads fun row member => ?_⟩
    obtain ⟨adr, listed, rfl⟩ := List.mem_map.mp member
    exact alone.decisions adr (sortedByText_mem.mp listed)
  questions := by
    refine ⟨_, sortedByText_inOrder _ _, summary_rows state ▸ questionHeaded.reads fun row member => ?_⟩
    obtain ⟨question, listed, rfl⟩ := List.mem_map.mp member
    exact alone.questions question (sortedByText_mem.mp listed)
  nodes := by
    refine ⟨_, _, sortedByText_inOrder _ _, sortedByText_inOrder _ _, program_rows program ▸ programHeaded.reads fun row member => ?_⟩
    rcases List.mem_append.mp member with shown | shown
    · obtain ⟨gate, listed, rfl⟩ := List.mem_map.mp shown
      exact alone.gates gate (sortedByText_mem.mp listed)
    · obtain ⟨landing, listed, rfl⟩ := List.mem_map.mp shown
      exact alone.landings landing (sortedByText_mem.mp listed)
  counts inventory member := by
    refine inventory_rows inventory.2 ▸ inventoryHeaded.reads fun row listed => ?_
    obtain ⟨entry, given, rfl⟩ := List.mem_map.mp listed
    exact alone.counts inventory member entry given
  document := document_tables state program

/-- Tables that read back have as many rows as records, and no row ends early. -/
theorem TablesReadBack.alone (reads : TablesReadBack state program) : Alone state program where
  decisions adr member := by
    obtain ⟨adrs, ordered, shown⟩ := reads.decisions
    rw [lifecycle_rows] at shown
    have plain := decisionHeaded.plain (by simp [ordered.same.length_eq, (sortedByText_inOrder _ _).same.length_eq]) shown
    exact plain _ (List.mem_map_of_mem (sortedByText_mem.mpr member))
  questions question member := by
    obtain ⟨questions, ordered, shown⟩ := reads.questions
    rw [summary_rows] at shown
    have plain := questionHeaded.plain (by simp [ordered.same.length_eq, (sortedByText_inOrder _ _).same.length_eq]) shown
    exact plain _ (List.mem_map_of_mem (sortedByText_mem.mpr member))
  gates gate member := by
    obtain ⟨gates, landings, ordered, ordered', shown⟩ := reads.nodes
    rw [program_rows] at shown
    have plain := programHeaded.plain
      (by simp [ordered.same.length_eq, ordered'.same.length_eq, (sortedByText_inOrder _ _).same.length_eq]) shown
    exact plain _ (List.mem_append_left _ (List.mem_map_of_mem (sortedByText_mem.mpr member)))
  landings landing member := by
    obtain ⟨gates, landings, ordered, ordered', shown⟩ := reads.nodes
    rw [program_rows] at shown
    have plain := programHeaded.plain
      (by simp [ordered.same.length_eq, ordered'.same.length_eq, (sortedByText_inOrder _ _).same.length_eq]) shown
    exact plain _ (List.mem_append_right _ (List.mem_map_of_mem (sortedByText_mem.mpr member)))
  counts inventory member entry given := by
    have shown := reads.counts inventory member
    rw [inventory_rows] at shown
    exact inventoryHeaded.plain rfl shown _ (List.mem_map_of_mem given)

/-- The tables of a state read back exactly if no value of its records has a carriage return that no line feed follows. -/
theorem tables_read_back_iff (state : ProjectedState) (program : ProjectedProgram) :
    TablesReadBack state program ↔ ∀ value ∈ authored state program, ¬ LoneReturn value :=
  ⟨fun reads => authored_alone.mpr reads.alone, fun plain => (authored_alone.mp plain).reads⟩

end Document

section Titled
open Governance.Sample

/-- A registry of one open question, under a title of its own. -/
def titled (title : String) : Value :=
  record [("schemaVersion", .number versionOne), ("adrs", .array []),
    ("questions", .array [record [("id", text "U1"), ("anchor", text "docs/questions.md#u1"), ("title", text title),
      ("severity", text "high")]]),
    ("gates", .array []), ("landings", .array []), ("externalReferences", .array []), ("attestations", record [("genesis", record [])])]

/-- A title is a string, and not empty. -/
def readsTitled (title : String) : OtherChecks Unit :=
  { readsBoth with
    parseStrictJson := fun given => if given = canonicalSerialize (titled title) then .ok (titled title) else .error (units "unexpected")
    question := fun question path => refuse (!(textAt question "title").any (· ≠ [])) "ADV-G02" (path ++ units ".title")
      "must be a non-empty string" }

/-- A carriage return in a title of an accepted state opens a row of its own. -/
theorem returned_title : (evaluateState (readsTitled "a\rb") (canonicalSerialize (titled "a\rb")) ()).ok = true ∧
    ∃ derived, (evaluateState (readsTitled "a\rb") (canonicalSerialize (titled "a\rb")) ()).derived = some derived ∧
      ¬ TablesReadBack (projectedState derived (titled "a\rb") []) (projectedProgram derived (titled "a\rb") ⟨none, none, none⟩) := by
  have accepted : (evaluateState (readsTitled "a\rb") (canonicalSerialize (titled "a\rb")) ()).ok = true ∧
      (evaluateState (readsTitled "a\rb") (canonicalSerialize (titled "a\rb")) ()).derived.isSome = true := by decide +kernel
  obtain ⟨derived, answered⟩ := Option.isSome_iff_exists.mp accepted.2
  refine ⟨accepted.1, derived, answered, fun reads => ?_⟩
  have shown : units "a\rb" ∈
      authored (projectedState derived (titled "a\rb") []) (projectedProgram derived (titled "a\rb") ⟨none, none, none⟩) := by
    apply List.mem_append_left
    apply List.mem_append_left
    apply List.mem_append_left
    apply List.mem_append_right
    exact List.mem_flatMap.mpr ⟨projectedQuestion (record [("id", text "U1"), ("anchor", text "docs/questions.md#u1"),
      ("title", text "a\rb"), ("severity", text "high")]), List.mem_singleton_self _, List.mem_append_left _ (List.mem_cons_of_mem _ List.mem_cons_self)⟩
  exact authored_alone.mpr reads.alone _ shown ⟨units "a", units "b", rfl, by decide⟩

end Titled

end SecureHome.Proofs.ProjectedTables
