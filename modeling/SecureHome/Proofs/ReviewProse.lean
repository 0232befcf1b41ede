import SecureHome.Lib.Fallible
import SecureHome.Lib.Splitting
import SecureHome.Reviews.ReviewBody

/-! What a review shows, and that the gate judges just that wherever no line has a second comment. -/

namespace SecureHome.Proofs.ReviewProse
open Lib Governance Reviews

section Pieces

/-- A part of a line: prose, a part of a comment, or a part of a fenced block as what delimits it and what it hides. -/
inductive Piece where
  | shown (text : JsString)
  | comment (opens closes : Bool) (span : JsString)
  | fence (delimiter hidden : JsString)
  deriving DecidableEq

namespace Piece

def text : Piece → JsString
  | shown text => text
  | comment _ _ span => span
  | fence delimiter hidden => delimiter ++ hidden

def prose : Piece → JsString
  | shown text => text
  | _ => []

/-- A piece without the units it hides. -/
def outline : Piece → Piece
  | shown text => shown text
  | comment opens closes span => comment opens closes (List.replicate span.length 0)
  | fence delimiter hidden => fence delimiter (List.replicate hidden.length 0)

def isComment : Piece → Bool
  | comment .. => true
  | _ => false

theorem outline_prose (piece : Piece) : piece.outline.prose = piece.prose := by cases piece <;> rfl

theorem outline_isComment (piece : Piece) : piece.outline.isComment = piece.isComment := by cases piece <;> rfl

end Piece

/-- The pieces of a text that starts outside of comments, any number of them, and whether one is left open. -/
def prosePieces (line : JsString) : List Piece × Mode :=
  match indexOf commentOpens line with
  | none => ([.shown line], .prose)
  | some start =>
    match _closes : indexOf commentCloses (line.drop start) with
    | none => ([.shown (line.take start), .comment true false (line.drop start)], .comment)
    | some close =>
      let rest := prosePieces (line.drop (start + close + commentCloses.length))
      (.shown (line.take start) :: .comment true true ((line.drop start).take (close + commentCloses.length)) :: rest.1, rest.2)
termination_by line.length
decreasing_by
  obtain ⟨⟨before, after, split, rfl⟩, _⟩ := indexOf_some.mp _closes
  have long := congrArg List.length split
  simp only [List.length_drop, List.length_append, show commentCloses.length = 3 from rfl] at long ⊢
  omega

def linePieces (line : JsString) : Mode → List Piece × Mode
  | .fenced fence => if closesFence fence line then ([.fence line []], .prose) else ([.fence [] line], .fenced fence)
  | .comment =>
    match indexOf commentCloses line with
    | none => ([.comment false false line], .comment)
    | some close =>
      let rest := prosePieces (line.drop (close + commentCloses.length))
      (.comment false true (line.take (close + commentCloses.length)) :: rest.1, rest.2)
  | .prose =>
    match fenceRun line with
    | some (margin, run, behind) => ([.fence (margin ++ run) behind], .fenced run)
    | none => prosePieces line

def textPieces : Mode → List JsString → List (List Piece)
  | _, [] => []
  | mode, line :: rest => (linePieces line mode).1 :: textPieces (linePieces line mode).2 rest

def pieces (text : JsString) : List (List Piece) := textPieces .prose (text.splitOn 0x0a)

/-- The lines of a text without their hidden units. -/
def visible (text : JsString) : List JsString := (pieces text).map fun line => line.flatMap Piece.prose

/-- The texts differ in hidden units alone. -/
def Alike (text other : JsString) : Prop := (pieces text).map (List.map Piece.outline) = (pieces other).map (List.map Piece.outline)

/-- No line has parts of two comments. -/
def Uncrowded (text : JsString) : Prop := ∀ line ∈ pieces text, line.countP Piece.isComment ≤ 1

variable {line text other : JsString} {mode : Mode}

theorem prosePieces_plain (none_opens : indexOf commentOpens line = none) : prosePieces line = ([.shown line], .prose) := by
  rw [prosePieces.eq_def, none_opens]

theorem prosePieces_open {start : ℕ} (opens : indexOf commentOpens line = some start)
    (unclosed : indexOf commentCloses (line.drop start) = none) :
    prosePieces line = ([.shown (line.take start), .comment true false (line.drop start)], .comment) := by
  rw [prosePieces.eq_def, opens]
  dsimp only
  split
  · rfl
  next closes =>
    rw [unclosed] at closes
    cases closes

theorem prosePieces_closed {start close : ℕ} (opens : indexOf commentOpens line = some start)
    (closes : indexOf commentCloses (line.drop start) = some close) :
    prosePieces line =
      (.shown (line.take start) :: .comment true true ((line.drop start).take (close + commentCloses.length)) ::
        (prosePieces (line.drop (start + close + commentCloses.length))).1, (prosePieces (line.drop
            (start + close + commentCloses.length))).2) := by
  rw [prosePieces.eq_def, opens]
  dsimp only
  split
  next unclosed =>
    rw [closes] at unclosed
    cases unclosed
  next same =>
    cases closes.symm.trans same
    rfl

/-- The pieces of a line are the whole line. -/
theorem prosePieces_spell (line : JsString) : (prosePieces line).1.flatMap Piece.text = line := by
  induction line using prosePieces.induct with
  | case1 line plain =>
    rw [prosePieces_plain plain]
    exact List.append_nil _
  | case2 line start opens unclosed =>
    rw [prosePieces_open opens unclosed]
    change line.take start ++ (line.drop start ++ []) = line
    rw [List.append_nil, List.take_append_drop]
  | case3 line start opens close closes ih =>
    rw [prosePieces_closed opens closes, List.flatMap_cons, List.flatMap_cons, ih, Nat.add_assoc, ← List.drop_drop]
    change line.take start ++ ((line.drop start).take _ ++ _) = line
    rw [List.take_append_drop, List.take_append_drop]

theorem fenceRun_spell {margin run behind : JsString} (found : fenceRun line = some (margin, run, behind)) :
    margin ++ run ++ behind = line := by
  unfold fenceRun at found
  dsimp only at found
  split at found
  next => cases found
  next unit rest begins =>
    split at found
    next =>
      cases found
      rw [List.append_assoc, List.cons_append, List.takeWhile_append_dropWhile, ← begins, List.takeWhile_append_dropWhile]
    next => cases found

theorem linePieces_spell (line : JsString) (mode : Mode) : (linePieces line mode).1.flatMap Piece.text = line := by
  unfold linePieces
  split
  next =>
    split
    all_goals simp [Piece.text]
  next =>
    split
    · exact List.append_nil _
    · rw [List.flatMap_cons, prosePieces_spell]
      exact List.take_append_drop _ _
  next =>
    split
    next found =>
      rw [List.flatMap_singleton]
      exact fenceRun_spell found
    · exact prosePieces_spell line

/-- The prose of a line with one comment at most is what the gate leaves of it. -/
theorem maskLine_eq (single : (linePieces line mode).1.countP Piece.isComment ≤ 1) :
    maskLine line mode = ((linePieces line mode).1.flatMap Piece.prose, (linePieces line mode).2) := by
  have plain (rest : JsString) (none_left : (prosePieces rest).1.countP Piece.isComment = 0) :
      prosePieces rest = ([.shown rest], .prose) := by
    cases opens : indexOf commentOpens rest with
    | none => exact prosePieces_plain opens
    | some start =>
      cases closes : indexOf commentCloses (rest.drop start) with
      | none =>
        rw [prosePieces_open opens closes] at none_left
        cases none_left
      | some close =>
        rw [prosePieces_closed opens closes, List.countP_cons, List.countP_cons] at none_left
        simp [Piece.isComment] at none_left
  cases mode with
  | fenced fence =>
    rw [maskLine, linePieces]
    split <;> rfl
  | comment =>
    rw [linePieces] at single ⊢
    rw [maskLine]
    cases closes : indexOf commentCloses line with
    | none => rfl
    | some close =>
      rw [closes, List.countP_cons_of_pos rfl] at single
      dsimp only
      rw [plain _ (Nat.le_zero.mp (Nat.le_of_succ_le_succ single))]
      exact congrArg (·, Mode.prose) (List.append_nil _).symm
  | prose =>
    rw [linePieces] at single ⊢
    rw [maskLine]
    cases fence : fenceRun line with
    | some parts => rfl
    | none =>
      rw [fence] at single
      dsimp only at single ⊢
      cases opens : indexOf commentOpens line with
      | none =>
        rw [prosePieces_plain opens]
        exact congrArg (·, Mode.prose) (List.append_nil _).symm
      | some start =>
        dsimp only
        cases closes : indexOf commentCloses (line.drop start) with
        | none =>
          rw [prosePieces_open opens closes]
          exact congrArg (·, Mode.comment) (List.append_nil _).symm
        | some close =>
          rw [prosePieces_closed opens closes] at single ⊢
          rw [List.countP_cons_of_neg Bool.false_ne_true, List.countP_cons_of_pos rfl] at single
          rw [plain _ (Nat.le_zero.mp (Nat.le_of_succ_le_succ single))]
          exact congrArg (·, Mode.prose) (congrArg (line.take start ++ ·) (List.append_nil _).symm)

theorem prosePieces_length (line : JsString) : ((prosePieces line).1.flatMap Piece.prose).length ≤ line.length := by
  have shorter (pieces : List Piece) : (pieces.flatMap Piece.prose).length ≤ (pieces.flatMap Piece.text).length := by
    induction pieces with
    | nil => exact Nat.le_refl 0
    | cons piece rest ih =>
      rw [List.flatMap_cons, List.flatMap_cons, List.length_append, List.length_append]
      apply Nat.add_le_add _ ih
      cases piece with
      | shown text => exact Nat.le_refl text.length
      | comment opens closes span => exact Nat.zero_le _
      | fence delimiter hidden => exact Nat.zero_le _
  have spelled := shorter (prosePieces line).1
  rw [prosePieces_spell] at spelled
  exact spelled

/-- A comment leaves less than the whole of the line it is in. -/
theorem prosePieces_shorter (commented : (prosePieces line).1.countP Piece.isComment ≠ 0) :
    ((prosePieces line).1.flatMap Piece.prose).length < line.length := by
  cases opens : indexOf commentOpens line with
  | none =>
    rw [prosePieces_plain opens] at commented
    exact absurd rfl commented
  | some start =>
    obtain ⟨⟨before, after, split, rfl⟩, _⟩ := indexOf_some.mp opens
    have long := congrArg List.length split
    rw [List.length_append, List.length_append, show commentOpens.length = 4 from rfl] at long
    cases closes : indexOf commentCloses (line.drop before.length) with
    | none =>
      rw [prosePieces_open opens closes]
      simp only [List.flatMap_cons, List.flatMap_nil, Piece.prose, List.append_nil, List.length_take]
      omega
    | some close =>
      obtain ⟨⟨inside, behind, cut, rfl⟩, _⟩ := indexOf_some.mp closes
      have rest := congrArg List.length cut
      rw [List.length_drop, List.length_append, List.length_append] at rest
      have less := prosePieces_length (line.drop (before.length + inside.length + commentCloses.length))
      rw [prosePieces_closed opens closes]
      simp only [List.flatMap_cons, Piece.prose, List.nil_append, List.length_append, List.length_take, List.length_drop] at less ⊢
      rw [show commentCloses.length = 3 from rfl] at rest less ⊢
      omega

/-- What a second comment of a line hides, the gate leaves. -/
theorem maskLine_ne (double : ¬ (linePieces line mode).1.countP Piece.isComment ≤ 1) :
    (maskLine line mode).1 ≠ (linePieces line mode).1.flatMap Piece.prose := by
  intro same
  cases mode with
  | fenced fence =>
    rw [linePieces] at double
    split at double
    all_goals exact double (Nat.zero_le 1)
  | comment =>
    rw [linePieces] at double same
    rw [maskLine] at same
    cases closes : indexOf commentCloses line with
    | none =>
      rw [closes] at double
      exact double (Nat.le_refl 1)
    | some close =>
      rw [closes] at double same
      rw [List.countP_cons_of_pos rfl] at double
      have less := @prosePieces_shorter (line.drop (close + commentCloses.length)) (by omega)
      have long := congrArg List.length same
      rw [List.flatMap_cons] at long
      exact absurd long (Nat.ne_of_gt less)
  | prose =>
    rw [linePieces] at double same
    rw [maskLine] at same
    cases fence : fenceRun line with
    | some parts =>
      rw [fence] at double
      exact double (Nat.zero_le 1)
    | none =>
      rw [fence] at double same
      dsimp only at double same
      cases opens : indexOf commentOpens line with
      | none =>
        rw [prosePieces_plain opens] at double
        exact double (Nat.zero_le 1)
      | some start =>
        rw [opens] at same
        dsimp only at same
        cases closes : indexOf commentCloses (line.drop start) with
        | none =>
          rw [prosePieces_open opens closes] at double
          exact double (Nat.le_refl 1)
        | some close =>
          rw [prosePieces_closed opens closes] at double same
          rw [List.countP_cons_of_neg Bool.false_ne_true, List.countP_cons_of_pos rfl] at double
          rw [closes, List.flatMap_cons, List.flatMap_cons] at same
          have less := @prosePieces_shorter (line.drop (start + close + commentCloses.length)) (by omega)
          have left := congrArg List.length (List.append_cancel_left same)
          exact absurd left (Nat.ne_of_gt less)

theorem maskLines_eq {lines : List JsString} (single : ∀ line ∈ textPieces mode lines, line.countP Piece.isComment ≤ 1) :
    maskLines mode lines = (textPieces mode lines).map fun line => line.flatMap Piece.prose := by
  induction lines generalizing mode with
  | nil => rfl
  | cons line rest ih =>
    rw [textPieces, List.forall_mem_cons] at single
    rw [maskLines, textPieces, maskLine_eq single.1, List.map_cons, ih single.2]

theorem maskLines_single {lines : List JsString}
    (shown : maskLines mode lines = (textPieces mode lines).map fun line => line.flatMap Piece.prose) :
    ∀ line ∈ textPieces mode lines, line.countP Piece.isComment ≤ 1 := by
  induction lines generalizing mode with
  | nil => exact fun line none_listed => absurd none_listed List.not_mem_nil
  | cons line rest ih =>
    rw [maskLines, textPieces, List.map_cons] at shown
    obtain ⟨here, later⟩ := List.cons_eq_cons.mp shown
    have single : (linePieces line mode).1.countP Piece.isComment ≤ 1 := Classical.byContradiction fun double => maskLine_ne double here
    rw [maskLine_eq single] at later
    rw [textPieces, List.forall_mem_cons]
    exact ⟨single, ih later⟩

/-- The gate reads what is visible of a text with no second comment on a line. -/
theorem maskNonProse_eq (single : Uncrowded text) : maskNonProse text = visible text := maskLines_eq single

/-- The gate reads more or less than what is visible where a line has a second comment. -/
theorem maskNonProse_iff : maskNonProse text = visible text ↔ Uncrowded text := ⟨maskLines_single, maskLines_eq⟩

theorem alike_visible (alike : Alike text other) : visible text = visible other := by
  have prose (line : List Piece) : (line.map Piece.outline).flatMap Piece.prose = line.flatMap Piece.prose := by
    rw [List.flatMap_map]
    simp only [Piece.outline_prose]
  have same := congrArg (List.map fun line => line.flatMap Piece.prose) alike
  rw [List.map_map, List.map_map] at same
  simp only [Function.comp_def, prose] at same
  exact same

theorem alike_single (alike : Alike text other) (single : Uncrowded text) : Uncrowded other := by
  have count (line : List Piece) : (line.map Piece.outline).countP Piece.isComment = line.countP Piece.isComment := by
    rw [List.countP_map]
    exact List.countP_congr fun piece _ => by rw [Function.comp_apply, Piece.outline_isComment]
  intro line member
  have listed : line.map Piece.outline ∈ (pieces text).map (List.map Piece.outline) := alike ▸ List.mem_map_of_mem member
  obtain ⟨first, there, same⟩ := List.mem_map.mp listed
  rw [← count line, ← same, count first]
  exact single first there

/-- Texts that differ in hidden units alone are judged alike. -/
theorem assertReviewBody_alike (single : Uncrowded text) (alike : Alike text other) (filled : hasPlaceholder text = false)
    (filled' : hasPlaceholder other = false) : assertReviewBody text = assertReviewBody other := by
  unfold assertReviewBody parseSections
  rw [maskNonProse_eq single, maskNonProse_eq (alike_single alike single), alike_visible alike, filled, filled']

end Pieces

end SecureHome.Proofs.ReviewProse
