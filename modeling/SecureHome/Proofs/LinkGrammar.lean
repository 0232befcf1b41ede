import Mathlib.Logic.Relation
import SecureHome.Toolchain.Links

/-! Which links of a document are answered. Brackets are matched line by line and never inside a
destination, so a link is dropped exactly if it opens on another line or inside of one that is read. -/

namespace SecureHome.Proofs.LinkGrammar
open Lib Toolchain
open Relation (ReflTransGen)

section Nesting

/-- The brackets that are open behind a text. -/
def openAfter (text : JsString) : ℕ :=
  text.foldl (fun depth unit => if unit = 0x5b then depth + 1 else if unit = 0x5d then depth - 1 else depth) 0

/-- A bracket of the whole text closes there, with a parenthesis right behind it. Line breaks
neither open nor close. -/
def Closes (lines : List JsString) (index column : ℕ) : Prop :=
  ∃ row before after, lines[index]? = some row ∧ row = before ++ 0x5d :: 0x28 :: after ∧ before.length = column ∧
    0 < openAfter ((lines.take index).flatten ++ before)

/-- The link is among the targets, or one that is refused comes before it on the line. -/
def Answered (text : JsString) (index column : ℕ) : Prop :=
  ∃ entry ∈ linkEntries text, entry.2.line = index + 1 ∧
    (entry.1 = some column ∨ entry.2.kind = .unreadable ∧ ∀ earlier, entry.1 = some earlier → earlier < column)

end Nesting

section Lines

/-- How a line is walked: from a column, with the brackets of the line that are open there. The
destination of a link is stepped over. -/
inductive Moves (row : JsString) : ℕ × ℕ → ℕ × ℕ → Prop where
  | opens {column depth : ℕ} (bracket : row[column]? = some 0x5b) : Moves row (column, depth) (column + 1, depth + 1)
  | plain {column depth : ℕ} {unit : UInt16} (stands : row[column]? = some unit) (no_open : unit ≠ 0x5b) (no_close : unit ≠ 0x5d) :
    Moves row (column, depth) (column + 1, depth)
  | alone {column : ℕ} (bracket : row[column]? = some 0x5d) : Moves row (column, 0) (column + 1, 0)
  | closes {column depth : ℕ} (bracket : row[column]? = some 0x5d) (no_link : row[column + 1]? ≠ some 0x28) :
    Moves row (column, depth + 1) (column + 1, depth)
  | link {column depth close : ℕ} (bracket : row[column]? = some 0x5d) (behind : row[column + 1]? = some 0x28)
    (ended : destinationEnd row (column + 2) = some close) : Moves row (column, depth + 1) (close + 1, depth)

/-- A bracket of the line closes there, outside the destinations before it, with a parenthesis right behind it. -/
def LinkAt (row : JsString) (start : ℕ × ℕ) (column : ℕ) : Prop :=
  ∃ depth, ReflTransGen (Moves row) start (column, depth + 1) ∧ row[column]? = some 0x5d ∧ row[column + 1]? = some 0x28

/-- What is read behind a bracket. -/
def targetAt (row : JsString) (number column : ℕ) : LinkTarget :=
  match destinationEnd row (column + 2) with
  | none => ⟨.unreadable, row.drop (column + 1), number⟩
  | some close => innerTarget row number column close

variable {row : JsString} {number column depth found : ℕ} {opened : List ℕ} {entry : Option ℕ × LinkTarget} {start next other : ℕ × ℕ}

theorem moves_unique (moves : Moves row start next) (moves' : Moves row start other) : next = other := by
  cases moves <;> cases moves' <;> simp_all

theorem linkAt_iff : LinkAt row (column, depth) found ↔
    (column = found ∧ 0 < depth ∧ row[column]? = some 0x5d ∧ row[column + 1]? = some 0x28) ∨
      ∃ next, Moves row (column, depth) next ∧ LinkAt row next found := by
  constructor
  · rintro ⟨inner, walked, bracket, behind⟩
    rcases ReflTransGen.cases_head_iff.mp walked with same | ⟨next, moves, further⟩
    · cases same
      exact .inl ⟨rfl, Nat.succ_pos _, bracket, behind⟩
    · exact .inr ⟨next, moves, inner, further, bracket, behind⟩
  · rintro (⟨rfl, some_open, bracket, behind⟩ | ⟨next, moves, inner, further, bracket, behind⟩)
    · exact ⟨depth - 1, by rw [Nat.sub_add_cancel some_open], bracket, behind⟩
    · exact ⟨inner, .head moves further, bracket, behind⟩

/-- Where no link stands, the next column has the same links before it. -/
theorem linkAt_next (moves : Moves row (column, depth) next)
    (no_link : ¬ (0 < depth ∧ row[column]? = some 0x5d ∧ row[column + 1]? = some 0x28)) :
    LinkAt row (column, depth) found ↔ LinkAt row next found := by
  rw [linkAt_iff]
  constructor
  · rintro (⟨_, link⟩ | ⟨other, moves', further⟩)
    · exact absurd link no_link
    · rwa [moves_unique moves moves']
  · intro further
    exact .inr ⟨next, moves, further⟩

theorem linkAt_link (moves : Moves row (column, depth + 1) next) (bracket : row[column]? = some 0x5d)
    (behind : row[column + 1]? = some 0x28) :
    LinkAt row (column, depth + 1) found ↔ found = column ∨ LinkAt row next found := by
  rw [linkAt_iff]
  constructor
  · rintro (⟨same, _⟩ | ⟨other, moves', further⟩)
    · exact .inl same.symm
    · exact .inr (by rwa [moves_unique moves moves'])
  · rintro (rfl | further)
    · exact .inl ⟨rfl, Nat.succ_pos _, bracket, behind⟩
    · exact .inr ⟨next, moves, further⟩

theorem linkAt_last (stays : ∀ next, ¬ Moves row (column, depth) next) :
    LinkAt row (column, depth) found ↔ column = found ∧ 0 < depth ∧ row[column]? = some 0x5d ∧ row[column + 1]? = some 0x28 := by
  rw [linkAt_iff]
  exact or_iff_left fun ⟨next, moves, _⟩ => stays next moves

/-- The links that are read of a line are its own, each with what is read behind it. -/
theorem scanLinks_mem : entry ∈ scanLinks row number column opened ↔
    ∃ found, LinkAt row (column, opened.length) found ∧ entry = (some found, targetAt row number found) := by
  induction column, opened using scanLinks.induct row with
  | case1 column opened inside bracket ih =>
    rw [scanLinks.eq_def, dif_pos inside, if_pos bracket, ih]
    have stands : row[column]? = some 0x5b := by rw [List.getElem?_eq_getElem inside, bracket]
    refine exists_congr fun found => and_congr_left fun _ => (linkAt_next (.opens stands) ?_).symm
    rintro ⟨_, closed, _⟩
    cases stands.symm.trans closed
  | case2 column opened inside no_open no_close ih =>
    rw [scanLinks.eq_def, dif_pos inside, if_neg no_open, if_pos no_close, ih]
    have stands : row[column]? = some row[column] := List.getElem?_eq_getElem inside
    refine exists_congr fun found => and_congr_left fun _ => (linkAt_next (.plain stands no_open no_close) ?_).symm
    rintro ⟨_, closed, _⟩
    exact no_close (Option.some.inj (stands.symm.trans closed))
  | case3 column inside no_open close ih =>
    rw [scanLinks.eq_def, dif_pos inside, if_neg no_open, if_neg close]
    have stands : row[column]? = some 0x5d := by rw [List.getElem?_eq_getElem inside, not_not.mp close]
    refine ih.trans (exists_congr fun found => and_congr_left fun _ => (linkAt_next (.alone stands) ?_).symm)
    rintro ⟨none_open, _⟩
    exact Nat.lt_irrefl 0 none_open
  | case4 column inside no_open close outermost outer no_link ih =>
    rw [scanLinks.eq_def, dif_pos inside, if_neg no_open, if_neg close]
    have stands : row[column]? = some 0x5d := by rw [List.getElem?_eq_getElem inside, not_not.mp close]
    dsimp only
    rw [if_pos no_link, ih]
    refine exists_congr fun found => and_congr_left fun _ => (linkAt_next (.closes stands no_link) ?_).symm
    rintro ⟨_, _, behind⟩
    exact no_link behind
  | case5 column inside no_open close outermost outer link unended =>
    rw [scanLinks.eq_def, dif_pos inside, if_neg no_open, if_neg close]
    have stands : row[column]? = some 0x5d := by rw [List.getElem?_eq_getElem inside, not_not.mp close]
    have behind := not_not.mp link
    have stays : ∀ next, ¬ Moves row (column, outer.length + 1) next := by
      intro next moves
      cases moves <;> simp_all
    dsimp only
    rw [if_neg link]
    split
    next =>
      rw [List.mem_singleton]
      constructor
      · rintro rfl
        refine ⟨column, (linkAt_last stays).mpr ⟨rfl, Nat.succ_pos _, stands, behind⟩, ?_⟩
        rw [targetAt, unended]
      · rintro ⟨found, reached, rfl⟩
        obtain ⟨rfl, _⟩ := (linkAt_last stays).mp reached
        rw [targetAt, unended]
    next finish ended =>
      rw [unended] at ended
      cases ended
  | case6 column inside no_open close outermost outer link finish ended ih =>
    rw [scanLinks.eq_def, dif_pos inside, if_neg no_open, if_neg close]
    have stands : row[column]? = some 0x5d := by rw [List.getElem?_eq_getElem inside, not_not.mp close]
    have behind := not_not.mp link
    have reach (found : ℕ) := @linkAt_link row column outer.length found _ (.link stands behind ended) stands behind
    dsimp only
    rw [if_neg link]
    split
    next unended =>
      rw [ended] at unended
      cases unended
    next same =>
      cases ended.symm.trans same
      have target : targetAt row number column = innerTarget row number column finish := by rw [targetAt, ended]
      rw [List.mem_cons, ih]
      constructor
      · rintro (rfl | ⟨found, reached, rfl⟩)
        · exact ⟨column, (reach column).mpr (.inl rfl), by rw [target]⟩
        · exact ⟨found, (reach found).mpr (.inr reached), rfl⟩
      · rintro ⟨found, reached, rfl⟩
        rcases (reach found).mp reached with rfl | further
        · exact .inl (by rw [target])
        · exact .inr ⟨found, further, rfl⟩
  | case7 column opened outside =>
    rw [scanLinks.eq_def, dif_neg outside]
    refine iff_of_false List.not_mem_nil ?_
    rintro ⟨found, link, _⟩
    have beyond : row[column]? = none := List.getElem?_eq_none (Nat.not_lt.mp outside)
    have stays (depth : ℕ) : ∀ next, ¬ Moves row (column, depth) next := by
      intro next moves
      cases moves <;> simp_all
    obtain ⟨_, _, bracket, _⟩ := (linkAt_last (stays _)).mp link
    cases beyond.symm.trans bracket

/-- What keeps a link that closes at a column of a line from being dropped: the line is refused, or
the link is the line's own, or comes behind one of them that is refused. -/
def Kept (row : JsString) (number column : ℕ) : Prop :=
  match rawHtml row, definitionOf row with
  | some _, _ => True
  | none, some after => (definitionTarget row after number).kind = .unreadable
  | none, none => LinkAt row (0, 0) column ∨
      ∃ earlier < column, LinkAt row (0, 0) earlier ∧ (targetAt row number earlier).kind = .unreadable

theorem readDestination_line {raw : JsString} : (readDestination raw number).line = number := by
  unfold readDestination classify
  dsimp only
  split_ifs <;> rfl

theorem definitionTarget_line {after : JsString} : (definitionTarget row after number).line = number := by
  unfold definitionTarget
  split
  · rfl
  · exact readDestination_line

theorem targetAt_line : (targetAt row number column).line = number := by
  unfold targetAt
  split
  · rfl
  unfold innerTarget
  dsimp only
  split
  · rfl
  · exact readDestination_line

theorem lineLinks_line (member : entry ∈ lineLinks row number) : entry.2.line = number := by
  unfold lineLinks at member
  split at member
  · rw [List.mem_singleton.mp member]
  split at member
  · rw [List.mem_singleton.mp member]
    exact definitionTarget_line
  · obtain ⟨found, _, rfl⟩ := scanLinks_mem.mp member
    exact targetAt_line

end Lines

section Document

variable {text row : JsString} {index column : ℕ}

/-- A line's targets are those that are read of it. -/
theorem linkEntries_line (stands : (visible text)[index]? = some row) {entry : Option ℕ × LinkTarget} :
    entry ∈ linkEntries text ∧ entry.2.line = index + 1 ↔ entry ∈ lineLinks row (index + 1) := by
  unfold linkEntries
  constructor
  · rintro ⟨member, there⟩
    obtain ⟨⟨other, place⟩, listed, read⟩ := List.mem_flatMap.mp member
    have same : place + 1 = index + 1 := (lineLinks_line read).symm.trans there
    obtain rfl := Nat.succ.inj same
    have found := List.mem_zipIdx_iff_getElem?.mp listed
    cases found.symm.trans stands
    exact read
  · intro read
    exact ⟨List.mem_flatMap.mpr ⟨(row, index), List.mem_zipIdx_iff_getElem?.mpr stands, read⟩, lineLinks_line read⟩

theorem answered_iff (stands : (visible text)[index]? = some row) : Answered text index column ↔ Kept row (index + 1) column := by
  have whole : Answered text index column ↔ ∃ entry ∈ lineLinks row (index + 1),
      entry.1 = some column ∨ entry.2.kind = .unreadable ∧ ∀ earlier, entry.1 = some earlier → earlier < column := by
    refine exists_congr fun entry => ?_
    rw [← linkEntries_line stands, and_assoc]
  rw [whole]
  unfold lineLinks Kept
  cases rawHtml row with
  | some raw => exact iff_of_true ⟨_, List.mem_singleton_self _, .inr ⟨rfl, fun _ impossible => by cases impossible⟩⟩ trivial
  | none =>
    dsimp only
    cases definitionOf row with
    | some after =>
      dsimp only
      constructor
      · rintro ⟨entry, member, kept⟩
        obtain rfl := List.mem_singleton.mp member
        rcases kept with impossible | ⟨refused, _⟩
        · cases impossible
        · exact refused
      · intro refused
        exact ⟨_, List.mem_singleton_self _, .inr ⟨refused, fun _ impossible => by cases impossible⟩⟩
    | none =>
      dsimp only
      constructor
      · rintro ⟨entry, member, kept⟩
        obtain ⟨found, link, rfl⟩ := scanLinks_mem.mp member
        rcases kept with same | ⟨refused, before⟩
        · cases same
          exact .inl link
        · exact .inr ⟨found, before found rfl, link, refused⟩
      · rintro (link | ⟨earlier, before, link, refused⟩)
        · exact ⟨_, scanLinks_mem.mpr ⟨column, link, rfl⟩, .inl rfl⟩
        · refine ⟨_, scanLinks_mem.mpr ⟨earlier, link, rfl⟩, .inr ⟨refused, fun other same => ?_⟩⟩
          cases same
          exact before

/-- Every link of a document is answered exactly if each one that closes on a line is kept there. -/
theorem links_answered_iff (text : JsString) : (∀ index column, Closes (visible text) index column → Answered text index column) ↔
    ∀ index column, Closes (visible text) index column → ∀ row, (visible text)[index]? = some row → Kept row (index + 1) column := by
  refine forall_congr' fun index => forall_congr' fun column => imp_congr_right fun ⟨row, _, _, stands, _⟩ => ?_
  rw [answered_iff stands]
  constructor
  · intro kept other same
    cases stands.symm.trans same
    exact kept
  · intro kept
    exact kept row stands

/-- A link whose text goes over a line break has no target, and nothing is refused for it. -/
theorem broken_text_dropped : ∃ text index column, Closes (visible text) index column ∧ linkTargets text = [] ∧
    ¬ Answered text index column := by
  have none_read : linkEntries (units "[a\nb](x.md)") = [] := by decide +kernel
  refine ⟨units "[a\nb](x.md)", 1, 1, ⟨units "b](x.md)", units "b", units "x.md)", ?_, rfl, rfl, ?_⟩, ?_, ?_⟩
  · decide +kernel
  · decide +kernel
  · unfold linkTargets
    rw [none_read]
    rfl
  · rintro ⟨entry, member, _⟩
    rw [none_read] at member
    cases member

end Document

end SecureHome.Proofs.LinkGrammar
