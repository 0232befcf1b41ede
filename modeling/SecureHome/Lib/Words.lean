import SecureHome.Lib.Splitting
import Mathlib.Data.Nat.Find

/-! Words between an opening and a closing symbol that hold neither inside. Two of them in
one text are the same or stand apart, and a scan finds them one by one. -/

namespace SecureHome.Lib

variable {Symbol Mark : Type*} {opens closes : Symbol}

/-- A word that opens at its head, closes at its end, and does neither in between. -/
structure Solid (opens closes : Symbol) (word : List Symbol) : Prop where
  shape : ∃ inner, word = opens :: (inner ++ [closes]) ∧ opens ∉ inner ∧ closes ∉ inner

theorem word_ahead (differ : opens ≠ closes) {word other before rest others : List Symbol} (solid : Solid opens closes word)
    (solid' : Solid opens closes other) (same : word ++ rest = before ++ (other ++ others)) :
    (before = [] ∧ word = other ∧ rest = others) ∨ ∃ between, before = word ++ between ∧ rest = between ++ (other ++ others) := by
  obtain ⟨inner, rfl, unopened, unclosed⟩ := solid.shape
  obtain ⟨inner', rfl, _, unclosed'⟩ := solid'.shape
  rcases List.append_eq_append_iff.mp same with ⟨between, here, there⟩ | ⟨part, here, there⟩
  · exact .inr ⟨between, here, there⟩
  · cases before with
    | nil =>
      rw [List.nil_append] at here
      subst here
      rw [List.cons_append, List.cons_append, List.cons.injEq] at there
      have ends := there.2
      rw [List.append_assoc, List.append_assoc, List.singleton_append, List.singleton_append] at ends
      obtain ⟨rfl, rfl⟩ := first_separated unclosed' unclosed ends
      exact .inl ⟨rfl, rfl, rfl⟩
    | cons symbol before =>
      cases part with
      | nil =>
        rw [List.append_nil] at here
        exact .inr ⟨[], by rw [here, List.append_nil], by simpa using there.symm⟩
      | cons first part =>
        -- What is left of the word would have to open again.
        rw [List.cons_append, List.cons.injEq] at here
        rw [List.cons_append, List.cons_append, List.cons.injEq] at there
        have again : opens ∈ inner ++ [closes] := by
          rw [here.2, there.1]
          exact List.mem_append_right _ List.mem_cons_self
        rcases List.mem_append.mp again with inside | final
        · exact absurd inside unopened
        · exact absurd (List.mem_singleton.mp final) differ

/-- Two words of one text are the same, or one stands after the other. -/
theorem words_apart (differ : opens ≠ closes) {word other before before' rest rest' : List Symbol} (solid : Solid opens closes word)
    (solid' : Solid opens closes other) (same : before ++ (word ++ rest) = before' ++ (other ++ rest')) :
    (before = before' ∧ word = other ∧ rest = rest') ∨
      (∃ between, before' = before ++ (word ++ between) ∧ rest = between ++ (other ++ rest')) ∨
      ∃ between, before = before' ++ (other ++ between) ∧ rest' = between ++ (word ++ rest) := by
  rcases List.append_eq_append_iff.mp same with ⟨between, rfl, ahead⟩ | ⟨between, rfl, ahead⟩
  · rcases word_ahead differ solid solid' ahead with ⟨rfl, words, rests⟩ | ⟨more, rfl, rests⟩
    · exact .inl ⟨(List.append_nil _).symm, words, rests⟩
    · exact .inr (.inl ⟨more, rfl, rests⟩)
  · rcases word_ahead differ solid' solid ahead with ⟨rfl, words, rests⟩ | ⟨more, rfl, rests⟩
    · exact .inl ⟨List.append_nil _, words.symm, rests.symm⟩
    · exact .inr (.inr ⟨more, rfl, rests⟩)

section Scan

variable [DecidableEq Symbol]

/-- What stands before the next closing symbol. -/
def insideOf (closes : Symbol) : List Symbol → Option (List Symbol)
  | [] => none
  | symbol :: rest => if symbol = closes then some [] else (insideOf closes rest).map (symbol :: ·)

/-- Every word of a text that can be read, in order. -/
def scan (opens closes : Symbol) (read : List Symbol → Option Mark) : List Symbol → List Mark
  | [] => []
  | symbol :: rest =>
    if symbol = opens then ((insideOf closes rest).bind read).toList ++ scan opens closes read rest
    else scan opens closes read rest

/-- A symbol that no word that can be read has inside. -/
def Breaks (read : List Symbol → Option Mark) (symbol : Symbol) : Prop := ∀ inner, symbol ∈ inner → read inner = none

variable {read : List Symbol → Option Mark} {symbol : Symbol} {text rest : List Symbol}

theorem insideOf_open (unclosed : closes ∉ text) : insideOf closes (text ++ rest) = (insideOf closes rest).map (text ++ ·) := by
  induction text with
  | nil => simp
  | cons symbol text ih =>
    obtain ⟨other, unclosed⟩ := not_or.mp (List.mem_cons.not.mp unclosed)
    rw [List.cons_append, insideOf, if_neg (Ne.symm other), ih unclosed, Option.map_map]
    rfl

theorem insideOf_none (unclosed : closes ∉ text) : insideOf closes text = none := by
  have whole := @insideOf_open _ closes _ text [] unclosed
  rwa [List.append_nil] at whole

theorem insideOf_closed (closed : closes ∈ text) : insideOf closes (text ++ rest) = insideOf closes text := by
  obtain ⟨before, after, rfl, apart⟩ := List.eq_append_cons_of_mem closed
  rw [List.append_assoc, List.cons_append, insideOf_open apart, insideOf_open apart, insideOf, insideOf, if_pos rfl, if_pos rfl]

theorem insideOf_word {inner : List Symbol} (unclosed : closes ∉ inner) : insideOf closes (inner ++ closes :: rest) = some inner := by
  rw [insideOf_open unclosed, insideOf, if_pos rfl]
  simp

/-- What breaks a word ends what can be read before it. -/
theorem insideOf_break (breaks : Breaks read symbol) (other : symbol ≠ closes) :
    (insideOf closes (text ++ symbol :: rest)).bind read = (insideOf closes text).bind read := by
  by_cases closed : closes ∈ text
  · rw [insideOf_closed closed]
  · rw [insideOf_none closed, insideOf_open closed, insideOf, if_neg other, Option.map_map]
    cases insideOf closes rest with
    | none => rfl
    | some inner => exact breaks _ (List.mem_append_right _ List.mem_cons_self)

theorem scan_break (breaks : Breaks read symbol) (other : symbol ≠ closes) :
    scan opens closes read (text ++ symbol :: rest) = scan opens closes read text ++ scan opens closes read (symbol :: rest) := by
  induction text with
  | nil => rfl
  | cons first text ih =>
    rw [List.cons_append, scan, scan]
    split
    · rw [insideOf_break breaks other, ih, List.append_assoc]
    · exact ih

/-- Nothing is read where nothing opens. -/
theorem scan_unopened (unopened : opens ∉ text) : scan opens closes read (text ++ rest) = scan opens closes read rest := by
  induction text with
  | nil => rfl
  | cons symbol text ih =>
    obtain ⟨other, unopened⟩ := not_or.mp (List.mem_cons.not.mp unopened)
    rw [List.cons_append, scan, if_neg (Ne.symm other), ih unopened]

/-- Nothing more is read of a text that goes on without opening or closing. -/
theorem scan_quiet (unopened : opens ∉ rest) (unclosed : closes ∉ rest) : scan opens closes read (text ++ rest) = scan opens closes read text := by
  induction text with
  | nil =>
    have none_read := @scan_unopened _ Mark opens closes _ read rest [] unopened
    rwa [List.append_nil] at none_read
  | cons symbol text ih =>
    rw [List.cons_append, scan, scan, ih]
    by_cases closed : closes ∈ text
    · rw [insideOf_closed closed]
    · rw [insideOf_none closed, insideOf_open closed, insideOf_none unclosed]
      rfl

/-- A word is read where it stands. -/
theorem scan_word {inner before : List Symbol} {mark : Mark} (differ : opens ≠ closes) (breaks : Breaks read opens) (unopened : opens ∉ inner)
    (unclosed : closes ∉ inner) (reads : read inner = some mark) :
    scan opens closes read (before ++ (opens :: (inner ++ [closes]) ++ rest)) =
      scan opens closes read before ++ mark :: scan opens closes read rest := by
  have whole : opens :: (inner ++ [closes]) ++ rest = opens :: (inner ++ closes :: rest) := by simp
  have after : scan opens closes read (inner ++ closes :: rest) = scan opens closes read rest := by
    rw [scan_unopened unopened, scan, if_neg (Ne.symm differ)]
  rw [whole, scan_break breaks differ, scan, if_pos rfl, insideOf_word unclosed, after, Option.bind_some, reads]
  rfl

end Scan

section Occurrences

variable [DecidableEq Symbol] {word text before after : List Symbol}

/-- Where a word first occurs. -/
def indexOf (word : List Symbol) : List Symbol → Option Nat
  | [] => if word = [] then some 0 else none
  | symbol :: rest => if word.isPrefixOf (symbol :: rest) then some 0 else (indexOf word rest).map (· + 1)

/-- A word occurs in one place. -/
def Alone (word text before after : List Symbol) : Prop :=
  text = before ++ (word ++ after) ∧ ∀ one other, text = one ++ (word ++ other) → one = before

theorem indexOf_some {index : Nat} : indexOf word text = some index ↔
    (∃ before after, text = before ++ (word ++ after) ∧ before.length = index) ∧
      ∀ one other, text = one ++ (word ++ other) → index ≤ one.length := by
  induction text generalizing index with
  | nil =>
    rw [indexOf]
    constructor
    · intro found
      split at found
      next empty =>
        cases found
        exact ⟨⟨[], [], by rw [empty]; rfl, rfl⟩, fun _ _ _ => Nat.zero_le _⟩
      next => cases found
    · rintro ⟨⟨before, after, split, rfl⟩, _⟩
      obtain ⟨rfl, rest⟩ := List.append_eq_nil_iff.mp split.symm
      rw [if_pos (List.append_eq_nil_iff.mp rest).1, List.length_nil]
  | cons symbol text ih =>
    rw [indexOf]
    by_cases here : word.isPrefixOf (symbol :: text) = true
    · rw [if_pos here]
      obtain ⟨after, split⟩ := List.isPrefixOf_iff_prefix.mp here
      constructor
      · rintro ⟨⟩
        exact ⟨⟨[], after, split.symm, rfl⟩, fun _ _ _ => Nat.zero_le _⟩
      · rintro ⟨_, least⟩
        have first := least [] after split.symm
        rw [List.length_nil, Nat.le_zero] at first
        rw [first]
    · rw [if_neg here]
      have shifted (one other : List Symbol) (split : symbol :: text = one ++ (word ++ other)) :
          ∃ rest, one = symbol :: rest ∧ text = rest ++ (word ++ other) := by
        cases one with
        | nil => exact absurd (List.isPrefixOf_iff_prefix.mpr ⟨other, split.symm⟩) here
        | cons first rest =>
          obtain ⟨rfl, rest_split⟩ := List.cons.inj split
          exact ⟨rest, rfl, rest_split⟩
      rw [Option.map_eq_some_iff]
      constructor
      · rintro ⟨found, there, rfl⟩
        obtain ⟨⟨before, after, rfl, rfl⟩, least⟩ := ih.mp there
        refine ⟨⟨symbol :: before, after, rfl, rfl⟩, fun one other split => ?_⟩
        obtain ⟨rest, rfl, rest_split⟩ := shifted one other split
        exact Nat.succ_le_succ (least rest other rest_split)
      · rintro ⟨⟨before, after, split, rfl⟩, least⟩
        obtain ⟨rest, rfl, rfl⟩ := shifted before after split
        refine ⟨rest.length, ih.mpr ⟨⟨rest, after, rfl, rfl⟩, fun one other same => ?_⟩, rfl⟩
        have longer := least (symbol :: one) other (by rw [same]; rfl)
        rw [List.length_cons, List.length_cons] at longer
        exact Nat.le_of_succ_le_succ longer

theorem indexOf_none : indexOf word text = none ↔ ∀ before after, text ≠ before ++ (word ++ after) := by
  constructor
  · intro absent
    by_contra occurs
    simp only [ne_eq, not_forall, not_not] at occurs
    -- The first of the places has an index.
    have places : ∃ length, ∃ before after, text = before ++ (word ++ after) ∧ before.length = length :=
      ⟨_, occurs.choose, occurs.choose_spec.choose, occurs.choose_spec.choose_spec, rfl⟩
    classical
    have found : indexOf word text = some (Nat.find places) :=
      indexOf_some.mpr ⟨Nat.find_spec places, fun one other same => Nat.find_min' places ⟨one, other, same, rfl⟩⟩
    rw [absent] at found
    cases found
  · intro absent
    by_contra occurs
    obtain ⟨index, found⟩ := Option.ne_none_iff_exists'.mp occurs
    obtain ⟨⟨before, after, split, _⟩, _⟩ := indexOf_some.mp found
    exact absent before after split

/-- A word is found once, and not again after that, exactly if it occurs in one place. -/
theorem indexOf_alone {index : Nat} (some_word : word ≠ []) : indexOf word text = some index ∧ indexOf word (text.drop (index + 1)) = none ↔
    ∃ before after, Alone word text before after ∧ before.length = index := by
  constructor
  · rintro ⟨found, absent⟩
    obtain ⟨⟨before, after, split, rfl⟩, least⟩ := indexOf_some.mp found
    refine ⟨before, after, ⟨split, fun one other same => ?_⟩, rfl⟩
    rcases Nat.eq_or_lt_of_le (least one other same) with long | longer
    · exact (List.append_inj (same.symm.trans split) long.symm).1
    · refine absurd ?_ (indexOf_none.mp absent (one.drop (before.length + 1)) other)
      rw [same, List.drop_append_of_le_length longer]
  · rintro ⟨before, after, ⟨split, only⟩, rfl⟩
    refine ⟨indexOf_some.mpr ⟨⟨before, after, split, rfl⟩, fun one other same => by rw [only one other same]⟩, indexOf_none.mpr fun one other again => ?_⟩
    have whole : text = (text.take (before.length + 1) ++ one) ++ (word ++ other) := by
      rw [List.append_assoc, ← again, List.take_append_drop]
    have same := congrArg List.length (only _ _ whole)
    rw [List.length_append, List.length_take] at same
    have long := congrArg List.length split
    have rest := congrArg List.length again
    simp only [List.length_append, List.length_drop] at long rest
    have positive := List.length_pos_iff.mpr some_word
    omega

end Occurrences

end SecureHome.Lib
