import Mathlib.Data.List.Basic

/-! Texts cut at trailers: marked blocks of one size, with the mark at their head alone.
Trailers never overlap, so a text has one cut. -/

namespace SecureHome.Lib

variable {Symbol : Type*} {mark : Symbol} {size : Nat} {isTrailer : List Symbol → Bool}

/-- Blocks of one size that hold the mark at their head and nowhere else. -/
structure Trailing (mark : Symbol) (size : Nat) (isTrailer : List Symbol → Bool) : Prop where
  shape : ∀ block, isTrailer block = true → ∃ rest, block = mark :: rest ∧ rest.length + 1 = size ∧ mark ∉ rest

/-- A body and the trailer that ends it. -/
abbrev Frame (Symbol : Type*) := List Symbol × List Symbol

/-- A text as frames and what is left after them. -/
structure Cut (Symbol : Type*) where
  frames : List (Frame Symbol)
  tail : List Symbol

namespace Cut

def push (symbol : Symbol) : Cut Symbol → Cut Symbol
  | ⟨[], tail⟩ => ⟨[], symbol :: tail⟩
  | ⟨(body, trailer) :: frames, tail⟩ => ⟨(symbol :: body, trailer) :: frames, tail⟩

def joined (frames : List (Frame Symbol)) : List Symbol := frames.flatMap fun frame => frame.1 ++ frame.2

/-- What one text gives, a trailer, and what the text after it gives. -/
def follow (cut : Cut Symbol) (trailer : List Symbol) (later : Cut Symbol) : Cut Symbol :=
  ⟨cut.frames ++ (cut.tail, trailer) :: later.frames, later.tail⟩

theorem push_follow (symbol : Symbol) (cut : Cut Symbol) (trailer : List Symbol) (later : Cut Symbol) :
    (cut.follow trailer later).push symbol = (cut.push symbol).follow trailer later := by
  obtain ⟨frames, tail⟩ := cut
  cases frames <;> rfl

end Cut

variable (isTrailer size) in
/-- The cut of a text whose first `skipped` symbols belong to a trailer already taken. -/
def cutFrom (skipped : Nat) : List Symbol → Cut Symbol
  | [] => ⟨[], []⟩
  | symbol :: rest =>
    match skipped with
    | more + 1 => cutFrom more rest
    | 0 =>
      if isTrailer ((symbol :: rest).take size) then
        let later := cutFrom (size - 1) rest
        ⟨([], (symbol :: rest).take size) :: later.frames, later.tail⟩
      else (cutFrom 0 rest).push symbol

variable (isTrailer size) in
def cutAt (text : List Symbol) : Cut Symbol := cutFrom size isTrailer 0 text

theorem cutFrom_drop (skipped : Nat) (text : List Symbol) : cutFrom size isTrailer skipped text = cutAt size isTrailer (text.drop skipped) := by
  induction text generalizing skipped with
  | nil => rw [List.drop_nil]; rfl
  | cons symbol rest ih =>
    cases skipped with
    | zero => rfl
    | succ more => exact ih more

theorem cutAt_nil : cutAt size isTrailer ([] : List Symbol) = ⟨[], []⟩ := rfl

/-- A text with no trailer in front keeps its first symbol. -/
theorem cutAt_push {symbol : Symbol} {rest : List Symbol} (none_here : isTrailer ((symbol :: rest).take size) = false) :
    cutAt size isTrailer (symbol :: rest) = (cutAt size isTrailer rest).push symbol := by
  unfold cutAt
  rw [cutFrom, if_neg (by simp [none_here])]

/-- A trailer in front ends an empty body. -/
theorem cutAt_trailer (trailing : Trailing mark size isTrailer) {block : List Symbol} (trailer : isTrailer block = true) (rest : List Symbol) :
    cutAt size isTrailer (block ++ rest) = Cut.follow ⟨[], []⟩ block (cutAt size isTrailer rest) := by
  obtain ⟨marked, rfl, long, _⟩ := trailing.shape _ trailer
  have taken : ((mark :: marked) ++ rest).take size = mark :: marked := by
    rw [← long, ← List.length_cons (a := mark)]
    exact List.take_left
  have dropped : (marked ++ rest).drop (size - 1) = rest := by
    rw [← long, Nat.add_sub_cancel]
    exact List.drop_left
  unfold cutAt
  rw [List.cons_append, cutFrom, ← List.cons_append, taken, if_pos trailer, cutFrom_drop, dropped]
  rfl

/-- A trailer that begins within a text does not reach past it. -/
theorem taken_within (trailing : Trailing mark size isTrailer) {block : List Symbol} (trailer : isTrailer block = true)
    {symbol : Symbol} {text : List Symbol} (rest : List Symbol) (begins : isTrailer (((symbol :: text) ++ (block ++ rest)).take size) = true) :
    size ≤ (symbol :: text).length := by
  obtain ⟨marked, rfl, _, _⟩ := trailing.shape _ trailer
  obtain ⟨more, taken, long, apart⟩ := trailing.shape _ begins
  by_contra short
  obtain ⟨room, rfl⟩ := Nat.exists_eq_add_of_lt (Nat.lt_of_not_le short)
  rw [List.take_append, List.take_of_length_le (by omega), List.cons_append] at taken
  refine apart ((List.cons.inj taken).2 ▸ List.mem_append_right _ ?_)
  rw [show (symbol :: text).length + room + 1 - (symbol :: text).length = room + 1 by omega]
  exact List.mem_cons_self

/-- A text is cut at every trailer in it. -/
theorem cutAt_append (trailing : Trailing mark size isTrailer) {block : List Symbol} (trailer : isTrailer block = true)
    (text rest : List Symbol) :
    cutAt size isTrailer (text ++ (block ++ rest)) = (cutAt size isTrailer text).follow block (cutAt size isTrailer rest) := by
  induction long : text.length using Nat.strongRecOn generalizing text with
  | ind _ ih =>
    cases text with
    | nil => exact cutAt_trailer trailing trailer rest
    | cons symbol text =>
      by_cases begins : isTrailer (((symbol :: text) ++ (block ++ rest)).take size) = true
      · -- The trailer in front lies within the text, which goes on behind it.
        have within := taken_within trailing trailer rest begins
        rw [List.take_append_of_le_length within] at begins
        have split : symbol :: text = (symbol :: text).take size ++ (symbol :: text).drop size := (List.take_append_drop _ _).symm
        obtain ⟨_, taken, sized, _⟩ := trailing.shape _ begins
        rw [split, List.append_assoc, cutAt_trailer trailing begins, cutAt_trailer trailing begins,
          ih ((symbol :: text).drop size).length (by rw [← long, List.length_drop]; omega) _ rfl]
        rfl
      · have none_here : isTrailer ((symbol :: text).take size) = false := by
          by_contra found
          obtain ⟨_, taken, sized, _⟩ := trailing.shape _ (by simpa using found)
          have reaches := congrArg List.length taken
          rw [List.length_take, List.length_cons, List.length_cons, sized] at reaches
          rw [List.take_append_of_le_length (by rw [List.length_cons]; omega)] at begins
          exact begins (by simpa using found)
        rw [List.cons_append, cutAt_push (by simpa using begins), cutAt_push none_here,
          ih text.length (by rw [← long, List.length_cons]; omega) text rfl, Cut.push_follow]

/-- Joined again, a cut is the text. -/
theorem joined_cutAt (trailing : Trailing mark size isTrailer) (text : List Symbol) :
    Cut.joined (cutAt size isTrailer text).frames ++ (cutAt size isTrailer text).tail = text := by
  induction long : text.length using Nat.strongRecOn generalizing text with
  | ind _ ih =>
    cases text with
    | nil => rfl
    | cons symbol text =>
      by_cases begins : isTrailer ((symbol :: text).take size) = true
      · obtain ⟨_, taken, sized, _⟩ := trailing.shape _ begins
        have later := ih ((symbol :: text).drop size).length (by rw [← long, List.length_drop, List.length_cons]; omega) _ rfl
        have split := List.take_append_drop size (symbol :: text)
        generalize (symbol :: text).take size = block at begins split
        generalize (symbol :: text).drop size = after at later split
        rw [← split, cutAt_trailer trailing begins]
        show block ++ Cut.joined (cutAt size isTrailer after).frames ++ (cutAt size isTrailer after).tail = block ++ after
        rw [List.append_assoc, later]
      · have later := ih text.length (by rw [← long, List.length_cons]; omega) text rfl
        rw [cutAt_push (by simpa using begins)]
        generalize cutAt size isTrailer text = cut at later
        obtain ⟨frames, tail⟩ := cut
        rw [← later]
        cases frames <;> rfl

/-- A text with no trailer in it is all tail. -/
theorem cutAt_plain {text : List Symbol} (none_within : ∀ before block after, text = before ++ (block ++ after) → isTrailer block = false) :
    cutAt size isTrailer text = ⟨[], text⟩ := by
  induction text with
  | nil => rfl
  | cons symbol rest ih =>
    have later := ih fun before block after split => none_within (symbol :: before) block after (by rw [split]; rfl)
    rw [cutAt_push (none_within [] _ ((symbol :: rest).drop size) (List.take_append_drop _ _).symm), later]
    rfl

/-- Frames that end in trailers are cut apart one by one. -/
theorem cutAt_flatMap (trailing : Trailing mark size isTrailer) {Item : Type*} {body block : Item → List Symbol} {items : List Item}
    (trailers : ∀ item ∈ items, isTrailer (block item) = true) :
    cutAt size isTrailer (items.flatMap fun item => body item ++ block item) =
      ⟨items.flatMap fun item => (cutAt size isTrailer (body item)).frames ++ [((cutAt size isTrailer (body item)).tail, block item)], []⟩ := by
  induction items with
  | nil => rfl
  | cons item items ih =>
    rw [List.flatMap_cons, List.append_assoc, cutAt_append trailing (trailers item List.mem_cons_self),
      ih fun later member => trailers later (List.mem_cons_of_mem _ member)]
    simp only [Cut.follow, List.flatMap_cons, List.append_assoc, List.singleton_append]

end SecureHome.Lib
