import Mathlib.Data.List.Basic

/-! Texts that spell items one after another. An item is read off a text in one way if what
follows it starts with an end. -/

namespace SecureHome.Lib

variable {Symbol Item : Type*} {spell : Item → List Symbol} {ends : Symbol → Prop}

/-- The text is over, or goes on with an end. -/
def Follows (ends : Symbol → Prop) (rest : List Symbol) : Prop := ∀ symbol ∈ rest.head?, ends symbol

/-- No other item is spelled at the start of a text that starts with this one. -/
def ReadsOff (spell : Item → List Symbol) (ends : Symbol → Prop) (item : Item) : Prop :=
  ∀ ⦃other rest rest'⦄, Follows ends rest → Follows ends rest' → spell item ++ rest = spell other ++ rest' →
    item = other ∧ rest = rest'

theorem follows_cons {symbol : Symbol} {rest : List Symbol} (last : ends symbol) : Follows ends (symbol :: rest) := by
  intro other head
  rw [List.head?_cons, Option.mem_some_iff] at head
  exact head ▸ last

theorem ReadsOff.after {item : Item} (reads : ReadsOff spell ends item) (before : List Symbol) :
    ReadsOff (fun item => before ++ spell item) ends item := by
  intro other rest rest' follows follows' same
  rw [List.append_assoc, List.append_assoc] at same
  exact reads follows follows' (List.append_cancel_left same)

/-- Items set apart by one end and closed by another are read off in one way. -/
theorem separated_unique {comma close : Symbol} (apart : comma ≠ close) (separates : ends comma) (closes : ends close)
    {separator closing rest rest' : List Symbol} {items others : List Item} (reads : ∀ item ∈ items, ReadsOff spell ends item)
    (some_items : items ≠ []) (some_others : others ≠ [])
    (same : (comma :: separator).intercalate (items.map spell) ++ close :: closing ++ rest =
      (comma :: separator).intercalate (others.map spell) ++ close :: closing ++ rest') : items = others ∧ rest = rest' := by
  induction items generalizing others with
  | nil => exact absurd rfl some_items
  | cons item items ih =>
    cases others with
    | nil => exact absurd rfl some_others
    | cons other others =>
      have read := reads item List.mem_cons_self
      cases items with
      | nil =>
        cases others with
        | nil =>
          simp only [List.map_cons, List.map_nil, List.intercalate_singleton, List.append_assoc] at same
          obtain ⟨rfl, left⟩ := read (follows_cons closes) (follows_cons closes) same
          have after : (close :: closing) ++ rest = (close :: closing) ++ rest' := left
          exact ⟨rfl, List.append_cancel_left after⟩
        | cons next others =>
          simp only [List.map_cons, List.map_nil, List.intercalate_singleton, List.intercalate_cons_cons, List.append_assoc] at same
          obtain ⟨_, left⟩ := read (follows_cons closes) (follows_cons separates) same
          exact absurd (List.cons.inj left).1.symm apart
      | cons next items =>
        cases others with
        | nil =>
          simp only [List.map_cons, List.map_nil, List.intercalate_singleton, List.intercalate_cons_cons, List.append_assoc] at same
          obtain ⟨_, left⟩ := read (follows_cons separates) (follows_cons closes) same
          exact absurd (List.cons.inj left).1 apart
        | cons second others =>
          simp only [List.map_cons, List.intercalate_cons_cons, List.append_assoc] at same
          obtain ⟨rfl, left⟩ := read (follows_cons separates) (follows_cons separates) same
          have later : ∀ item ∈ next :: items, ReadsOff spell ends item := fun item member =>
            reads item (List.mem_cons_of_mem _ member)
          have tails : (comma :: separator) ++ _ = (comma :: separator) ++ _ := left
          obtain ⟨further, after⟩ := ih later (List.cons_ne_nil _ _) (List.cons_ne_nil second others)
            (by simpa only [List.map_cons, List.append_assoc] using List.append_cancel_left tails)
          exact ⟨congrArg (item :: ·) further, after⟩

/-- A run of symbols that are no ends is read off in one way. -/
theorem run_unique {first second rest rest' : List Symbol} (plain : ∀ symbol ∈ first, ¬ ends symbol)
    (also : ∀ symbol ∈ second, ¬ ends symbol) (follows : Follows ends rest) (follows' : Follows ends rest')
    (same : first ++ rest = second ++ rest') : first = second ∧ rest = rest' := by
  induction first generalizing second with
  | nil =>
    cases second with
    | nil => exact ⟨rfl, same⟩
    | cons symbol second =>
      rw [List.nil_append] at same
      exact absurd (follows symbol (by rw [same]; rfl)) (also symbol List.mem_cons_self)
  | cons symbol first ih =>
    cases second with
    | nil =>
      rw [List.nil_append] at same
      exact absurd (follows' symbol (by rw [← same]; rfl)) (plain symbol List.mem_cons_self)
    | cons other second =>
      obtain ⟨rfl, left⟩ := List.cons.inj same
      obtain ⟨rfl, after⟩ := ih (fun symbol member => plain symbol (List.mem_cons_of_mem _ member))
        (fun symbol member => also symbol (List.mem_cons_of_mem _ member)) left
      exact ⟨rfl, after⟩

end SecureHome.Lib
