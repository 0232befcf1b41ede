import Mathlib.Data.List.Chain

/-! Chains of states, and what they say of one record that a state may hold. -/

namespace SecureHome.Lib

variable {State Record : Type*} {find : State → Option Record} {Step : Record → Record → Prop} {states : List State}

/-- A record of the first state is one of the second, and moved as allowed. -/
def Carries (find : State → Option Record) (Step : Record → Record → Prop) (before after : State) : Prop :=
  ∀ record, find before = some record → ∃ next, find after = some next ∧ Step record next

theorem Carries.weaken {Weaker : Record → Record → Prop} {before after : State} (carries : Carries find Step before after)
    (weaker : ∀ one two, Step one two → Weaker one two) : Carries find Weaker before after := by
  intro record found
  obtain ⟨next, here, step⟩ := carries record found
  exact ⟨next, here, weaker record next step⟩

/-- What is carried on by every move is carried on from any state to any later one. -/
theorem carries_pairwise (trans : ∀ one two three, Step one two → Step two three → Step one three)
    (chain : states.IsChain (Carries find Step)) : states.Pairwise (Carries find Step) := by
  have carried : Trans (Carries find Step) (Carries find Step) (Carries find Step) := ⟨fun first second record found => by
    obtain ⟨next, here, step⟩ := first record found
    obtain ⟨last, there, also⟩ := second next here
    exact ⟨last, there, trans _ _ _ step also⟩⟩
  exact List.isChain_iff_pairwise.mp chain

/-- The records along a chain are a walk. -/
theorem carries_walk (chain : states.IsChain (Carries find Step)) : (states.filterMap find).IsChain Step := by
  induction states with
  | nil => exact .nil
  | cons state rest ih =>
    have later := ih chain.tail
    rw [List.filterMap_cons]
    cases found : find state with
    | none => exact later
    | some record =>
      cases rest with
      | nil => exact .singleton record
      | cons next rest =>
        obtain ⟨moved, here, step⟩ := chain.rel record found
        rw [List.filterMap_cons_some here] at later ⊢
        exact .cons_cons step later

/-- The first record of a chain that starts without one is born on the way. -/
theorem walk_born {Born : Record → Prop}
    (chain : states.IsChain fun before after => find before = none → ∀ record, find after = some record → Born record)
    (absent : ∀ first ∈ states.head?, find first = none) : ∀ record ∈ (states.filterMap find).head?, Born record := by
  induction states with
  | nil => exact fun record none => by cases none
  | cons state rest ih =>
    have none := absent state rfl
    rw [List.filterMap_cons_none none]
    cases rest with
    | nil => exact fun record none => by cases none
    | cons next rest =>
      cases found : find next with
      | none =>
        refine ih chain.tail fun first head => ?_
        cases head
        exact found
      | some record =>
        intro other head
        rw [List.filterMap_cons_some found, List.head?_cons, Option.mem_some_iff] at head
        exact head ▸ chain.rel none record found

/-- A record that the first state lacks appears between two consecutive states. -/
theorem appears (absent : ∀ first ∈ states.head?, find first = none) {state : State} (member : state ∈ states)
    (present : find state ≠ none) : ∃ before after, [before, after] <:+: states ∧ find before = none ∧ find after ≠ none := by
  induction states with
  | nil => cases member
  | cons first rest ih =>
    have none := absent first rfl
    rcases List.mem_cons.mp member with rfl | later
    · exact absurd none present
    cases rest with
    | nil => cases later
    | cons next rest =>
      by_cases found : find next = Option.none
      · obtain ⟨before, after, within, gone, here⟩ := ih (fun head same => by cases same; exact found) later
        exact ⟨before, after, within.trans (List.suffix_cons first _).isInfix, gone, here⟩
      · exact ⟨first, next, ⟨[], rest, rfl⟩, none, found⟩

end SecureHome.Lib
