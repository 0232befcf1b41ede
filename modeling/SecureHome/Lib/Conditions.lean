import Mathlib.Data.List.Basic

/-! Pre- and postconditions of actions that fail where they stand. -/

namespace SecureHome.Lib

variable {Error State Value Other Item : Type} {before : State → Prop} {failed : Error → State → Prop}

/-- From a state of `before`, an action ends in one of `after`, or fails in one of `failed`. -/
def Meets (before : State → Prop) (act : EStateM Error State Value) (after : Value → State → Prop)
    (failed : Error → State → Prop) : Prop :=
  ∀ state, before state → match act state with
    | .ok value next => after value next
    | .error error next => failed error next

namespace Meets

theorem pure {after : Value → State → Prop} (value : Value) (holds : ∀ state, before state → after value state) :
    Meets before (Pure.pure value) after failed := holds

theorem throw {after : Value → State → Prop} (error : Error) (holds : ∀ state, before state → failed error state) :
    Meets before (throw error) after failed := holds

theorem modify {after : Unit → State → Prop} (change : State → State) (holds : ∀ state, before state → after () (change state)) :
    Meets before (modify change) after failed := holds

theorem bind {act : EStateM Error State Value} {next : Value → EStateM Error State Other} {between : Value → State → Prop}
    {after : Other → State → Prop} (first : Meets before act between failed) (then_meets : ∀ value, Meets (between value) (next value) after failed) :
    Meets before (act >>= next) after failed := by
  intro state holds
  have ended := first state holds
  show match EStateM.bind act next state with
    | .ok value next => after value next
    | .error error next => failed error next
  unfold EStateM.bind
  cases ran : act state with
  | ok value reached =>
    rw [ran] at ended
    exact then_meets value reached ended
  | error error reached =>
    rw [ran] at ended
    exact ended

/-- One action, then another that does not look at what the first gives. -/
theorem andThen {act : EStateM Error State Unit} {next : EStateM Error State Other} {between : State → Prop}
    {after : Other → State → Prop} (first : Meets before act (fun _ => between) failed) (second : Meets between next after failed) :
    Meets before (act >>= fun _ => next) after failed := first.bind fun _ => second

/-- The same, by what holds between. -/
theorem through {act : EStateM Error State Unit} {next : EStateM Error State Other} {after : Other → State → Prop} (between : State → Prop)
    (first : Meets before act (fun _ => between) failed) (second : Meets between next after failed) :
    Meets before (act >>= fun _ => next) after failed := first.andThen second

/-- What may be looked at before an action is done. -/
theorem read {next : State → EStateM Error State Other} {after : Other → State → Prop}
    (holds : ∀ seen, before seen → Meets (· = seen) (next seen) after failed) : Meets before (get >>= next) after failed :=
  fun state starts => holds state starts state rfl

theorem weaken {act : EStateM Error State Value} {after later : Value → State → Prop} {stronger : State → Prop}
    {lost : Error → State → Prop} (meets : Meets before act after failed) (starts : ∀ state, stronger state → before state)
    (reaches : ∀ value state, after value state → later value state) (fails : ∀ error state, failed error state → lost error state) :
    Meets stronger act later lost := by
  intro state holds
  have ended := meets state (starts state holds)
  cases ran : act state with
  | ok value reached =>
    rw [ran] at ended
    exact reaches value reached ended
  | error error reached =>
    rw [ran] at ended
    exact fails error reached ended

/-- A pass over a list, with what holds after the items passed. -/
theorem forM {items : List Item} {act : Item → EStateM Error State Unit} (passed : List Item → State → Prop)
    (each : ∀ done item rest, items = done ++ item :: rest → Meets (passed done) (act item) (fun _ => passed (done ++ [item])) failed) :
    Meets (passed []) (items.forM act) (fun _ => passed items) failed := by
  have along (done rest : List Item) (whole : items = done ++ rest) :
      Meets (passed done) (rest.forM act) (fun _ => passed items) failed := by
    induction rest generalizing done with
    | nil =>
      rw [List.append_nil] at whole
      exact .pure () fun _ holds => whole ▸ holds
    | cons item rest ih =>
      exact (each done item rest whole).andThen (ih (done ++ [item]) (by rw [whole, List.append_assoc]; rfl))
  exact along [] items rfl

end Meets

end SecureHome.Lib
