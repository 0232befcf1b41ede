import Mathlib.Data.List.Basic

/-! Views of a fold. A view of the state that each item changes by a list of acts is
itself a fold, over the acts of all items in turn. -/

namespace SecureHome.Lib

variable {State Item View Act : Type*} (view : State → View) {step : State → Item → State}

theorem foldl_traced {acts : Item → List Act} {act : View → Act → View}
    (each : ∀ state item, view (step state item) = (acts item).foldl act (view state))
    (items : List Item) (state : State) :
    view (items.foldl step state) = (items.flatMap acts).foldl act (view state) := by
  induction items generalizing state with
  | nil => rfl
  | cons item rest ih => rw [List.foldl_cons, ih, each, List.flatMap_cons, List.foldl_append]

/-- What no step changes, no fold changes. -/
theorem foldl_keeps (each : ∀ state item, view (step state item) = view state) (items : List Item) (state : State) :
    view (items.foldl step state) = view state := by
  induction items generalizing state with
  | nil => rfl
  | cons item rest ih => rw [List.foldl_cons, ih, each]

/-- A view of a fold whose every step the view turns into a step of its own. -/
theorem foldl_changed {items : List Item} {next : View → Item → View}
    (each : ∀ item ∈ items, ∀ state, next (view state) item = view (step state item)) (state : State) :
    items.foldl next (view state) = view (items.foldl step state) := by
  induction items generalizing state with
  | nil => rfl
  | cons item rest ih =>
    rw [List.foldl_cons, List.foldl_cons, each item (List.mem_cons_self ..)]
    exact ih (fun other listed => each other (List.mem_cons_of_mem _ listed)) _

/-- What each step replaces or keeps is in the end what replaced it last. -/
theorem foldl_latest {report : Item → Option View}
    (each : ∀ state item, view (step state item) = (report item).getD (view state))
    (items : List Item) (state : State) :
    view (items.foldl step state) = (items.filterMap report).getLast?.getD (view state) := by
  induction items generalizing state with
  | nil => rfl
  | cons item rest ih =>
    rw [List.foldl_cons, ih, each]
    cases reported : report item with
    | none => rw [List.filterMap_cons_none reported, Option.getD_none]
    | some value =>
      rw [List.filterMap_cons_some reported, List.getLast?_cons]
      cases (rest.filterMap report).getLast? <;> rfl

end SecureHome.Lib
