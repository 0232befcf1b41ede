import Mathlib.Data.List.Forall2
import Mathlib.Data.List.Perm.Basic

/-! Fallible passes over a list. The first failure ends the pass. -/

namespace SecureHome.Lib

variable {Error Item Value : Type*} {pass : Item → Except Error Value} {items : List Item}

theorem bind_ok {Value Other : Type*} {first : Except Error Value} {next : Value → Except Error Other}
    {result : Other} : first.bind next = .ok result ↔ ∃ value, first = .ok value ∧ next value = .ok result := by
  cases first with
  | error error => simp [Except.bind]
  | ok value => simp [Except.bind]

theorem then_ok {Error Value Other : Type} {first : Except Error Value} {next : Value → Except Error Other} {result : Other} :
    first >>= next = .ok result ↔ ∃ value, first = .ok value ∧ next value = .ok result := bind_ok

theorem map_ok {Other : Type*} {first : Except Error Value} {convert : Value → Other} {result : Other} :
    first.map convert = .ok result ↔ ∃ value, first = .ok value ∧ convert value = result := by
  cases first <;> simp [Except.map]

theorem mapError_ok {Other : Type*} {first : Except Error Value} {convert : Error → Other} {value : Value} :
    first.mapError convert = .ok value ↔ first = .ok value := by
  cases first <;> simp [Except.mapError]

theorem mapM_ok {values : List Value} :
    items.mapM pass = .ok values ↔ List.Forall₂ (fun item value => pass item = .ok value) items values := by
  induction items generalizing values with
  | nil =>
    rw [List.mapM_nil]
    refine ⟨fun ended => ?_, fun paired => ?_⟩
    · cases ended
      exact .nil
    · cases paired
      rfl
  | cons item rest ih =>
    rw [List.mapM_cons]
    refine ⟨fun ended => ?_, fun paired => ?_⟩
    · cases passed : pass item with
      | error error => rw [passed] at ended; cases ended
      | ok value =>
        rw [passed] at ended
        cases others : rest.mapM pass with
        | error error =>
          change (rest.mapM pass >>= fun values => pure (value :: values)) = _ at ended
          rw [others] at ended
          cases ended
        | ok after =>
          change (rest.mapM pass >>= fun values => pure (value :: values)) = _ at ended
          rw [others] at ended
          cases ended
          exact .cons passed (ih.mp others)
    · cases paired with
      | cons passed later =>
        rw [passed]
        change (rest.mapM pass >>= fun values => pure (_ :: values)) = _
        rw [ih.mpr later]
        rfl

/-- A pass ends exactly when it takes every item. -/
theorem mapM_isOk : (∃ values, items.mapM pass = .ok values) ↔ ∀ item ∈ items, ∃ value, pass item = .ok value := by
  refine ⟨fun ended => ?_, fun takes => ?_⟩
  · obtain ⟨values, ended⟩ := ended
    replace ended := mapM_ok.mp ended
    induction ended with
    | nil => exact fun _ absent => absurd absent List.not_mem_nil
    | cons passed _ ih => exact List.forall_mem_cons.mpr ⟨⟨_, passed⟩, ih⟩
  · induction items with
    | nil => exact ⟨[], rfl⟩
    | cons item rest ih =>
      obtain ⟨value, passed⟩ := takes item List.mem_cons_self
      obtain ⟨values, ended⟩ := ih fun other later => takes other (List.mem_cons_of_mem item later)
      exact ⟨value :: values, mapM_ok.mpr (.cons passed (mapM_ok.mp ended))⟩

theorem mapM_mem {values : List Value} (ended : items.mapM pass = .ok values) (value : Value) :
    value ∈ values ↔ ∃ item ∈ items, pass item = .ok value := by
  replace ended := mapM_ok.mp ended
  induction ended with
  | nil => simp
  | cons passed _ ih => simp [ih, passed, eq_comm]

/-- A pass that ends computed a map. -/
theorem mapM_map {values : List Value} {compute : Item → Value} (ended : items.mapM pass = .ok values)
    (computes : ∀ item ∈ items, ∀ value, pass item = .ok value → value = compute item) : values = items.map compute := by
  replace ended := mapM_ok.mp ended
  induction ended with
  | nil => rfl
  | cons passed _ ih =>
    rw [List.map_cons, computes _ List.mem_cons_self _ passed, ih fun other later => computes other (List.mem_cons_of_mem _ later)]

/-- A pass over the same items in another order computes the same values in another. -/
theorem mapM_perm {others : List Item} {values : List Value} (moved : items.Perm others) (ended : items.mapM pass = .ok values) :
    ∃ values', others.mapM pass = .ok values' ∧ values.Perm values' := by
  obtain ⟨values', paired, same⟩ := List.perm_comp_forall₂ moved.symm (mapM_ok.mp ended)
  exact ⟨values', mapM_ok.mpr paired, same.symm⟩

end SecureHome.Lib
