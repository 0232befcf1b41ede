import Mathlib.Data.List.Basic
import Mathlib.Logic.Relation

/-! Executions of a deterministic machine under a schedule of actions. An action
that does not apply leaves the state alone, so every list of actions is an
execution and every interleaving is one list. -/

namespace SecureHome.Lib

variable {State Action : Type*} (step : State → Action → State)

/-- The state a schedule leads to. -/
def after (start : State) (actions : List Action) : State :=
  actions.foldl step start

@[simp] theorem after_nil (start : State) : after step start [] = start := rfl

@[simp] theorem after_cons (start : State) (action : Action) (rest : List Action) :
    after step start (action :: rest) = after step (step start action) rest := rfl

theorem after_append (start : State) (first rest : List Action) :
    after step start (first ++ rest) = after step (after step start first) rest := by
  simp [after]

theorem after_concat (start : State) (actions : List Action) (last : Action) :
    after step start (actions ++ [last]) = step (after step start actions) last := by
  simp [after]

/-- Every action of the schedule is allowed in the state it meets. -/
def Along (allowed : State → Action → Prop) : State → List Action → Prop
  | _, [] => True
  | state, action :: rest => allowed state action ∧ Along allowed (step state action) rest

instance {allowed : State → Action → Prop} [∀ state action, Decidable (allowed state action)] :
    ∀ (start : State) (actions : List Action), Decidable (Along step allowed start actions)
  | _, [] => inferInstanceAs (Decidable True)
  | start, action :: rest =>
    have : Decidable (Along step allowed (step start action) rest) := instDecidableAlong _ _
    inferInstanceAs (Decidable (_ ∧ _))

variable {step}

theorem Along.append {allowed : State → Action → Prop} {start : State} {first rest : List Action}
    (along : Along step allowed start (first ++ rest)) :
    Along step allowed start first ∧ Along step allowed (after step start first) rest := by
  induction first generalizing start with
  | nil => exact ⟨trivial, along⟩
  | cons action first ih =>
    obtain ⟨allowed, along⟩ := along
    exact ⟨⟨allowed, (ih along).1⟩, (ih along).2⟩

theorem Along.concat {allowed : State → Action → Prop} {start : State} {actions : List Action} {last : Action}
    (along : Along step allowed start actions) (granted : allowed (after step start actions) last) :
    Along step allowed start (actions ++ [last]) := by
  induction actions generalizing start with
  | nil => exact ⟨granted, trivial⟩
  | cons action actions ih => exact ⟨along.1, ih along.2 granted⟩

/-- Under an invariant, what allows every action of a schedule may be weakened. -/
theorem Along.weaken {first second : State → Action → Prop} (kept : State → Prop)
    (preserved : ∀ state action, kept state → kept (step state action))
    (implies : ∀ state action, kept state → first state action → second state action)
    {start : State} (initial : kept start) {actions : List Action} (along : Along step first start actions) :
    Along step second start actions := by
  induction actions generalizing start with
  | nil => trivial
  | cons action actions ih =>
    exact ⟨implies start action initial along.1, ih (preserved start action initial) along.2⟩

/-- What every allowed action keeps holds wherever an allowed schedule leads. -/
theorem invariant_along {allowed : State → Action → Prop} (kept : State → Prop)
    (preserved : ∀ state action, kept state → allowed state action → kept (step state action))
    {start : State} (initial : kept start) {actions : List Action}
    (along : Along step allowed start actions) : kept (after step start actions) := by
  induction actions generalizing start with
  | nil => exact initial
  | cons action actions ih => exact ih (preserved start action initial along.1) along.2

/-- What every action keeps holds in every reachable state. -/
theorem invariant_after (kept : State → Prop)
    (preserved : ∀ state action, kept state → kept (step state action))
    {start : State} (initial : kept start) (actions : List Action) :
    kept (after step start actions) := by
  induction actions generalizing start with
  | nil => exact initial
  | cons action actions ih => exact ih (preserved start action initial)

/-- A preorder that every action respects, given an invariant, relates the two
ends of every schedule. -/
theorem growth_after (kept : State → Prop) (grows : State → State → Prop)
    (refl : ∀ state, grows state state)
    (trans : ∀ {first middle last}, grows first middle → grows middle last → grows first last)
    (preserved : ∀ state action, kept state → kept (step state action))
    (growth : ∀ state action, kept state → grows state (step state action))
    {start : State} (initial : kept start) (actions : List Action) :
    grows start (after step start actions) := by
  induction actions generalizing start with
  | nil => exact refl start
  | cons action actions ih =>
    exact trans (growth start action initial) (ih (preserved start action initial))

end SecureHome.Lib
