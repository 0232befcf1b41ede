import Mathlib.Logic.Relation

/-! Programs over a state that throw and keep what they wrote when they do. A
program is specified by the acts its effects decompose into and by what holds at
either of its two ends. -/

namespace SecureHome.Lib
open Relation

variable {State Failure Value Result : Type}

/-- Where a result is reached from `start` by acts, and what it says at its end. -/
def Ends (act : State → State → Prop) (start : State) (post : Value → State → Prop) (fail : Failure → State → Prop) :
    EStateM.Result Failure State Value → Prop
  | .ok value last => ReflTransGen act start last ∧ post value last
  | .error failure last => ReflTransGen act start last ∧ fail failure last

/-- From `start`, the program's effects are acts one after another, and it ends as
`post` says when it returns and as `fail` says when it throws. -/
def Runs (act : State → State → Prop) (program : EStateM Failure State Value) (start : State)
    (post : Value → State → Prop) (fail : Failure → State → Prop) : Prop :=
  Ends act start post fail (program start)

/-- The state at either end. -/
def finalState : EStateM.Result Failure State Value → State
  | .ok _ state => state
  | .error _ state => state

variable {act : State → State → Prop} {start : State} {post : Value → State → Prop}
  {fail : Failure → State → Prop}

theorem Ends.reached {result : EStateM.Result Failure State Value} (ends : Ends act start post fail result) :
    ReflTransGen act start (finalState result) := by
  cases result <;> exact ends.1

/-- What a longer way leads to, read from further back. -/
theorem Ends.after {middle : State} {result : EStateM.Result Failure State Value}
    (reached : ReflTransGen act start middle) (ends : Ends act middle post fail result) :
    Ends act start post fail result := by
  cases result <;> exact ⟨reached.trans ends.1, ends.2⟩

section Results

theorem tryCatch_ok {body : EStateM Failure State Value} {handler : Failure → EStateM Failure State Value} {value : Value}
    {last : State} (ended : body start = .ok value last) : (tryCatch body handler) start = .ok value last := by
  change EStateM.tryCatch body handler start = _
  delta EStateM.tryCatch
  rw [ended]

theorem tryCatch_error {body : EStateM Failure State Value} {handler : Failure → EStateM Failure State Value} {failure : Failure}
    {last : State} (ended : body start = .error failure last) : (tryCatch body handler) start = handler failure last := by
  change EStateM.tryCatch body handler start = _
  delta EStateM.tryCatch
  rw [ended]
  rfl

theorem get_ok : (get : EStateM Failure State State) start = .ok start start := rfl

theorem modifyGet_ok (change : State → Value × State) :
    (modifyGet change : EStateM Failure State Value) start = .ok (change start).1 (change start).2 := rfl

end Results

namespace Runs

theorem pure {value : Value} (holds : post value start) :
    Runs act (Pure.pure value : EStateM Failure State Value) start post fail :=
  ⟨.refl, holds⟩

theorem throw {failure : Failure} (holds : fail failure start) :
    Runs act (MonadExcept.throw failure : EStateM Failure State Value) start post fail :=
  ⟨.refl, holds⟩

theorem bind {program : EStateM Failure State Value} {next : Value → EStateM Failure State Result}
    {mid : Value → State → Prop} {final : Result → State → Prop}
    (first : Runs act program start mid fail)
    (rest : ∀ value state, ReflTransGen act start state → mid value state → Runs act (next value) state final fail) :
    Runs act (program >>= next) start final fail := by
  unfold Runs at first ⊢
  simp only [Bind.bind, EStateM.bind]
  cases ended : program start with
  | error failure state => rw [ended] at first; exact ⟨first.1, first.2⟩
  | ok value state =>
    rw [ended] at first
    exact (rest value state first.1 first.2).after first.1

/-- A sequence by way of what is known between its two parts. -/
theorem midway (mid : Value → State → Prop) {program : EStateM Failure State Value}
    {next : Value → EStateM Failure State Result} {final : Result → State → Prop}
    (first : Runs act program start mid fail)
    (rest : ∀ value state, ReflTransGen act start state → mid value state → Runs act (next value) state final fail) :
    Runs act (program >>= next) start final fail :=
  first.bind rest

/-- A first part whose effect is an act only together with what follows it. -/
theorem compound {program : EStateM Failure State Value} {next : Value → EStateM Failure State Result}
    {steps : State → State → Prop} {mid : Value → State → Prop} {caught : Failure → State → Prop}
    {final : Result → State → Prop} (first : Runs steps program start mid caught)
    (returned : ∀ value state, mid value state → Ends act start final fail (next value state))
    (thrown : ∀ failure state, caught failure state → ReflTransGen act start state ∧ fail failure state) :
    Runs act (program >>= next) start final fail := by
  unfold Runs at first ⊢
  simp only [Bind.bind, EStateM.bind]
  cases ended : program start with
  | error failure state => rw [ended] at first; exact thrown failure state first.2
  | ok value state => rw [ended] at first; exact returned value state first.2

/-- Reading the state is no act. -/
theorem get {next : State → EStateM Failure State Value}
    (rest : Runs act (next start) start post fail) :
    Runs act (MonadState.get >>= next) start post fail :=
  rest

/-- Acts that compose to one change of the state. -/
theorem change {change : State → State} {final : Unit → State → Prop} (taken : ReflTransGen act start (change start))
    (holds : final () (change start)) :
    Runs act (modify change : EStateM Failure State Unit) start final fail :=
  ⟨taken, holds⟩

theorem modify {change : State → State} {final : Unit → State → Prop} (taken : act start (change start))
    (holds : final () (change start)) :
    Runs act (modify change : EStateM Failure State Unit) start final fail :=
  Runs.change (.single taken) holds

theorem modifyGet {change : State → Value × State} {final : Value → State → Prop}
    (taken : ReflTransGen act start (change start).2) (holds : final (change start).1 (change start).2) :
    Runs act (MonadStateOf.modifyGet change : EStateM Failure State Value) start final fail :=
  ⟨taken, holds⟩

theorem weaken {weaker : Value → State → Prop} {looser : Failure → State → Prop}
    {program : EStateM Failure State Value} (runs : Runs act program start post fail)
    (returns : ∀ value state, ReflTransGen act start state → post value state → weaker value state)
    (throws : ∀ failure state, ReflTransGen act start state → fail failure state → looser failure state) :
    Runs act program start weaker looser := by
  unfold Runs at runs ⊢
  cases ended : program start with
  | ok value state => rw [ended] at runs; exact ⟨runs.1, returns value state runs.1 runs.2⟩
  | error failure state => rw [ended] at runs; exact ⟨runs.1, throws failure state runs.1 runs.2⟩

/-- The same end, told less of how it throws. -/
theorem loosen {looser : Failure → State → Prop} {program : EStateM Failure State Value}
    (runs : Runs act program start post fail) (throws : ∀ failure state, fail failure state → looser failure state) :
    Runs act program start post looser :=
  runs.weaken (fun _ _ _ held => held) fun failure state _ held => throws failure state held

/-- A program that never throws does what any caller asks of a throw. -/
theorem certain {program : EStateM Failure State Value} (runs : Runs act program start post fun _ _ => False) :
    Runs act program start post fail :=
  runs.loosen fun _ _ never => never.elim

/-- Acts of one kind, each made of acts of another. -/
theorem mono {other : State → State → Prop} {program : EStateM Failure State Value}
    (runs : Runs act program start post fail) (within : ∀ before after, act before after → ReflTransGen other before after) :
    Runs other program start post fail := by
  have lifted {last : State} (reached : ReflTransGen act start last) : ReflTransGen other start last := by
    induction reached with
    | refl => exact .refl
    | tail _ taken ih => exact ih.trans (within _ _ taken)
  unfold Runs at runs ⊢
  cases ended : program start <;> rw [ended] at runs <;> exact ⟨lifted runs.1, runs.2⟩

/-- The acts taken, kept as part of what holds at either end. -/
theorem traced {program : EStateM Failure State Value} (runs : Runs act program start post fail) :
    Runs (fun _ _ => True) program start (fun value last => ReflTransGen act start last ∧ post value last)
      fun failure last => ReflTransGen act start last ∧ fail failure last :=
  (runs.weaken (fun _ _ reached held => ⟨reached, held⟩) fun _ _ reached held => ⟨reached, held⟩).mono
    fun _ _ _ => .single trivial

/-- Acts read off the two ends. -/
theorem via {other : State → State → Prop} {program : EStateM Failure State Value}
    (runs : Runs act program start post fail) (returned : ∀ value state, post value state → ReflTransGen other start state)
    (thrown : ∀ failure state, fail failure state → ReflTransGen other start state) :
    Runs other program start post fail := by
  unfold Runs at runs ⊢
  cases ended : program start with
  | ok value state => rw [ended] at runs; exact ⟨returned value state runs.2, runs.2⟩
  | error failure state => rw [ended] at runs; exact ⟨thrown failure state runs.2, runs.2⟩

theorem map {program : EStateM Failure State Value} {change : Value → Result} {final : Result → State → Prop}
    (runs : Runs act program start (fun value => final (change value)) fail) :
    Runs act (change <$> program) start final fail := by
  unfold Runs at runs ⊢
  simp only [Functor.map, EStateM.map]
  cases ended : program start <;> rw [ended] at runs <;> exact ⟨runs.1, runs.2⟩

/-- A handler takes over where the body threw, with everything the body wrote. -/
theorem recovers {body : EStateM Failure State Value} {handler : Failure → EStateM Failure State Value}
    {caught : Failure → State → Prop} (runs : Runs act body start post caught)
    (handles : ∀ failure state, ReflTransGen act start state → caught failure state →
      Runs act (handler failure) state post fail) :
    Runs act (tryCatch body handler) start post fail := by
  unfold Runs at runs ⊢
  cases ended : body start with
  | ok value state =>
    rw [ended] at runs
    rw [tryCatch_ok ended]
    exact ⟨runs.1, runs.2⟩
  | error failure state =>
    rw [ended] at runs
    rw [tryCatch_error ended]
    exact (handles failure state runs.1 runs.2).after runs.1

/-- A handler entered on what is known wherever the body throws. -/
theorem rescued (caught : Failure → State → Prop) {body : EStateM Failure State Value}
    {handler : Failure → EStateM Failure State Value} (runs : Runs act body start post caught)
    (handles : ∀ failure state, ReflTransGen act start state → caught failure state →
      Runs act (handler failure) state post fail) :
    Runs act (tryCatch body handler) start post fail :=
  runs.recovers handles

/-- What comes last runs at both ends; unless it throws itself, the body's own end stands. -/
theorem concludes (mid : Value → State → Prop) (caught : Failure → State → Prop)
    {body : EStateM Failure State Value} {cleanup : EStateM Failure State Unit} (runs : Runs act body start mid caught)
    (returned : ∀ value state, ReflTransGen act start state → mid value state →
      Runs act cleanup state (fun _ => post value) fail)
    (thrown : ∀ failure state, ReflTransGen act start state → caught failure state →
      Runs act cleanup state (fun _ => fail failure) fail) :
    Runs act (tryFinally body cleanup) start post fail := by
  unfold Runs at runs ⊢
  simp only [tryFinally, tryFinally', Functor.map, EStateM.map]
  cases ended : body start with
  | ok value state =>
    rw [ended] at runs
    have onward := (returned value state runs.1 runs.2).after runs.1
    cases finished : cleanup state with
    | ok _ final => rw [finished] at onward; simp only [finished]; exact ⟨onward.1, onward.2⟩
    | error failure final => rw [finished] at onward; simp only [finished]; exact ⟨onward.1, onward.2⟩
  | error failure state =>
    rw [ended] at runs
    have onward := (thrown failure state runs.1 runs.2).after runs.1
    cases finished : cleanup state with
    | ok _ final => rw [finished] at onward; simp only [finished]; exact ⟨onward.1, onward.2⟩
    | error failure final => rw [finished] at onward; simp only [finished]; exact ⟨onward.1, onward.2⟩

/-- What one account of a program says at its ends beside another. -/
theorem both {other : State → State → Prop} {beside : Value → State → Prop} {failing : Failure → State → Prop}
    {program : EStateM Failure State Value} (runs : Runs act program start post fail)
    (again : Runs other program start beside failing) :
    Runs act program start (fun value last => post value last ∧ ReflTransGen other start last ∧ beside value last)
      fun failure last => fail failure last ∧ ReflTransGen other start last ∧ failing failure last := by
  unfold Runs at runs again ⊢
  cases ended : program start <;> rw [ended] at runs again <;> exact ⟨runs.1, runs.2, again⟩

end Runs

/-- Wherever it starts and however it ends, the program's effects are acts. -/
def Takes (act : State → State → Prop) (program : EStateM Failure State Value) : Prop :=
  ∀ start, Runs act program start (fun _ _ => True) fun _ _ => True

namespace Takes

theorem pure {value : Value} : Takes act (Pure.pure value : EStateM Failure State Value) := fun _ => Runs.pure trivial

theorem throw {failure : Failure} : Takes act (MonadExcept.throw failure : EStateM Failure State Value) :=
  fun _ => Runs.throw trivial

theorem bind {program : EStateM Failure State Value} {next : Value → EStateM Failure State Result}
    (takes : Takes act program) (rest : ∀ value, Takes act (next value)) : Takes act (program >>= next) :=
  fun start => (takes start).bind fun value state _ _ => rest value state

theorem get {next : State → EStateM Failure State Value} (rest : ∀ state, Takes act (next state)) :
    Takes act (MonadState.get >>= next) :=
  fun start => Runs.get (rest start start)

theorem map {program : EStateM Failure State Value} {change : Value → Result} (takes : Takes act program) :
    Takes act (change <$> program) :=
  fun start => Runs.map (takes start)

theorem modify {change : State → State} (taken : ∀ state, act state (change state)) :
    Takes act (modify change : EStateM Failure State Unit) :=
  fun start => Runs.modify (taken start) trivial

theorem modifyGet {change : State → Value × State} (taken : ∀ state, act state (change state).2) :
    Takes act (MonadStateOf.modifyGet change : EStateM Failure State Value) :=
  fun start => Runs.modifyGet (.single (taken start)) trivial

theorem recovers {body : EStateM Failure State Value} {handler : Failure → EStateM Failure State Value}
    (takes : Takes act body) (handles : ∀ failure, Takes act (handler failure)) : Takes act (tryCatch body handler) :=
  fun start => (takes start).recovers fun failure state _ _ => handles failure state

theorem concludes {body : EStateM Failure State Value} {cleanup : EStateM Failure State Unit} (takes : Takes act body)
    (cleans : Takes act cleanup) : Takes act (tryFinally body cleanup) :=
  fun start => (takes start).concludes (fun _ _ => True) (fun _ _ => True) (fun _ state _ _ => cleans state)
    fun _ state _ _ => cleans state

theorem mono {other : State → State → Prop} {program : EStateM Failure State Value} (takes : Takes act program)
    (within : ∀ before after, act before after → ReflTransGen other before after) : Takes other program :=
  fun start => (takes start).mono within

/-- Acts that compose to one are one at either end. -/
theorem spans {program : EStateM Failure State Value} (takes : Takes act program) (refl : ∀ state, act state state)
    (trans : ∀ {before middle after}, act before middle → act middle after → act before after) :
    Runs (fun _ _ => True) program start (fun _ last => act start last) fun _ last => act start last := by
  have whole {last : State} (reached : ReflTransGen act start last) : act start last := by
    induction reached with
    | refl => exact refl start
    | tail _ step ih => exact trans ih step
  exact (takes start).traced.weaken (fun _ _ _ held => whole held.1) fun _ _ _ held => whole held.1

end Takes

end SecureHome.Lib
