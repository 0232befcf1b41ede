import SecureHome.Proofs.Footprints
import SecureHome.Proofs.RunEnds

/-! The walk as a rule: what each phase hands on, what a walk can stop at, and what
therefore holds wherever a run ends. -/

namespace SecureHome.Orchestration
open Relation Lib Lifecycle Ports RunState Contracts Core Adapters

variable {World Value : Type} {outside : Surroundings World} {env : RunEnvironment World} {start : Attempt World}

/-- The calls that keep a run owned, journaled and let go of. None is an effect of a phase. -/
def Housekeeping : Call → Prop
  | .claim .. | .abandon .. | .renew .. | .release .. | .append .. | .write .. | .interrupt .. | .close ..
  | .discard .. => True
  | _ => False

theorem Closing.housekeeping {seen : Observations} {call : Call} (closing : Closing seen (fun _ => False) call) :
    Housekeeping call := by
  cases call <;> first | trivial | exact closing.1

theorem Unwalked.within {happening : Happening} (unwalked : Unwalked happening) : Within Housekeeping happening := by
  have about {call : Call} (claims : aboutClaim call = true) : Housekeeping call := by
    cases call <;> first | exact trivial | cases claims
  cases happening with
  | issued call lost ending => exact about unwalked.2
  | answered call answer => exact about unwalked
  | barred | entered | gated | incomplete => trivial

/-- What passes between two phases: housekeeping, on a scope nothing else disturbs. -/
structure Ticks (before after : Attempt World) : Prop where
  keeps : Keeps Housekeeping before after
  undisturbed : Undisturbed before.scope after.scope

/-- What a walk stopped at: where it halted, or anywhere else. -/
def Stopped (safe halted : Attempt World → Prop) : WalkOutcome → Attempt World → Prop
  | .halted _ _, state => halted state
  | _, state => safe state

/-- What a phase hands on, if it earned its transition. -/
def Yields {Next : Type} (safe : Attempt World → Prop) (earned : Next → Attempt World → Prop) :
    PhaseOutcome Next → Attempt World → Prop
  | .earned _ next, state => earned next state
  | _, state => safe state

/-- A property of every place the procedure ends at. -/
abbrev Keeping (safe : Attempt World → Prop) (procedure : Procedure World Value) (start : Attempt World) : Prop :=
  Runs (fun _ _ => True) procedure start (fun _ => safe) fun _ => safe

section Ticking

theorem flushJournal_ticks (boundary : Boundary) :
    Runs (fun _ _ => True) (flushJournal outside boundary) start (fun _ last => Ticks start last)
      fun _ last => Ticks start last := by
  have takes : Takes (Keeps Housekeeping) (flushJournal outside boundary) :=
    flushJournal_takes (fun _ _ _ => trivial) boundary
  exact ((takes start).traced.both (flushJournal_runs boundary)).weaken
    (fun _ _ _ held => ⟨Keeps.reached held.1.1, quiet_undisturbed held.2.1⟩)
    fun _ _ _ held => ⟨Keeps.reached held.1.1, quiet_undisturbed held.2.1⟩

theorem beforePhase_ticks (phase : String) :
    Runs (fun _ _ => True) (beforePhase env phase) start (fun _ last => Ticks start last)
      fun _ last => Ticks start last := by
  have still (state : Attempt World) : Ticks state state := ⟨Keeps.refl, Undisturbed.refl⟩
  refine Runs.get ?_
  dsimp only
  split
  · exact Runs.pure (still start)
  · have takes (fence : RunFence) : Takes (Keeps Housekeeping) (cross env.outside env.ports (.renew fence)) :=
      cross_takes env.ports trivial
    refine Runs.bind (((takes _ start).traced.both (cross_ends env.ports _)).weaken
      (fun _ _ _ held => (⟨Keeps.reached held.1.1, by rw [held.2.2.1]; exact Undisturbed.refl⟩ : Ticks start _))
      fun _ _ _ held => ⟨Keeps.reached held.1.1, by rw [held.2.2.1]; exact Undisturbed.refl⟩) fun renewed _ _ ticks => ?_
    split
    · exact Runs.pure ticks
    · exact Runs.pure ticks

/-- Taking a transition is one step of the machine, at an instant read first. -/
theorem advance_ends (kind : TransitionKind) (cause : String) :
    Runs (fun _ _ => True) (advance outside kind cause) start
      (fun result state => ∃ instant ready, Passes outside start ready ∧
        ready.advance kind cause instant = (result, state))
      fun _ _ => False := by
  refine Runs.get <| Runs.bind (((safeNow_idles _).runs fun _ => trivial).loosen fun _ _ thrown => thrown.1)
    fun instant ready _ passed => ?_
  exact Runs.modifyGet (.single trivial) ⟨instant, ready, passed, rfl⟩

end Ticking

section Walk

variable {safe halted : Attempt World → Prop}
  (spared : ∀ before after : Attempt World, safe before → Keeps Housekeeping before after → safe after)
include spared

/-- One phase of the walk, and then the rest of it. -/
theorem walkPhases_stops {phase : Phase World} {rest : List (Phase World)} (needs earned next : Attempt World → Prop)
    (stable : ∀ before after, needs before → Ticks before after → needs after)
    (owed : ∀ state, needs state → safe state) (needed : needs start)
    (runs : ∀ state, needs state →
      Runs (fun _ _ => True) phase.run state (Yields safe fun _ => earned) fun _ => safe)
    (earns : ∀ before ready after cause instant result, earned before → Passes env.outside before ready →
      ready.advance phase.earns cause instant = (result, after) →
      safe after ∧ match result with
        | .advanced _ _ => ∀ last, Ticks after last → next last
        | .rejected _ _ => ∀ last, Ticks after last → halted last)
    (onward : ∀ state, next state →
      Runs (fun _ _ => True) (walkPhases env rest) state (Stopped safe halted) fun _ => safe) :
    Runs (fun _ _ => True) (walkPhases env (phase :: rest)) start (Stopped safe halted) fun _ => safe := by
  refine Runs.bind ((beforePhase_ticks phase.name).weaken (fun _ _ _ ticks => stable _ _ needed ticks)
    fun _ _ _ ticks => owed _ (stable _ _ needed ticks)) fun refused state _ needed => ?_
  split
  next => exact Runs.pure (owed _ needed)
  next =>
    refine Runs.bind (runs state needed) fun outcome state _ yielded => ?_
    split
    next conclusion => exact Runs.pure yielded
    next detail =>
      have held : safe state := yielded
      refine Runs.midway (fun _ waiting => safe waiting) ?_ fun _ waiting _ held => ?_
      · refine Runs.get <| Runs.bind (((safeNow_idles _).runs fun _ => trivial).loosen fun _ _ thrown => thrown.1.elim)
          fun instant ready _ passed => ?_
        exact Runs.modify trivial (spared _ _ held (passed.keeps.trans (.still rfl rfl rfl rfl)))
      · exact Runs.bind ((flushJournal_ticks env.ports).weaken (fun _ _ _ ticks => spared _ _ held ticks.keeps)
          fun _ _ _ ticks => spared _ _ held ticks.keeps) fun _ _ _ held => Runs.pure held
    next cause _ =>
      refine Runs.bind ((advance_ends phase.earns cause).loosen fun _ _ never => never.elim)
        fun applied after _ taken => ?_
      obtain ⟨instant, ready, passed, taken⟩ := taken
      obtain ⟨held, leads⟩ := earns state ready after cause instant applied yielded passed taken
      refine Runs.bind ((flushJournal_ticks env.ports).weaken (fun _ _ _ ticks => ticks)
        fun _ _ _ ticks => spared _ _ held ticks.keeps) fun _ last _ ticks => ?_
      split
      next => exact Runs.pure (leads last ticks)
      next => exact onward last (leads last ticks)

/-- What an outcome of the walk is made into. -/
theorem concludeWalk_keeping (halts : ∀ phase rejection state, halted state →
      Keeping safe (terminateFromRejection env phase rejection) state)
    {outcome : WalkOutcome} (stopped : Stopped safe halted outcome start) :
    Keeping safe (concludeWalk env outcome) start := by
  have housekept {Value : Type} {procedure : Procedure World Value} {state : Attempt World} (held : safe state)
      (takes : Takes (Keeps (Closing {} fun _ => False)) procedure) : Keeping safe procedure state :=
    (takes.spans (fun _ => Keeps.refl) Keeps.trans).weaken
      (fun _ _ _ keeps => spared _ _ held (keeps.mono fun _ closing => closing.housekeeping))
      fun _ _ _ keeps => spared _ _ held (keeps.mono fun _ closing => closing.housekeeping)
  unfold concludeWalk
  split
  next => exact Runs.pure stopped
  next detail =>
    refine housekept stopped ((clockNow_idles _).takes.bind fun instant => ?_)
    refine (modifyScope_takes).bind fun _ => (flushJournal_takes (fun _ _ _ => trivial) env.ports).bind fun _ => ?_
    exact conclude_takes _ _
  next phase reason =>
    refine housekept stopped ((modifyScope_takes).bind fun _ => ?_)
    refine (release_takes (fun _ _ => trivial) (fun _ _ => trivial) env.ports).bind fun _ => ?_
    exact (@disarm_idles _ env.outside).takes.bind fun _ => Takes.get fun _ => .pure
  next phase rejection => exact halts phase rejection start stopped
  next => exact housekept stopped (conclude_takes _ _)

/-- What holds of a run as it begins, is kept by housekeeping, by each way of settling,
and by the walk, holds where the run ends. -/
theorem run_keeps {world : World} {conclusion : RunConclusion} {last : Attempt World}
    (ran : run env (unclaimed env.request world) = .ok conclusion last)
    (settles : ∀ reason state, safe state → Keeping safe (settleInterrupt env reason) state)
    (recovers : ∀ detail state, safe state → Keeping safe (recoverRun env detail) state)
    (halts : ∀ phase rejection state, halted state → Keeping safe (terminateFromRejection env phase rejection) state)
    (begins : ∀ generation startedAt (before : Attempt World), (∀ happening ∈ before.log, Unwalked happening) →
      safe { before with scope := beginning env.request env.controls generation startedAt })
    (walks : ∀ generation startedAt (before : Attempt World), (∀ happening ∈ before.log, Unwalked happening) →
      Runs (fun _ _ => True) (walkPhases env (phases env))
        { before with scope := beginning env.request env.controls generation startedAt } (Stopped safe halted)
        fun _ => safe) :
    (∀ happening ∈ last.log, Unwalked happening) ∨ safe last := by
  have walking (generation : Nat) (start : Attempt World) (unwalked : ∀ happening ∈ start.log, Unwalked happening) :
      Keeping safe (walkOwned env generation) start := by
    refine Runs.bind (((safeNow_idles _).runs fun _ => trivial).loosen fun _ _ thrown => thrown.1.elim)
      fun startedAt before _ passed => ?_
    have unwalked : ∀ happening ∈ before.log, Unwalked happening := fun _ listed => unwalked _ (passed.log ▸ listed)
    refine Runs.midway (fun _ (begun : Attempt World) => begun =
        { before with scope := beginning env.request env.controls generation startedAt })
      (modifyScope_runs trivial rfl) fun _ begun _ begins' => ?_
    subst begins'
    have begun := begins generation startedAt before unwalked
    split
    · exact recovers _ _ begun
    · refine Runs.recovers (Runs.midway (Sum.elim (Stopped safe halted) fun _ => safe)
        (Runs.rescued (fun _ => safe) (Runs.map (walks generation startedAt before unwalked)) fun failure state _ held => ?_)
        fun outcome state _ held => ?_) fun failure state _ held => recovers _ _ held
      · split
        · exact Runs.pure held
        · exact Runs.throw held
      · split
        · exact concludeWalk_keeping spared halts held
        · exact settles _ _ held
  have releasing (generation : Nat) (walked : Attempt World) (held : safe walked) :
      Runs (fun _ _ => True) (releaseLease env generation) walked (fun _ => safe) fun _ _ => False := by
    have takes : Takes (Keeps Housekeeping) (releaseLease env generation) :=
      swallow_takes (settlement_idles.takes.bind fun ports => (cross_takes ports trivial).bind fun _ => .pure)
    exact ((takes walked).traced.both (releaseLease_runs generation)).weaken
      (fun _ _ _ released => spared _ _ held (Keeps.reached released.1.1)) fun _ _ _ never => never.2.2
  obtain ⟨_, _, same, held⟩ := @run_rule _ env world
    (fun _ last => (∀ happening ∈ last.log, Unwalked happening) ∨ safe last) (fun _ _ unwalked => .inl unwalked)
    fun generation start unwalked => by
      have walked := ((walking generation start unwalked).both (walkOwned_runs generation unwalked)).weaken
        (fun _ _ _ held => held.1) fun _ _ _ never => never.2.2
      refine Runs.concludes _ _ walked (fun conclusion walked _ held => ?_) fun _ _ _ never => never.elim
      exact (releasing generation walked held).weaken (fun _ _ _ held => .inr held) fun _ _ _ never => never
  rw [ran] at same
  cases same
  exact held

end Walk

end SecureHome.Orchestration
