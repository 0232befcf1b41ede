import SecureHome.Proofs.GuardedCalls
import SecureHome.Proofs.MachineHistory

/-! What a scope's own procedures do: landing the journal, taking a terminal
transition, letting go. Each keeps what the next decision reads. -/

namespace SecureHome.Orchestration
open Relation Lib Lifecycle Ports RunState Contracts Core Adapters

variable {World Value : Type} {outside : Surroundings World}

/-- What quiet acts leave of a scope: everything but the outbox, the machine's
journal counters, the running evidence, and the knowledge of a loss. -/
structure Undisturbed (before after : RunScope) : Prop where
  fence : after.fence = before.fence
  machine : after.machine = { before.machine with
    journaledTransitions := after.machine.journaledTransitions
    journaledRejections := after.machine.journaledRejections }
  session : after.session = before.session
  workspace : after.workspace = before.workspace
  sessionAttempt : after.sessionAttempt = before.sessionAttempt
  workspaceAttempt : after.workspaceAttempt = before.workspaceAttempt
  held : after.held = before.held
  established : after.established = before.established
  recorded : after.recorded = before.recorded
  earlyRecord : after.earlyRecord = before.earlyRecord
  lost : before.fenceLost.isSome = true → after.fenceLost = before.fenceLost

namespace Undisturbed

variable {before middle after : RunScope}

theorem refl : Undisturbed before before := ⟨rfl, rfl, rfl, rfl, rfl, rfl, rfl, rfl, rfl, rfl, fun _ => rfl⟩

theorem trans (first : Undisturbed before middle) (second : Undisturbed middle after) : Undisturbed before after where
  fence := second.fence.trans first.fence
  machine := by rw [second.machine, first.machine]
  session := second.session.trans first.session
  workspace := second.workspace.trans first.workspace
  sessionAttempt := second.sessionAttempt.trans first.sessionAttempt
  workspaceAttempt := second.workspaceAttempt.trans first.workspaceAttempt
  held := second.held.trans first.held
  established := second.established.trans first.established
  recorded := second.recorded.trans first.recorded
  earlyRecord := second.earlyRecord.trans first.earlyRecord
  lost known := (second.lost (by rw [first.lost known]; exact known)).trans (first.lost known)

theorem workspaceRef (undisturbed : Undisturbed before after) : after.workspaceRef = before.workspaceRef := by
  simp only [RunScope.workspaceRef, undisturbed.workspace, undisturbed.workspaceAttempt]

theorem sessionRef (undisturbed : Undisturbed before after) : after.sessionRef = before.sessionRef := by
  simp only [RunScope.sessionRef, undisturbed.session, undisturbed.sessionAttempt]

theorem state (undisturbed : Undisturbed before after) : after.machine.state = before.machine.state := by
  rw [undisturbed.machine]

theorem table (undisturbed : Undisturbed before after) : after.machine.table = before.machine.table := by
  rw [undisturbed.machine]

theorem transitionRecord (undisturbed : Undisturbed before after) :
    after.machine.transitionRecord = before.machine.transitionRecord := by
  rw [undisturbed.machine]

/-- A scope that knows of no loss knew of none before. -/
theorem owned (undisturbed : Undisturbed before after) (now : after.fenceLost = none) : before.fenceLost = none := by
  cases known : before.fenceLost with
  | none => rfl
  | some detail =>
    have kept := undisturbed.lost (by simp [known])
    rw [now, known] at kept
    cases kept

end Undisturbed

theorem Quiet.undisturbed {before after : Attempt World} (step : Quiet outside before after) :
    Undisturbed before.scope after.scope := by
  cases step with
  | traffic step => rw [step.scope]; exact Undisturbed.refl
  | drains | lands | records | gathers | captures => constructor <;> first | rfl | exact fun _ => rfl
  | loses detail =>
    refine ⟨rfl, rfl, rfl, rfl, rfl, rfl, rfl, rfl, rfl, rfl, fun known => ?_⟩
    obtain ⟨lost, known⟩ := Option.isSome_iff_exists.mp known
    simp [RunScope.loseFence, known]

theorem Quiet.logs {before after : Attempt World} (step : Quiet outside before after) : before.log <+: after.log := by
  cases step with
  | traffic step => exact step.log
  | drains | lands | records | gathers | captures | loses => exact List.prefix_rfl

section Undisturbed

variable {before after : Attempt World}

theorem quiet_undisturbed (steps : ReflTransGen (Quiet outside) before after) : Undisturbed before.scope after.scope := by
  induction steps with
  | refl => exact Undisturbed.refl
  | tail _ step ih => exact ih.trans step.undisturbed

theorem quiet_logs (steps : ReflTransGen (Quiet outside) before after) : before.log <+: after.log := by
  induction steps with
  | refl => exact List.prefix_rfl
  | tail _ step ih => exact ih.trans step.logs

theorem Passes.quiet (passed : Passes outside before after) : Quiet outside before after := .traffic (.passes passed)

theorem Passes.act (passed : Passes outside before after) : Act outside before after := .quiet passed.quiet

theorem Passes.undisturbed (passed : Passes outside before after) : Undisturbed before.scope after.scope := by
  rw [passed.scope]; exact Undisturbed.refl

theorem Quiet.act (step : Quiet outside before after) : ReflTransGen (Act outside) before after := .single (.quiet step)

theorem quiet_acts (steps : ReflTransGen (Quiet outside) before after) : ReflTransGen (Act outside) before after :=
  steps.lift id fun _ _ step => .quiet step

end Undisturbed

/-- Quiet programs are programs of acts. -/
theorem quiet_runs {procedure : Procedure World Value} {start : Attempt World} {post : Value → Attempt World → Prop}
    {fail : Failure → Attempt World → Prop} (runs : Runs (Quiet outside) procedure start post fail) :
    Runs (Act outside) procedure start (fun value last => ReflTransGen (Quiet outside) start last ∧ post value last)
      fun failure last => ReflTransGen (Quiet outside) start last ∧ fail failure last :=
  Runs.mono (runs.weaken (fun _ _ reached holds => ⟨reached, holds⟩) fun _ _ reached holds => ⟨reached, holds⟩)
    fun _ _ step => step.act

/-- An ordinary call, crossed. -/
theorem ordinary_runs {start : Attempt World} (boundary : Boundary) {call : Call}
    (allowed : ∀ ready : Attempt World, ready.scope = start.scope → Ordinary ready call) :
    Runs (Quiet outside) (cross outside boundary call) start
      (fun answer state => state.scope = start.scope ∧ .answered call answer ∈ state.log)
      fun _ state => state.scope = start.scope :=
  Runs.mono (cross_runs boundary fun ready passed => allowed ready passed.scope) fun _ _ step => .single (.traffic step)

theorem modifyScope_runs {act : Attempt World → Attempt World → Prop} {change : RunScope → RunScope}
    {start : Attempt World} {post : Unit → Attempt World → Prop} {fail : Failure → Attempt World → Prop}
    (taken : act start { start with scope := change start.scope })
    (holds : post () { start with scope := change start.scope }) :
    Runs act (modifyScope change) start post fail :=
  Runs.modify taken holds

section Journal

variable {start : Attempt World}

theorem drain_pending (scope : RunScope) : scope.drain.machine.pendingTransitions = [] := by
  simp [RunScope.drain, JournalOutbox.drainMachine, RunMachine.pendingTransitions, RunMachine.confirmJournaled,
    List.drop_eq_nil_iff]
  omega

/-- Landing the outbox: the machine stands, and a loss leaves its entry at the head. -/
theorem flushPending_runs (boundary : Boundary) (entries : Nat) (owned : start.scope.fenceLost = none) :
    Runs (Quiet outside) (flushPending outside boundary entries) start
      (fun _ state => state.scope.machine = start.scope.machine ∧
        (state.scope.fenceLost = none ∨ state.scope.outbox.pending ≠ []))
      fun _ state => state.scope.machine = start.scope.machine ∧ state.scope.fenceLost = none := by
  induction entries generalizing start with
  | zero => exact Runs.pure ⟨rfl, .inl owned⟩
  | succ entries ih =>
    refine Runs.get ?_
    split
    next => exact Runs.pure ⟨rfl, .inl owned⟩
    next entry head =>
      have allowed (ready : Attempt World) (same : ready.scope = start.scope) :
          Ordinary ready (.append start.scope.fence entry.entryId entry.fact) := by
        simp only [Ordinary, Owns, same]
        exact ⟨⟨owned, trivial⟩, head⟩
      refine Runs.bind ((ordinary_runs boundary allowed).loosen fun _ _ same =>
        ⟨by rw [same], by rw [same]; exact owned⟩) fun answer state _ heard => ?_
      obtain ⟨same, answered⟩ := heard
      split
      next =>
        refine Runs.midway (fun _ last => last.scope.machine = start.scope.machine ∧ last.scope.fenceLost = none)
          (modifyScope_runs (.lands (by rw [same]; exact head) ⟨_, answered⟩)
            ⟨by simp [RunScope.landed, same], by simp [RunScope.landed, same, owned]⟩) fun _ last _ held => ?_
        have onward := ih held.2
        rw [held.1] at onward
        exact onward
      next => exact Runs.pure ⟨by rw [same], .inl (by rw [same]; exact owned)⟩
      next detail =>
        refine modifyScope_runs (.loses detail) ⟨by simp [RunScope.loseFence, same], .inr fun empty => ?_⟩
        simp only [RunScope.loseFence, same] at empty
        rw [JournalOutbox.head, empty] at head
        cases head

/-- The journal tick: a durable outbox is an owned run's, and the machine is drained
unless the loss was known. -/
theorem flushJournal_runs (boundary : Boundary) :
    Runs (Quiet outside) (flushJournal outside boundary) start
      (fun _ state => (state.scope.fenceLost.isSome = true ∨ state.scope.machine.pendingTransitions = []) ∧
        (start.scope.fenceLost = none → state.scope.outbox.pending = [] → state.scope.fenceLost = none))
      fun _ state => start.scope.fenceLost = none ∧ state.scope.fenceLost = none := by
  refine Runs.get ?_
  split
  next lost =>
    refine Runs.pure ⟨.inl lost, fun owned => ?_⟩
    rw [owned] at lost
    cases lost
  next kept =>
    have owned : start.scope.fenceLost = none := by simpa using kept
    refine Runs.midway (fun _ state => state.scope.machine.pendingTransitions = [] ∧ state.scope.fenceLost = none)
      (modifyScope_runs (.drains owned) ⟨drain_pending _, by simpa [RunScope.drain] using owned⟩)
      fun _ drained _ held => Runs.get ?_
    refine Runs.recovers ((flushPending_runs boundary _ held.2).weaken (fun _ _ _ landed => ?_)
      fun _ _ _ stopped => stopped) fun failure state _ stopped => ?_
    · refine ⟨.inr (by rw [landed.1]; exact held.1), fun _ empty => landed.2.resolve_right (absurd empty)⟩
    · split
      · exact Runs.throw ⟨owned, stopped.2⟩
      · exact Runs.pure ⟨.inr (by rw [stopped.1]; exact held.1), fun _ _ => stopped.2⟩

end Journal

section Transitions

variable {start : Attempt World}

/-- The target of a branch that ends a run is the terminal it intends. -/
theorem Intends.target {kind : TransitionKind} {terminal state next : LifecycleState} (intends : Intends kind terminal)
    (declared : transitions state kind = some next) : next = terminal := by
  cases state <;> cases kind <;>
    simp_all [Intends, transitions, withTerminals, terminalBranches]

theorem Intends.terminated {kind : TransitionKind} {terminal : LifecycleState} (intends : Intends kind terminal) :
    isTerminal terminal = true := by
  rcases intends with branch | ⟨_, rfl⟩
  · cases kind <;> simp [terminalBranches] at branch <;> subst branch <;> rfl
  · rfl

/-- One transition asked for, where only clocks have moved. -/
theorem advance_runs (kind : TransitionKind) (cause : String)
    (owned : start.scope.fenceLost = none ∨ .gated true ∈ start.log) :
    Runs (Act outside) (advance outside kind cause) start
      (fun result state => ∃ instant ready, Passes outside start ready ∧
        state = (ready.advance kind cause instant).2 ∧ result = (ready.scope.machine.advance kind cause instant).1)
      fun _ _ => False := by
  refine Runs.get <| Runs.bind (((safeNow_idles _).runs Passes.act).loosen fun _ _ thrown => thrown.1)
    fun instant ready _ passed => ?_
  have still : ready.scope.fenceLost = none ∨ .gated true ∈ ready.log := by rw [passed.scope, passed.log]; exact owned
  exact Runs.modifyGet (.single (.advances kind cause instant still)) ⟨instant, ready, passed, rfl, rfl⟩

/-- What stands of a scope whose machine was asked for transitions. -/
structure Advanced (before after : RunScope) : Prop where
  rest : after = { before with machine := after.machine }
  table : after.machine.table = before.machine.table
  settled : isTerminal before.machine.state = true → after.machine.state = before.machine.state

namespace Advanced

variable {before middle after : RunScope}

theorem trans (first : Advanced before middle) (second : Advanced middle after) : Advanced before after where
  rest := by rw [second.rest, first.rest]
  table := second.table.trans first.table
  settled terminated := (second.settled (by rw [first.settled terminated]; exact terminated)).trans (first.settled terminated)

end Advanced

theorem Attempt.advance_scope (attempt : Attempt World) (kind : TransitionKind) (cause instant : String) :
    (attempt.advance kind cause instant).2.scope =
      { attempt.scope with machine := (attempt.scope.machine.advance kind cause instant).2 } := rfl

theorem Attempt.advanced (attempt : Attempt World) (kind : TransitionKind) (cause instant : String) :
    Advanced attempt.scope (attempt.advance kind cause instant).2.scope := by
  rw [Attempt.advance_scope]
  rcases RunMachine.advance_cases attempt.scope.machine kind cause instant with
    ⟨next, going, declared, taken⟩ | ⟨_, entry, refused⟩
  · exact ⟨rfl, by rw [taken]; rfl, fun terminated => by rw [going] at terminated; cases terminated⟩
  · exact ⟨rfl, by rw [refused], fun _ => by rw [refused]⟩

theorem Attempt.advance_log (attempt : Attempt World) (kind : TransitionKind) (cause instant : String) :
    attempt.log <+: (attempt.advance kind cause instant).2.log := by
  simp only [Attempt.advance]
  split
  · exact List.prefix_append _ _
  · exact List.prefix_rfl

/-- A branch that ends a run, asked for: the state it leads to is terminal. -/
theorem branch_runs {kind : TransitionKind} {terminal : LifecycleState} (cause : String) (intends : Intends kind terminal)
    (owned : start.scope.fenceLost = none ∨ .gated true ∈ start.log) :
    Runs (Act outside) (advance outside kind cause) start
      (fun result state => Advanced start.scope state.scope ∧ start.log <+: state.log ∧
        match result with
        | .advanced _ _ => Narrows start.scope.machine.table → isTerminal state.scope.machine.state = true
        | .rejected _ _ => state.scope.machine.state = start.scope.machine.state ∧
            (isTerminal start.scope.machine.state = true ∨
              start.scope.machine.table start.scope.machine.state kind = none))
      fun _ _ => False := by
  refine (advance_runs kind cause owned).weaken ?_ fun _ _ _ never => never
  rintro _ _ _ ⟨instant, ready, passed, rfl, rfl⟩
  refine ⟨passed.scope ▸ ready.advanced kind cause instant, passed.log ▸ ready.advance_log kind cause instant, ?_⟩
  rw [Attempt.advance_scope, ← passed.scope]
  rcases RunMachine.advance_cases ready.scope.machine kind cause instant with
    ⟨next, _, declared, taken⟩ | ⟨refusal, entry, refused⟩
  · rw [taken]
    intro narrows
    change isTerminal next = true
    rw [show next = terminal from intends.target (narrows _ _ _ declared)]
    exact intends.terminated
  · rw [refused]
    exact ⟨rfl, refusal⟩

/-- The owner of a terminal transition: a terminal state is reached, unless the
table grants none. -/
theorem reachTerminal_runs {kind : TransitionKind} {terminal : LifecycleState} (why : String) (intends : Intends kind terminal)
    (owned : start.scope.fenceLost = none ∨ .gated true ∈ start.log) :
    Runs (Act outside) (reachTerminal outside kind why) start
      (fun _ state => Advanced start.scope state.scope ∧ Terminated state.scope ∧ start.log <+: state.log)
      fun _ _ => False := by
  refine Runs.get <| Runs.bind (branch_runs why intends owned) fun result state _ ended => ?_
  obtain ⟨first, onward, asked⟩ := ended
  split
  next => exact Runs.pure ⟨first, fun narrows => .inl (asked (first.table ▸ narrows)), onward⟩
  next =>
    split
    next same =>
      exact Runs.get (Runs.pure ⟨first, fun _ => by rw [asked.1, first.table, ← same]; exact asked.2, onward⟩)
    next =>
      have still : state.scope.fenceLost = none ∨ .gated true ∈ state.log :=
        owned.imp (fun none => by rw [first.rest]; exact none) fun gated => onward.subset gated
      refine Runs.bind (branch_runs _ (.inl rfl) still) fun result last _ ended => ?_
      obtain ⟨second, beyond, asked⟩ := ended
      split
      next => exact Runs.pure ⟨first.trans second, fun narrows => .inl (asked (second.table ▸ narrows)), onward.trans beyond⟩
      next =>
        refine Runs.get (Runs.pure ⟨first.trans second, fun _ => ?_, onward.trans beyond⟩)
        rw [asked.1, second.table]
        exact asked.2

end Transitions

section Release

variable {start : Attempt World}

theorem Attended.mono {call : Call} {log : List Happening} (attended : Attended call log) (more : List Happening) :
    Attended call (log ++ more) :=
  attended.imp (fun barred => List.mem_append_left _ barred) fun ⟨lost, ending, issued⟩ =>
    ⟨lost, ending, List.mem_append_left _ issued⟩

/-- Every call of a sweep is made or barred, and no call's end stops another. -/
theorem sweep_runs (boundary : Boundary) (calls : List Call) {permitted : Attempt World → Call → Prop}
    (allowed : ∀ call ∈ calls, ∀ ready, permitted ready call) :
    Runs (Traffic outside permitted) (sweep outside boundary calls) start
      (fun _ state => ∃ more, state.log = start.log ++ more ∧ ∀ call ∈ calls, Attended call more)
      fun _ _ => False := by
  induction calls generalizing start with
  | nil => exact Runs.pure ⟨[], by simp, fun _ absent => nomatch absent⟩
  | cons call rest ih =>
    have first : Runs (Traffic outside permitted) (launch outside boundary call) start _ _ :=
      launch_runs boundary fun ready _ => allowed call (.head _) ready
    refine Runs.midway (fun flight state => ∃ happening, state.log = start.log ++ [happening] ∧
        Attended call [happening] ∧ ∀ flown, flight = some flown → ∃ lost, happening = .issued call lost flown.ending)
      (Runs.rescued (fun _ state => state.log = start.log ++ [.barred call]) (Runs.map (first.weaken ?_ fun _ _ _ barred => barred.2)) ?_) fun flight state _ launched => ?_
    · rintro flown state _ ⟨_, made⟩
      exact ⟨_, made, .inr ⟨_, _, .head _⟩, fun _ same => by cases same; exact ⟨_, rfl⟩⟩
    · exact fun _ state _ barred => Runs.pure ⟨_, barred, .inl (.head _), fun _ same => nomatch same⟩
    · obtain ⟨happening, made, attended, flying⟩ := launched
      refine Runs.bind (ih fun other listed ready => allowed other (.tail _ listed) ready) fun _ last _ done => ?_
      obtain ⟨more, grown, others⟩ := done
      have whole (extra : List Happening) : ∀ other ∈ call :: rest, Attended other (happening :: (more ++ extra)) := by
        intro other listed
        cases listed with
        | head => exact attended.mono (more ++ extra)
        | tail _ listed =>
          exact ((others other listed).mono extra).imp (.tail _) fun ⟨lost, ending, issued⟩ => ⟨lost, ending, .tail _ issued⟩
      cases flight with
      | none => exact Runs.pure ⟨happening :: (more ++ []), by simp [grown, made], whole []⟩
      | some flown =>
        obtain ⟨lost, rfl⟩ := flying flown rfl
        have issued : ∃ lost, .issued call lost flown.ending ∈ last.log := ⟨lost, by simp [grown, made]⟩
        have awaited : Runs (Traffic outside permitted) (settle outside boundary call flown) last
            (fun _ state => last.log <+: state.log) fun _ state => last.log <+: state.log :=
          (settle_runs boundary issued).weaken (fun _ _ reached _ => Traffic.logs reached)
            fun _ _ reached _ => Traffic.logs reached
        refine (swallow_runs (Runs.bind awaited fun _ _ _ grown => Runs.pure grown)).weaken (fun _ final _ onward => ?_) fun _ _ _ never => never
        obtain ⟨extra, onward⟩ := onward
        exact ⟨_ :: (more ++ extra), by rw [← onward, grown, made]; simp, whole extra⟩

/-- Letting go: nothing is named any more, and what a run still owned was attended to. -/
theorem release_runs (boundary : Boundary) :
    Runs (Act outside) (release outside boundary) start (fun _ state => state.scope = start.scope.letGo)
      fun _ _ => False := by
  cases lost : start.scope.fenceLost with
  | some detail =>
    refine Runs.get <| Runs.midway (fun _ state => state.scope = start.scope.letGo)
      (modifyScope_runs (.alters (.letsGo (by simp [lost]))) rfl) fun _ state _ same => ?_
    rw [if_pos (by simp [lost])]
    exact Runs.pure same
  | none =>
    have swept : Runs (Traffic outside fun _ call => call ∈ start.scope.cleanup)
        (sweep outside boundary start.scope.cleanup) { start with scope := start.scope.letGo } _ _ :=
      sweep_runs boundary start.scope.cleanup fun _ listed _ => listed
    have whole : Runs (fun _ _ => True) (release outside boundary) start
        (fun _ state => ReflTransGen (Traffic outside fun _ call => call ∈ start.scope.cleanup)
          { start with scope := start.scope.letGo } state ∧
          ∃ more, state.log = start.log ++ more ∧ ∀ call ∈ start.scope.cleanup, Attended call more)
        fun _ _ => False := by
      refine Runs.get <| Runs.midway (fun _ state => state = { start with scope := start.scope.letGo })
        (modifyScope_runs trivial rfl) fun _ state _ same => ?_
      rw [if_neg (by simp [lost]), same]
      exact (swept.weaken (fun _ _ reached done => ⟨reached, done⟩) fun _ _ _ never => never).mono
        fun _ _ _ => .single trivial
    refine (whole.via (fun _ _ done => .single (.tearsDown lost done.1 done.2)) fun _ _ never => never.elim).weaken
      (fun _ state _ done => ?_) fun _ _ _ never => never
    exact (Traffic.scopes done.1).trans rfl

end Release

end SecureHome.Orchestration
