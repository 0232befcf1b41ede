import SecureHome.Proofs.Effects

/-! The walk, as acts. A phase is entered knowing of no loss, and hands on the same;
resources are asked for once, where none is held. -/

namespace SecureHome.Orchestration
open Relation Lib Lifecycle Ports RunState Contracts Core Adapters

variable {World Value : Type} {outside : Surroundings World} {env : RunEnvironment World} {start : Attempt World}

/-- The calls that may create a resource. -/
def acquires : Call → Bool
  | .provision .. | .prepare .. => true
  | _ => false

/-- Nothing has been asked for yet, and nothing is waiting. -/
structure Fresh (attempt : Attempt World) : Prop where
  owned : attempt.scope.fenceLost = none
  going : attempt.scope.held = none
  workspace : attempt.scope.workspaceRef = none
  session : attempt.scope.sessionRef = none
  unasked : ∀ call lost ending, acquires call = true → .issued call lost ending ∉ attempt.log

/-- The run goes on: no loss is known and nothing holds it. -/
structure Going (attempt : Attempt World) : Prop where
  owned : attempt.scope.fenceLost = none
  going : attempt.scope.held = none

section Frames

variable {before after : Attempt World} {permitted : Attempt World → Call → Prop}

/-- Traffic adds no issue it was not permitted. -/
theorem Traffic.issued (step : Traffic outside permitted before after) {call : Call} {lost : Bool}
    {ending : Ending (Answer call)} (listed : .issued call lost ending ∈ after.log) :
    .issued call lost ending ∈ before.log ∨ permitted before call := by
  cases step with
  | passes passed => exact .inl (by rw [← passed.log]; exact listed)
  | issues allowed =>
    simp only [Attempt.issue, List.mem_append, List.mem_singleton] at listed
    rcases listed with listed | made
    · exact .inl listed
    · cases made
      exact .inr allowed
  | bars | hears =>
    simp only [List.mem_append, List.mem_singleton] at listed
    exact .inl (listed.resolve_right fun same => by cases same)

theorem Traffic.issueds (steps : ReflTransGen (Traffic outside permitted) before after) {call : Call} {lost : Bool}
    {ending : Ending (Answer call)} (listed : .issued call lost ending ∈ after.log) :
    .issued call lost ending ∈ before.log ∨ ∃ ready, permitted ready call := by
  induction steps with
  | refl => exact .inl listed
  | tail _ step ih =>
    rcases step.issued listed with earlier | allowed
    · exact ih earlier
    · exact .inr ⟨_, allowed⟩

theorem quiet_unasked (steps : ReflTransGen (Quiet outside) before after)
    (unasked : ∀ call lost ending, acquires call = true → .issued call lost ending ∉ before.log) :
    ∀ call lost ending, acquires call = true → .issued call lost ending ∉ after.log := by
  induction steps with
  | refl => exact unasked
  | tail _ step ih =>
    intro call lost ending acquiring listed
    cases step with
    | traffic step =>
      rcases step.issued listed with earlier | allowed
      · exact ih call lost ending acquiring earlier
      · cases call <;> simp [acquires] at acquiring <;> exact allowed
    | drains | lands | loses | records | gathers | captures => exact ih call lost ending acquiring listed

theorem Fresh.quiets (fresh : Fresh before) (steps : ReflTransGen (Quiet outside) before after)
    (owned : after.scope.fenceLost = none) : Fresh after := by
  have undisturbed := quiet_undisturbed steps
  exact ⟨owned, undisturbed.held.trans fresh.going, undisturbed.workspaceRef.trans fresh.workspace,
    undisturbed.sessionRef.trans fresh.session, quiet_unasked steps fresh.unasked⟩

theorem Fresh.passes (fresh : Fresh before) (passed : Passes outside before after) : Fresh after :=
  fresh.quiets (.single passed.quiet) (by rw [passed.scope]; exact fresh.owned)

theorem Going.quiets (going : Going before) (steps : ReflTransGen (Quiet outside) before after)
    (owned : after.scope.fenceLost = none) : Going after :=
  ⟨owned, (quiet_undisturbed steps).held.trans going.going⟩

theorem Going.passes (going : Going before) (passed : Passes outside before after) : Going after :=
  ⟨by rw [passed.scope]; exact going.owned, by rw [passed.scope]; exact going.going⟩

end Frames

/-- What a phase's outcome says of the attempt: it concluded, it earned what comes
next, or it holds. -/
def Phased {Next : Type} (runId : String) (earned held : Attempt World → Prop) (outcome : PhaseOutcome Next)
    (state : Attempt World) : Prop :=
  match outcome with
  | .terminate conclusion => Concluded runId conclusion state
  | .earned _ _ => earned state
  | .hold _ => held state

/-- No loss was known where it threw. -/
abbrev Kept : Failure → Attempt World → Prop := fun _ state => state.scope.fenceLost = none

theorem Kept.still {failure : Failure} {before after : Attempt World} (same : after.scope = before.scope)
    (owned : before.scope.fenceLost = none) : Kept failure after := by
  rw [Kept, same]
  exact owned

section Phases

variable {earned held : Attempt World → Prop} {Next : Type}

theorem terminates {procedure : Procedure World RunConclusion}
    (runs : Runs (Act outside) procedure start (fun conclusion state => Concluded env.request.runId conclusion state) Kept) :
    Runs (Act outside) ((PhaseOutcome.terminate : _ → PhaseOutcome Next) <$> procedure) start
      (Phased env.request.runId earned held) Kept :=
  Runs.map runs

/-- Asking whether to stop, from a state the answer does not change. -/
theorem interrupted_runs :
    Runs (Act env.outside) (interrupted env.outside) start (fun _ state => Passes env.outside start state) Kept :=
  (interrupted_idles.runs Passes.act).loosen fun _ _ thrown => thrown.1.elim

theorem losing_runs (lost detail : String) :
    Runs (Act env.outside) (do modifyScope (·.loseFence lost); conclude env .none detail) start
      (fun conclusion state => Concluded env.request.runId conclusion state) Kept := by
  refine Runs.midway (fun _ state => state.scope.fenceLost.isSome = true) (modifyScope_runs (.quiet (.loses lost)) ?_)
    fun _ state _ known => conclude_lost detail known
  cases start.scope.fenceLost <;> simp [RunScope.loseFence]

theorem requested_runs (fresh : Fresh start) :
    Runs (Act env.outside) (requested env) start (Phased env.request.runId Fresh fun _ => False) Kept := by
  refine Runs.bind interrupted_runs fun signal polled _ passed => ?_
  have fresh := fresh.passes passed
  split
  next reason => exact terminates (terminateEarly_runs _ ⟨_, Intends.ofReason reason⟩)
  next =>
    split
    next => exact terminates (terminateEarly_runs _ EndsRun.refuse)
    next wanted _ =>
      refine Runs.bind ((quiet_runs (acquire_runs .production)).loosen fun _ _ stopped => stopped.2)
        fun acquired state _ done => ?_
      split
      next failure =>
        refine terminates (terminateEarly_runs _ ?_)
        split
        · exact EndsRun.refuse
        · exact EndsRun.operationalFault
      next result =>
        have fresh := fresh.quiets done.1 (done.2 rfl)
        split
        next => exact terminates (terminateEarly_runs _ EndsRun.refuse)
        next resolved _ =>
          refine Runs.midway (fun _ state => Fresh state) (modifyScope_runs (.quiet .captures)
            ⟨fresh.owned, fresh.going, fresh.workspace, fresh.session, fresh.unasked⟩) fun _ state _ fresh => ?_
          dsimp only
          split
          next => exact terminates (terminateEarly_runs _ EndsRun.refuse)
          next =>
            split
            next => exact terminates (terminateEarly_runs _ EndsRun.refuse)
            next principal _ =>
              refine Runs.get <| Runs.midway (fun _ state => Fresh state)
                (Runs.modify (Passes.act ⟨.refl, rfl, rfl, rfl, fun _ held => held, fun _ held => held⟩)
                  ⟨fresh.owned, fresh.going, fresh.workspace, fresh.session, fresh.unasked⟩)
                fun _ _ _ fresh => Runs.pure fresh

theorem fault_runs (authority : Authority) (seen : Observations) (detail : String) :
    Runs (Act env.outside) (fault env authority seen detail) start
      (fun conclusion state => Concluded env.request.runId conclusion state) Kept :=
  finish_runs authority seen detail (.inl rfl)

theorem profileResolved_runs (authority : Authority) (fresh : Fresh start) :
    Runs (Act env.outside) (profileResolved env authority) start (Phased env.request.runId Fresh fun _ => False) Kept := by
  refine Runs.bind (((armProfile_idles _ _).runs Passes.act).loosen fun _ _ thrown => thrown.1.elim)
    fun _ armed _ passed => Runs.bind interrupted_runs fun signal polled _ onward => ?_
  have fresh := (fresh.passes passed).passes onward
  split
  next reason => exact terminates (finish_runs _ _ _ (Intends.ofReason reason))
  next =>
    split
    next => exact terminates (finish_runs _ _ _ (.inl rfl))
    next => exact Runs.pure fresh

/-- An acquisition call, made once: its answer is on record and nothing else was made. -/
theorem acquiring_runs (boundary : Boundary) {call : Call}
    (allowed : ∀ ready : Attempt World, ready.scope = start.scope → ready.log = start.log → Acquiring ready call) :
    Runs (Act outside) (cross outside boundary call) start
      (fun answer state => state.scope = start.scope ∧ .answered call answer ∈ state.log ∧
        ∀ other lost ending, .issued other lost ending ∈ state.log → .issued other lost ending ∈ start.log ∨ other = call)
      fun _ state => state.scope = start.scope := by
  have crossed : Runs (Traffic outside fun ready other => other = call ∧ Acquiring ready other)
      (cross outside boundary call) start _ _ :=
    cross_runs boundary fun ready passed => ⟨rfl, allowed ready passed.scope passed.log⟩
  refine (crossed.weaken (fun _ _ reached heard => ⟨heard.1, heard.2, fun _ _ _ listed =>
      (Traffic.issueds reached listed).imp id fun ⟨_, same⟩ => same.1⟩) fun _ _ _ same => same).mono
    fun before after step => .single (.acquires ?_)
  cases step with
  | passes passed => exact .passes passed
  | issues allowed => exact .issues allowed.2
  | bars other => exact .bars other
  | hears issued => exact .hears issued

/-- The session half of the spend, where no session is held or asked for. -/
theorem openSession_runs (authority : Authority) (going : Going start) (free : start.scope.sessionRef = none)
    (unasked : ∀ fence sessionRef profile limits lost ending,
      .issued (.prepare fence sessionRef profile limits) lost ending ∉ start.log) :
    Runs (Act env.outside) (openSession env authority) start (Phased env.request.runId Going held) Kept := by
  refine Runs.get ?_
  dsimp only
  refine Runs.midway (fun _ state => state.scope =
      { start.scope with sessionAttempt := some (sessionAttempt env.request.runId start.scope.fence) } ∧ state.log = start.log)
    (modifyScope_runs (.alters (.asksSession _ free)) ⟨rfl, rfl⟩) fun _ asked _ asks => ?_
  obtain ⟨scope, log⟩ := asks
  have absent : start.scope.session = none := by
    cases known : start.scope.session with
    | none => rfl
    | some handle => simp [RunScope.sessionRef, known] at free
  refine Runs.bind ((acquiring_runs env.ports fun ready same still => ?_).loosen ?_) fun answer heard _ crossed => ?_
  · simp only [Acquiring, Owns, same, still, scope, log]
    exact ⟨⟨going.owned, trivial⟩, trivial, absent, unasked⟩
  · exact fun _ _ same => Kept.still same (by rw [scope]; exact going.owned)
  · obtain ⟨same, answered, _⟩ := crossed
    have attempted : heard.scope.sessionAttempt = some (sessionAttempt env.request.runId start.scope.fence) := by
      rw [same, scope]
    split
    next stale detail =>
      refine Runs.midway (fun _ _ => True) (modifyScope_runs (.alters (.lacksSession attempted answered)) trivial)
        fun _ _ _ _ => ?_
      split
      · exact terminates (losing_runs detail detail)
      · exact terminates (fault_runs authority noObservations _)
    next handle =>
      refine Runs.midway (fun _ state => Going state) (modifyScope_runs (.alters (.gainsSession attempted answered))
        ⟨by rw [same, scope]; exact going.owned, by rw [same, scope]; exact going.going⟩) fun _ gained _ going => ?_
      refine Runs.bind ((quiet_runs (ordinary_runs env.ports
        fun ready still => ?_)).loosen ?_) fun started state _ crossed => ?_
      · simpa only [Ordinary, still] using going.owned
      · exact fun _ _ stopped => Kept.still stopped.2 going.owned
      · have going := going.quiets crossed.1 (by rw [crossed.2.1]; exact going.owned)
        split
        · exact terminates (losing_runs _ _)
        · exact terminates (fault_runs authority noObservations _)
        · exact Runs.bind (((narrowProfile_idles _).runs Passes.act).loosen fun _ _ thrown => thrown.1.elim)
            fun _ _ _ passed => Runs.pure (going.passes passed)

/-- Consent, then the spend. The workspace and the session are each asked for once. -/
theorem eligible_runs (authority : Authority) (fresh : Fresh start) :
    Runs (Act env.outside) (eligible env authority) start
      (Phased env.request.runId Going fun state => state.scope.fenceLost = none) Kept := by
  refine Runs.bind interrupted_runs fun signal polled _ passed => ?_
  have fresh := fresh.passes passed
  split
  next reason => exact terminates (finish_runs _ _ _ (Intends.ofReason reason))
  next =>
    split
    next detail _ =>
      exact Runs.midway (fun _ state => state.scope.fenceLost = none) (modifyScope_runs (.alters (.waits _ detail)) fresh.owned)
        fun _ state _ owned => Runs.pure (show state.scope.fenceLost = none from owned)
    next =>
      refine Runs.get ?_
      dsimp only
      refine Runs.midway (fun _ state => state.scope =
          { polled.scope with workspaceAttempt := some (workspaceAttempt env.request.runId polled.scope.fence) } ∧ state.log = polled.log)
        (modifyScope_runs (.alters (.asksWorkspace _ fresh.workspace)) ⟨rfl, rfl⟩) fun _ asked _ asks => ?_
      obtain ⟨scope, log⟩ := asks
      have absent : polled.scope.workspace = none := by
        have free := fresh.workspace
        cases known : polled.scope.workspace with
        | none => rfl
        | some handle => simp [RunScope.workspaceRef, known] at free
      refine Runs.bind ((acquiring_runs env.ports fun ready same still => ?_).loosen ?_) fun answer heard _ crossed => ?_
      · simp only [Acquiring, Owns, same, still, scope, log]
        exact ⟨⟨fresh.owned, trivial⟩, trivial, absent, fun _ _ _ lost ending => fresh.unasked _ lost ending rfl⟩
      · exact fun _ _ same => Kept.still same (by rw [scope]; exact fresh.owned)
      · obtain ⟨same, answered, alone⟩ := crossed
        have attempted : heard.scope.workspaceAttempt =
            some (workspaceAttempt env.request.runId polled.scope.fence) := by
          rw [same, scope]
        split
        next stale detail =>
          refine Runs.midway (fun _ _ => True)
            (modifyScope_runs (.alters (.lacksWorkspace attempted answered)) trivial) fun _ _ _ _ => ?_
          split
          · exact terminates (losing_runs detail detail)
          · exact terminates (fault_runs authority noObservations _)
        next handle =>
          refine Runs.midway (fun _ state => Going state ∧ state.scope.sessionRef = none ∧ state.log = heard.log)
            (modifyScope_runs (.alters (.gainsWorkspace attempted answered)) ⟨⟨by rw [same, scope]; exact fresh.owned,
              by rw [same, scope]; exact fresh.going⟩, by rw [same, scope]; exact fresh.session, rfl⟩)
            fun _ gained _ gains => ?_
          obtain ⟨going, free, unchanged⟩ := gains
          refine Runs.bind (((armProfile_idles _ _).runs Passes.act).loosen fun _ _ thrown => thrown.1.elim)
            fun _ armed _ passed => ?_
          refine openSession_runs authority (going.passes passed) (by rw [passed.scope]; exact free) ?_
          intro fence sessionRef profile limits lost ending listed
          rw [passed.log, unchanged] at listed
          rcases alone _ _ _ listed with earlier | other
          · rw [log] at earlier
            exact fresh.unasked _ lost ending rfl earlier
          · cases other

/-- An emission of a phase that goes on. -/
theorem emitting_runs {authority : Authority} {body : EventBody} (going : Going start)
    (ongoing : ∀ outcome, body ≠ .runTerminated outcome) :
    Runs (Act env.outside) (emit env authority body) start (fun outcome state => ∀ event, outcome = .ok event → Going state)
      Kept :=
  (quiet_runs (emit_runs going.owned ongoing)).weaken (fun _ _ _ done event ok => going.quiets done.1 (done.2 event ok))
    fun _ _ _ stopped => stopped.2

/-- An ordinary call of a phase that goes on. -/
theorem calling_runs (boundary : Boundary) {call : Call} (going : Going start)
    (allowed : ∀ ready : Attempt World, ready.scope.fenceLost = none → Ordinary ready call) :
    Runs (Act outside) (cross outside boundary call) start (fun _ state => Going state) Kept :=
  (quiet_runs (ordinary_runs boundary fun ready same => allowed ready (by rw [same]; exact going.owned))).weaken
    (fun _ _ _ heard => going.quiets heard.1 (by rw [heard.2.1]; exact going.owned))
    fun _ _ _ stopped => Kept.still stopped.2 going.owned

theorem sandboxStarted_runs (authority : Authority) (going : Going start) :
    Runs (Act env.outside) (sandboxStarted env authority) start (Phased env.request.runId Going fun _ => False) Kept := by
  refine Runs.bind (emitting_runs going fun _ same => by cases same) fun announced state _ kept => ?_
  split
  next => exact terminates (fault_runs _ _ _)
  next =>
    refine Runs.bind (emitting_runs (kept _ rfl) fun _ same => by cases same) fun granted state _ kept => ?_
    split
    next => exact terminates (fault_runs _ _ _)
    next =>
      have going := kept _ rfl
      refine Runs.bind interrupted_runs fun signal polled _ passed => ?_
      have going := going.passes passed
      split
      next reason => exact terminates (abortRun_runs _ _ _ going.owned)
      next =>
        refine Runs.bind (calling_runs env.ports going fun _ owned => owned) fun observed state _ going => ?_
        split
        next => exact terminates (fault_runs _ _ _)
        next =>
          split
          next => exact terminates (finish_runs _ _ _ (.inl rfl))
          next => exact Runs.pure going

theorem gathering_runs (change : Observations → Observations) (going : Going start) :
    Runs (Act outside) (modifyScope fun scope => { scope with terminalEvidence := change scope.terminalEvidence }) start
      (fun _ state => Going state) Kept :=
  modifyScope_runs (.quiet (.gathers _)) ⟨going.owned, going.going⟩

theorem observeRun_runs (authority : Authority) (operations : EvidenceOperations) (gateResults : GateResults)
    (going : Going start) :
    Runs (Act env.outside) (observeRun env authority operations gateResults) start
      (Phased env.request.runId Going fun _ => False) Kept := by
  refine Runs.bind (calling_runs env.ports going fun _ owned => owned) fun observation state _ going => ?_
  split
  next => exact terminates (fault_runs _ _ _)
  next => exact terminates (finish_runs _ _ _ (.inl rfl))
  next observed _ =>
    refine Runs.bind (gathering_runs (fun seen => { seen with observed }) going) fun _ _ _ going => ?_
    refine Runs.bind (calling_runs env.ports going fun _ owned => owned) fun artifacts _ _ going => ?_
    refine Runs.bind (gathering_runs (fun seen => { seen with artifacts }) going) fun _ _ _ going => ?_
    refine Runs.bind interrupted_runs fun signal polled _ passed => ?_
    have going := going.passes passed
    split
    next reason => exact terminates (abortRun_runs _ _ _ going.owned)
    next => exact Runs.pure going

theorem recordObservation_runs (authority : Authority) (sessionRef : String) (observation : AdapterObservation)
    (going : Going start) :
    Runs (Act env.outside) (recordObservation env authority sessionRef observation) start
      (Phased env.request.runId Going fun _ => False) Kept := by
  unfold recordObservation
  split
  next => exact terminates (finish_runs _ _ _ (.inl rfl))
  next =>
    refine Runs.bind ((quiet_runs (recordCalls_runs 0 {} observation.calls going.owned)).loosen fun _ _ stopped => stopped.2)
      fun recorded state _ done => ?_
    split
    next => exact terminates (fault_runs _ _ _)
    next operations =>
      have going := going.quiets done.1 (done.2 rfl)
      refine Runs.bind (emitting_runs going fun _ same => by cases same) fun completed state _ kept => ?_
      split
      next => exact terminates (fault_runs _ _ _)
      next =>
        have going := kept _ rfl
        split
        next => exact terminates (fault_runs _ _ _)
        next registry _ =>
          refine Runs.bind ((quiet_runs (runGates_runs registry.value sessionRef going.owned)).loosen
            fun _ _ stopped => stopped.2) fun ran state _ done => ?_
          have going := going.quiets done.1 done.2
          split
          next => exact terminates (finish_runs _ _ _ (.inl rfl))
          next detail => exact terminates (losing_runs detail detail)
          next => exact terminates (fault_runs _ _ _)
          next => exact observeRun_runs _ _ _ going

theorem running_runs (authority : Authority) (going : Going start) :
    Runs (Act env.outside) (running env authority) start (Phased env.request.runId Going fun _ => False) Kept := by
  refine Runs.get ?_
  dsimp only
  refine Runs.bind (emitting_runs going fun _ same => by cases same) fun started state _ kept => ?_
  split
  next => exact terminates (fault_runs _ _ _)
  next =>
    refine Runs.bind (calling_runs env.ports (kept _ rfl) fun _ owned => owned) fun report state _ going => ?_
    split
    next detail => exact terminates (losing_runs detail detail)
    next => exact terminates (fault_runs _ _ _)
    next => exact recordObservation_runs _ _ _ going

theorem unlessInterrupted_runs (authority : Authority) (seen : Observations) {next : Procedure World PhaseCommand}
    (going : Going start)
    (runs : ∀ state, Going state → Runs (Act env.outside) next state (Phased env.request.runId earned held) Kept) :
    Runs (Act env.outside) (unlessInterrupted env authority seen next) start (Phased env.request.runId earned held) Kept := by
  refine Runs.bind interrupted_runs fun signal polled _ passed => ?_
  split
  next reason => exact terminates (abortRun_runs _ _ _ (going.passes passed).owned)
  next => exact runs polled (going.passes passed)

/-- What leaves isolation leaves it under a fence asked for again. -/
theorem materialize_runs (authority : Authority) (seen : Observations) (going : Going start) :
    Runs (Act env.outside) (materialize env authority seen) start
      (fun ended state => match ended with
        | some conclusion => Concluded env.request.runId conclusion state
        | none => Going state) Kept := by
  unfold materialize
  split
  · exact Runs.pure going
  · dsimp only
    split
    next => exact Runs.map (finish_runs _ _ _ (.inl rfl))
    next =>
      refine Runs.get ?_
      split
      next workspace policy _ _ =>
        split
        next lost known => exact absurd going.owned (by simp [known])
        next =>
          refine Runs.bind (calling_runs env.ports going fun _ owned => owned) fun renewed state _ going => ?_
          split
          next =>
            refine Runs.bind (calling_runs env.ports going fun _ owned => owned) fun applied state _ going => ?_
            split
            next => exact Runs.pure going
            next detail => exact Runs.map (losing_runs detail detail)
            next => exact Runs.map (finish_runs _ _ _ (.inl rfl))
          next => exact Runs.map (losing_runs _ _)
      next => exact Runs.pure going

theorem completeRun_runs (authority : Authority) (seen : Observations) (going : Going start) :
    Runs (Act env.outside) (completeRun env authority seen) start
      (Phased env.request.runId (fun _ => False) fun _ => False) Kept := by
  refine unlessInterrupted_runs authority seen going fun state going => ?_
  refine Runs.bind (materialize_runs authority seen going) fun ended state _ done => ?_
  split
  next => exact Runs.pure done
  next =>
    exact unlessInterrupted_runs authority seen done fun state _ =>
      terminates (finish_runs _ _ _ (.inr ⟨rfl, rfl⟩))

theorem verifying_runs (authority : Authority) (seen : Observations) (going : Going start) :
    Runs (Act env.outside) (verifying env authority seen) start
      (Phased env.request.runId (fun _ => False) fun _ => False) Kept := by
  refine unlessInterrupted_runs authority seen going fun state going => ?_
  refine Runs.bind ((quiet_runs (acquire_runs .verification)).loosen fun _ _ stopped => stopped.2)
    fun acquired state _ done => ?_
  split
  next => exact terminates (fault_runs _ _ _)
  next reacquired =>
    have going := going.quiets done.1 (done.2 rfl)
    refine Runs.bind (((clockNow_idles _).runs Passes.act).loosen fun _ _ thrown => Kept.still thrown.2.scope going.owned)
      fun finishedAt state _ passed => Runs.get ?_
    have going := going.passes passed
    dsimp only
    split
    next => exact terminates (finish_runs _ _ _ (.inl rfl))
    next => exact terminates (fault_runs _ _ _)
    next =>
      refine Runs.bind (calling_runs env.ports going fun _ owned => owned) fun artifacts state _ going => ?_
      refine unlessInterrupted_runs authority seen going fun state going => ?_
      split
      next => exact terminates (fault_runs _ _ _)
      next => exact terminates (finish_runs _ _ _ (.inl rfl))
      next => exact completeRun_runs authority seen going

end Phases

end SecureHome.Orchestration
