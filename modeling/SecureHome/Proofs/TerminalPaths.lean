import SecureHome.Proofs.ScopeActs

/-! Every way a run ends, as acts: what a conclusion says is what the attempt it was
read from stood at, with nothing left to let go of. -/

namespace SecureHome.Orchestration
open Relation Lib Lifecycle Ports RunState Contracts Core Adapters

variable {World Value : Type} {outside : Surroundings World}

/-- A fact is in the outbox, or a journal acknowledged it. -/
def Noted (attempt : Attempt World) (fact : JournalFact) : Prop :=
  (∃ entry ∈ attempt.scope.outbox.pending, entry.fact = fact) ∨
    ∃ fence entryId, .answered (.append fence entryId fact) .ok ∈ attempt.log

/-- A run reported here is terminal, dispossessed, not waiting, or its hold is noted. -/
def Accountable (attempt : Attempt World) : Prop :=
  attempt.scope.fenceLost.isSome = true ∨ Terminated attempt.scope ∨ attempt.scope.held = none ∨
    ∃ hold, Noted attempt (.hold hold)

section Noted

variable {before after : Attempt World}

theorem record_keeps (outbox : JournalOutbox) (facts : List JournalFact) {entry : OutboxEntry}
    (listed : entry ∈ outbox.pending) : entry ∈ (facts.foldl JournalOutbox.record outbox).pending := by
  induction facts generalizing outbox with
  | nil => exact listed
  | cons fact rest ih => exact ih _ (List.mem_append_left _ listed)

theorem Noted.quiet {fact : JournalFact} (noted : Noted before fact) (step : Quiet outside before after) :
    Noted after fact := by
  rcases noted with ⟨entry, listed, rfl⟩ | ⟨fence, entryId, answered⟩
  · cases step with
    | traffic step => exact .inl ⟨entry, by rw [step.scope]; exact listed, rfl⟩
    | drains => exact .inl ⟨entry, record_keeps _ _ listed, rfl⟩
    | records => exact .inl ⟨entry, List.mem_append_left _ listed, rfl⟩
    | loses | gathers | captures => exact .inl ⟨entry, listed, rfl⟩
    | lands head landed =>
      obtain ⟨first, rest, held⟩ := List.exists_cons_of_ne_nil (List.ne_nil_of_mem listed)
      rw [JournalOutbox.head, held, List.head?_cons, Option.some.injEq] at head
      rw [held, List.mem_cons] at listed
      rcases listed with rfl | listed
      · obtain ⟨fence, answered⟩ := landed
        exact .inr ⟨fence, entry.entryId, by rw [head]; exact answered⟩
      · exact .inl ⟨entry, by simpa [RunScope.landed, JournalOutbox.landed, held] using listed, rfl⟩
  · exact .inr ⟨fence, entryId, step.logs.subset answered⟩

theorem Terminated.undisturbed {earlier later : RunScope} (terminated : Terminated earlier)
    (undisturbed : Undisturbed earlier later) : Terminated later := by
  unfold Terminated
  rw [undisturbed.table, undisturbed.state]
  exact terminated

theorem Accountable.quiet (accountable : Accountable before) (step : Quiet outside before after) : Accountable after := by
  have undisturbed := step.undisturbed
  rcases accountable with lost | terminated | waiting | ⟨hold, noted⟩
  · exact .inl (by rw [undisturbed.lost lost]; exact lost)
  · exact .inr (.inl (terminated.undisturbed undisturbed))
  · exact .inr (.inr (.inl (by rw [undisturbed.held]; exact waiting)))
  · exact .inr (.inr (.inr ⟨hold, noted.quiet step⟩))

theorem Accountable.quiets (accountable : Accountable before) (steps : ReflTransGen (Quiet outside) before after) :
    Accountable after := by
  induction steps with
  | refl => exact accountable
  | tail _ step ih => exact ih.quiet step

/-- What is accountable stays so when its scope lets go and its log grows. -/
theorem Accountable.letGo (accountable : Accountable before) (scope : after.scope = before.scope.letGo)
    (log : before.log <+: after.log) : Accountable after := by
  unfold Accountable Terminated Noted at accountable ⊢
  rw [scope]
  refine accountable.imp id fun rest => rest.imp id fun rest => rest.imp id fun ⟨hold, noted⟩ => ⟨hold, noted.imp id ?_⟩
  exact fun ⟨fence, entryId, answered⟩ => ⟨fence, entryId, log.subset answered⟩

end Noted

/-- A conclusion read off where the attempt stood once it had let go. -/
structure Concluded (runId : String) (conclusion : RunConclusion) (attempt : Attempt World) : Prop where
  freed : attempt.scope.workspaceRef = none ∧ attempt.scope.sessionRef = none
  said : ∃ produced detail, conclusion = conclusionOf attempt.scope runId produced detail ∧
    (produced = .none ∨ attempt.scope.recorded = produced)
  drained : attempt.scope.fenceLost.isSome = true ∨ attempt.scope.machine.pendingTransitions = []
  accountable : Accountable attempt

/-- The three ways a conclusion comes about. -/
inductive Reported (runId : String) (conclusion : RunConclusion) (attempt : Attempt World) : Prop where
  | concluded (concluded : Concluded runId conclusion attempt)
  | incomplete (intended : LifecycleState) (detail : String)
      (said : conclusion = incompleteOf attempt.scope runId intended detail) (told : .incomplete attempt.scope ∈ attempt.log)
  | lost (known : attempt.scope.fenceLost.isSome = true) (kind : conclusion.kind = .ownershipLost)
      (state : conclusion.state = attempt.scope.machine.state)
      (transitions : conclusion.transitions = attempt.scope.machine.transitionRecord)

variable {env : RunEnvironment World} {start : Attempt World}

/-- Every act adds to the log. -/
theorem Act.logs {before after : Attempt World} (step : Act outside before after) : before.log <+: after.log := by
  cases step with
  | quiet step => exact step.logs
  | acquires step => exact step.log
  | alters | holds | projects => exact List.prefix_rfl
  | advances kind cause instant => exact before.advance_log kind cause instant
  | gates | reports => exact List.prefix_append _ _
  | tries => exact List.prefix_append _ _
  | tearsDown _ calls =>
    have grown := Traffic.logs calls
    exact grown
  | @commits heard commit signal capability _ _ passed =>
    have grown : before.log <+: heard.log := by
      rw [passed.log, Attempt.issue, List.append_assoc]
      exact List.prefix_append _ _
    refine grown.trans ?_
    simp only [Attempt.adopt]
    split
    · exact List.prefix_append _ _
    · exact List.prefix_rfl

theorem acts_log {before after : Attempt World} (steps : ReflTransGen (Act outside) before after) :
    before.log <+: after.log := by
  induction steps with
  | refl => exact List.prefix_rfl
  | tail _ step ih => exact ih.trans step.logs

/-- Concluding, for a run that can account for where it stands. -/
theorem conclude_runs {produced : Produced} (detail : String) (accountable : Accountable start)
    (recorded : produced = .none ∨ start.scope.recorded = produced) :
    Runs (Act env.outside) (conclude env produced detail) start
      (fun conclusion state => Concluded env.request.runId conclusion state)
      fun _ state => state.scope.fenceLost = none := by
  refine Runs.bind ((disarm_idles.runs Passes.act).loosen fun _ _ thrown => thrown.1.elim) fun _ disarmed _ first => ?_
  refine Runs.bind ((settlement_idles.runs Passes.act).loosen fun _ _ thrown => thrown.1.elim)
    fun ports opened _ second => ?_
  refine Runs.bind ((quiet_runs (flushJournal_runs ports)).loosen fun _ _ stopped => stopped.2.2)
    fun _ flushed _ once => ?_
  refine Runs.bind ((quiet_runs (flushJournal_runs ports)).loosen fun _ _ stopped => stopped.2.2)
    fun _ landed _ twice => ?_
  have quiet : ReflTransGen (Quiet env.outside) start landed := (once.1.head (first.trans second).quiet).trans twice.1
  refine Runs.bind (release_runs ports).certain fun _ last reached same => Runs.get (Runs.pure ?_)
  have standing := quiet_undisturbed quiet
  refine ⟨by simp [same, RunScope.letGo, RunScope.workspaceRef, RunScope.sessionRef], ⟨produced, detail, rfl, ?_⟩, ?_,
    (accountable.quiets quiet).letGo same (acts_log reached)⟩
  · rw [same]
    exact recorded.imp id fun held => standing.recorded.trans held
  · rw [same]
    exact twice.2.1

/-- A run that knows it lost its fence concludes without a record. -/
theorem conclude_lost (detail : String) (lost : start.scope.fenceLost.isSome = true) :
    Runs (Act env.outside) (conclude env .none detail) start
      (fun conclusion state => Concluded env.request.runId conclusion state)
      fun _ state => state.scope.fenceLost = none :=
  conclude_runs detail (.inl lost) (.inl rfl)

theorem Terminated.accountable (terminated : Terminated start.scope) : Accountable start := .inr (.inl terminated)

theorem buildEarlyTerminationRecord_outcome {state : LifecycleState} {detail : String} {timing : EvidenceTiming}
    {record : EarlyTerminationRecord} (built : buildEarlyTerminationRecord env state detail timing = .ok record) :
    record.outcome = outcomeFor state detail := by
  unfold buildEarlyTerminationRecord at built
  split at built
  · cases built
  · dsimp only at built
    split at built
    · cases built
    · cases built
      rfl

/-- The early record is the one kept, or one built for the state the machine is in. -/
theorem earlyRecordOf_runs (detail : String) :
    Runs (Act env.outside) (earlyRecordOf env detail) start
      (fun built state => state.scope = start.scope ∧ ∀ record, built = .ok record →
        start.scope.earlyRecord = some record ∨
          start.scope.earlyRecord = none ∧ ∃ detail, record.outcome = outcomeFor start.scope.machine.state detail)
      fun _ _ => False := by
  refine Runs.get ?_
  split
  next record held => exact Runs.pure ⟨rfl, fun _ same => by cases same; exact .inl held⟩
  next absent =>
    refine Runs.bind (((safeNow_idles _).runs Passes.act).loosen fun _ _ thrown => thrown.1)
      fun finishedAt state _ passed => Runs.get (Runs.pure ⟨passed.scope, fun record built => ?_⟩)
    rw [passed.scope] at built
    exact .inr ⟨absent, detail, buildEarlyTerminationRecord_outcome built⟩

/-- Writing the one early record of a machine that is over. -/
theorem writeEarlyTerminalRecord_runs (detail : String) (terminated : Terminated start.scope) :
    Runs (Act env.outside) (writeEarlyTerminalRecord env detail) start
      (fun conclusion state => Concluded env.request.runId conclusion state)
      fun _ state => state.scope.fenceLost = none := by
  refine Runs.get ?_
  split
  next lost => exact conclude_lost detail lost
  next kept =>
    have owned : start.scope.fenceLost = none := by simpa using kept
    refine Runs.bind (earlyRecordOf_runs detail).certain fun built state _ prepared => ?_
    obtain ⟨same, offered⟩ := prepared
    have terminated : Terminated state.scope := by rw [same]; exact terminated
    split
    next issues => exact conclude_runs issues terminated.accountable (.inl rfl)
    next record =>
      refine Runs.midway (fun _ kept => kept.scope = { start.scope with earlyRecord := some record })
        (Runs.change ?_ (by simp [same])) fun _ kept _ keeps => Runs.get ?_
      · rcases offered record rfl with held | ⟨absent, said⟩
        · have still : { state with scope := { state.scope with earlyRecord := some record } } = state := by
            rw [← same] at held
            cases state
            simp only [← held]
          exact still.symm ▸ .refl
        · exact .single (.alters (.keeps (by rw [same]; exact absent) (by rw [same]; exact said) terminated))
      · have terminated : Terminated kept.scope := by rw [keeps]; exact same ▸ terminated
        have allowed (ready : Attempt World) (same : ready.scope = kept.scope) :
            Ordinary ready (.write kept.scope.fence
              s!"{env.request.runId}#g{kept.scope.fence.generation}#early_termination_record"
              (.earlyTerminationRecord record)) := by
          simp only [Ordinary, Owns, same, keeps]
          exact ⟨⟨owned, trivial⟩, record, rfl, rfl⟩
        refine Runs.bind ((quiet_runs (ordinary_runs env.ports allowed)).loosen fun _ _ stopped =>
          by rw [stopped.2, keeps]; exact owned) fun answer heard _ crossed => ?_
        obtain ⟨_, crossed, answered⟩ := crossed
        have terminated : Terminated heard.scope := by rw [crossed]; exact terminated
        split
        next =>
          refine Runs.midway (fun _ state => state.scope = { heard.scope with recorded := .earlyTerminationRecord })
            (modifyScope_runs (.alters (.recordsEarly (by rw [crossed, keeps]) answered)) rfl) fun _ state _ recorded => ?_
          have terminated : Terminated state.scope := by rw [recorded]; exact terminated
          exact conclude_runs detail terminated.accountable (.inr (by rw [recorded]))
        next => exact conclude_runs _ terminated.accountable (.inl rfl)
        next refused =>
          refine Runs.midway (fun _ state => state.scope.fenceLost.isSome = true)
            (modifyScope_runs (.quiet (.loses refused)) ?_) fun _ state _ lost => conclude_lost detail lost
          cases heard.scope.fenceLost <;> simp [RunScope.loseFence]

/-- The transition kinds a terminal owner may ask for. -/
def EndsRun (kind : TransitionKind) : Prop := ∃ terminal, Intends kind terminal

theorem terminateEarly_runs {kind : TransitionKind} (detail : String) (ends : EndsRun kind) :
    Runs (Act env.outside) (terminateEarly env kind detail) start
      (fun conclusion state => Concluded env.request.runId conclusion state)
      fun _ state => state.scope.fenceLost = none := by
  obtain ⟨terminal, intends⟩ := ends
  refine Runs.get ?_
  split
  next lost => exact conclude_lost detail lost
  next kept =>
    refine Runs.bind (reachTerminal_runs detail intends (.inl (by simpa using kept))).certain
      fun reached state _ ended => ?_
    split
    · exact conclude_runs _ (Terminated.accountable ended.2.1) (.inl rfl)
    · exact writeEarlyTerminalRecord_runs detail ended.2.1

theorem failClosed_runs {kind : TransitionKind} (why : String) (ends : EndsRun kind)
    (owned : start.scope.fenceLost = none ∨ .gated true ∈ start.log) :
    Runs (Act env.outside) (failClosed env why kind) start
      (fun conclusion state => Concluded env.request.runId conclusion state)
      fun _ state => state.scope.fenceLost = none := by
  obtain ⟨terminal, intends⟩ := ends
  refine Runs.bind (reachTerminal_runs why intends owned).certain fun reached state _ ended => ?_
  split
  · exact conclude_runs _ (Terminated.accountable ended.2.1) (.inl rfl)
  · exact conclude_runs _ (Terminated.accountable ended.2.1) (.inl rfl)

theorem EndsRun.refuse : EndsRun .refuse := ⟨.refused, .inl rfl⟩

theorem EndsRun.operationalFault : EndsRun .operationalFault := ⟨.operationalFailure, .inl rfl⟩

theorem EndsRun.timeout : EndsRun .timeout := ⟨.timedOut, .inl rfl⟩

theorem EndsRun.indeterminate : EndsRun .indeterminate := ⟨.indeterminate, .inl rfl⟩

theorem Intends.ofReason (reason : InterruptReason) : Intends reason.kind reason.terminal := by
  cases reason <;> exact .inl rfl

section Finish

variable {authority : Authority} {seen : Observations} {kind : TransitionKind} {terminal : LifecycleState}
  {capability : CommitCapability}

theorem assembleEvidence_outcome {detail : String} {timing : EvidenceTiming} {bundle : EvidenceBundle}
    {outcome : RunOutcome} (assembled : assembleEvidence env authority terminal detail seen timing = .ok bundle outcome) :
    outcome = outcomeFor terminal detail := by
  unfold assembleEvidence at assembled
  split at assembled
  · cases assembled
  · dsimp only at assembled
    split at assembled <;> cases assembled
    rfl

theorem prepareSeal_ok {core : TrustedCore} {ledger : FinalizationLedger} {bundle eligible : EvidenceBundle}
    {outcome : RunOutcome} (prepared : ledger.prepareSeal core bundle outcome = .ok eligible) :
    eligible = bundle ∧ bundle.outcome = outcome := by
  unfold FinalizationLedger.prepareSeal at prepared
  split at prepared
  · cases prepared
  · split at prepared
    · cases prepared
    · split at prepared
      · cases prepared
      next proceeds =>
        cases prepared
        exact ⟨(decideSealEligibility_proceed proceeds).1, (decideSealEligibility_proceed proceeds).2.1⟩

/-- One instant is read for each step. -/
theorem instants_runs (runId : String) (steps : Nat) :
    Runs (Passes outside) (instants outside runId steps) start (fun read state => read.length = steps ∧ state.scope = start.scope)
      fun _ _ => False := by
  induction steps generalizing start with
  | zero => exact Runs.pure ⟨rfl, rfl⟩
  | succ steps ih =>
    refine Runs.bind (((safeNow_idles runId).runs id).loosen fun _ _ thrown => thrown.1) fun instant state _ passed => ?_
    exact Runs.bind ih fun rest last _ read => Runs.pure ⟨by simp [read.1], read.2.trans passed.scope⟩

/-- What a projection that is not refused is made of. -/
def Projects (scope : RunScope) (kind : TransitionKind) (detail : String) (capability : CommitCapability) : Prop :=
  scope.machine.remembers capability = true ∧ capability.fromVersion = scope.machine.version ∧
    ∃ legs instants, RunMachine.chart scope.machine.table scope.machine.state (terminalSequence kind detail) = (legs, none) ∧
      instants.length = legs.length ∧ capability.entries = List.zipWith
        (fun (leg : LifecycleState × LifecycleState × ProjectedStep) instant =>
          (⟨scope.machine.runId, leg.1, leg.2.1, leg.2.2.kind, leg.2.2.cause, instant⟩ : TransitionEntry))
        legs instants

theorem Projects.undisturbed {before after : RunScope} {detail : String} (projects : Projects before kind detail capability)
    (undisturbed : Undisturbed before after) : Projects after kind detail capability := by
  unfold Projects RunMachine.remembers at projects ⊢
  rw [undisturbed.machine]
  exact projects

theorem RunMachine.project_remembers {machine after : RunMachine} {steps : List ProjectedStep} {read : List String}
    (projected : machine.project steps read = (.projected capability, after)) :
    (∃ legs, RunMachine.chart machine.table machine.state steps = (legs, none) ∧ capability.entries = List.zipWith
        (fun (leg : LifecycleState × LifecycleState × ProjectedStep) instant =>
          (⟨machine.runId, leg.1, leg.2.1, leg.2.2.kind, leg.2.2.cause, instant⟩ : TransitionEntry)) legs read) ∧
      capability.fromVersion = machine.version ∧ after.remembers capability = true ∧
      after = { machine with minted := after.minted, projections := after.projections } := by
  unfold RunMachine.project at projected
  split at projected
  · cases projected
  next legs charted =>
    cases projected
    exact ⟨⟨legs, charted, rfl⟩, rfl, by simp [RunMachine.remembers], rfl⟩

theorem project_runs (detail : String) :
    Runs (Act outside) (project outside (terminalSequence kind detail)) start
      (fun projection state => state.scope.fenceLost = start.scope.fenceLost ∧
        ∀ capability, projection = .projected capability → Projects state.scope kind detail capability)
      fun _ _ => False := by
  refine Runs.get <| Runs.bind ((instants_runs _ _).mono fun _ _ passed => .single passed.act)
    fun read ready _ taken => ?_
  refine Runs.modifyGet (.single (.projects _ read)) ⟨by simp [Attempt.project, taken.2], fun capability projected => ?_⟩
  obtain ⟨length, same⟩ := taken
  rw [← same] at length
  simp only [Attempt.project] at projected ⊢
  cases outcome : ready.scope.machine.project (terminalSequence kind detail) read with
  | mk projection after =>
    rw [outcome] at projected
    subst projected
    obtain ⟨⟨legs, charted, entries⟩, version, remembered, rest⟩ := RunMachine.project_remembers outcome
    refine ⟨remembered, by rw [rest]; exact version, legs, read, by rw [rest]; exact charted, ?_, by rw [rest]; exact entries⟩
    rw [length, charted]

/-- A projected tail passes through no terminal but its last, which is the one intended. -/
theorem Sealing.entries {before : Attempt World} {commit : FinalizationCommit Contracts.RunEvent EvidenceBundle}
    (ready : Sealing before capability commit) (narrows : Narrows before.scope.machine.table) :
    isTerminal before.scope.machine.state = false ∧ ∃ front last, capability.entries = front ++ [last] ∧
      last.target = commit.intent.terminal ∧ isTerminal commit.intent.terminal = true ∧
      ∀ entry ∈ front, isTerminal entry.target = false := by
  obtain ⟨kind, detail, intends, legs, instants, charted, length, entries⟩ := ready.projected
  unfold terminalSequence at charted
  split at charted
  next complete =>
    obtain ⟨going, middle, others, declared, onward, rfl⟩ := chart_cons charted
    obtain ⟨between, last, ended, reached, done, rfl⟩ := chart_cons onward
    simp only [RunMachine.chart, Prod.mk.injEq] at done
    rw [← done.1] at length entries
    match instants, length with
    | [first, second], _ =>
      refine ⟨going, [_], _, entries, (complete ▸ intends).target (narrows _ _ _ reached), intends.terminated, ?_⟩
      exact fun entry only => by rw [List.mem_singleton.mp only]; exact between
  next single =>
    obtain ⟨going, next, others, declared, done, rfl⟩ := chart_cons charted
    simp only [RunMachine.chart, Prod.mk.injEq] at done
    rw [← done.1] at length entries
    match instants, length with
    | [instant], _ =>
      exact ⟨going, [], _, entries, intends.target (narrows _ _ _ declared), intends.terminated, fun _ absent => nomatch absent⟩

/-- Where a commit call ended: barred, made and never acknowledged, or answered. -/
theorem crossCommit_ends (boundary signal : Boundary) (commit : FinalizationCommit Contracts.RunEvent EvidenceBundle) :
    Runs (fun _ _ => True) (crossCommit outside boundary signal commit) start
      (fun answer state => ∃ ready stamped, Passes outside start ready ∧ stamped.fence = commit.fence ∧
        stamped.intent = commit.intent ∧
        (outside.perform (.commit stamped signal) ready.world).1.ending = .settled answer ∧
        Passes outside
          { ready.issue outside (.commit stamped signal) with
            log := (ready.issue outside (.commit stamped signal)).log ++ [.answered (.commit stamped signal) answer] } state)
      fun _ state => ∃ ready stamped, Passes outside start ready ∧ stamped.fence = commit.fence ∧
        stamped.intent = commit.intent ∧
        (state = { ready with log := ready.log ++ [.barred (.commit stamped signal)] } ∨
          Passes outside (ready.issue outside (.commit stamped signal)) state ∧
            (outside.perform (.commit stamped signal) ready.world).1.ending ≠ .settled .ok) := by
  refine Runs.get <| Runs.bind ((launch_ends boundary _).loosen ?_) fun flight state _ launched => ?_
  · exact fun _ state ⟨ready, passed, barred⟩ => ⟨ready, stamp start.deadline boundary commit, passed, rfl, rfl, .inl barred⟩
  · obtain ⟨ready, passed, rfl, rfl⟩ := launched
    refine (settle_ends boundary _ _).weaken ?_ ?_
    · rintro answer _ _ ⟨settled, heard, onward, rfl⟩
      exact ⟨ready, stamp start.deadline boundary commit, passed, rfl, rfl, settled, onward.telling _⟩
    · exact fun _ state _ ⟨onward, unheard⟩ =>
        ⟨ready, stamp start.deadline boundary commit, passed, rfl, rfl, .inr ⟨onward, unheard rfl .ok⟩⟩

theorem Attempt.adopt_adopts {attempt : Attempt World} (remembered : attempt.scope.machine.remembers capability = true)
    (current : capability.fromVersion = attempt.scope.machine.version) :
    attempt.adopt capability = (.ok (),
      { attempt with
        scope := { attempt.scope with
          machine := { attempt.scope.machine with
            projections := attempt.scope.machine.projections.erase capability.serial
            transitionRecord := attempt.scope.machine.transitionRecord ++ capability.entries
            state := (capability.entries.getLast?.map (·.target)).getD attempt.scope.machine.state
            version := attempt.scope.machine.version + capability.entries.length
            journaledTransitions := attempt.scope.machine.journaledTransitions + capability.entries.length } }
        log := attempt.log ++ capability.entries.map (.entered · attempt.scope.fenceLost.isSome) }) := by
  simp [Attempt.adopt, RunMachine.commitProjected_adopts remembered current]

/-- An acknowledged commit is adopted where it was heard. -/
theorem concludeCommit_ok {detail : String} (remembered : start.scope.machine.remembers capability = true)
    (current : capability.fromVersion = start.scope.machine.version) :
    concludeCommit env kind detail capability .ok start =
      (do
        modifyScope fun scope => { scope with recorded := .evidenceBundle }
        conclude env .evidenceBundle detail)
      (Attempt.adopt capability { start with ledger := start.ledger.markSealed }).2 := by
  have adopted := (show Attempt World from { start with ledger := start.ledger.markSealed }).adopt_adopts remembered current
  simp only [concludeCommit, adoptCommitted, bind, EStateM.bind, modify, modifyGet_ok, adopted, pure, EStateM.pure]

/-- What a finish does when its commit was declined. -/
theorem concludeCommit_refused_runs (detail refused : String) (reason : Option CommitReason) (intends : Intends kind terminal)
    (owned : start.scope.fenceLost = none) :
    Runs (Act env.outside) (concludeCommit env kind detail capability (.refused reason refused)) start
      (fun conclusion state => Concluded env.request.runId conclusion state)
      fun _ state => state.scope.fenceLost = none := by
  unfold concludeCommit
  split
  next same => cases same
  next detail same =>
    refine Runs.midway (fun _ state => state.scope.fenceLost.isSome = true)
      (modifyScope_runs (.quiet (.loses detail)) (by simp [RunScope.loseFence, owned])) fun _ state _ lost =>
        conclude_lost detail lost
  next => exact failClosed_runs _ ⟨terminal, intends⟩ (.inl owned)
  next => exact failClosed_runs _ ⟨terminal, intends⟩ (.inl owned)
  next => exact failClosed_runs _ EndsRun.timeout (.inl owned)
  next => exact failClosed_runs _ EndsRun.operationalFault (.inl owned)

/-- The commit itself, with everything before it durable. -/
theorem sealAndCommit_runs {detail : String} {bundle : EvidenceBundle} {outcome : RunOutcome}
    (intends : Intends kind terminal) (owned : start.scope.fenceLost = none)
    (durable : start.scope.outbox.pending = []) (drained : start.scope.machine.pendingTransitions = [])
    (projects : Projects start.scope kind detail capability) (said : outcome = outcomeFor terminal detail) :
    Runs (Act env.outside) (sealAndCommit env authority kind detail terminal bundle outcome capability) start
      (fun conclusion state => Concluded env.request.runId conclusion state)
      fun _ state => state.scope.fenceLost = none := by
  refine Runs.get ?_
  split
  next refused _ => exact failClosed_runs refused EndsRun.operationalFault (.inl owned)
  next eligible prepared =>
    obtain ⟨rfl, sealed⟩ := prepareSeal_ok prepared
    refine Runs.midway (fun event state => event.body = .runTerminated outcome ∧ state.scope = start.scope)
      (Runs.bind ((safeNow_idles _).runs Passes.act |>.loosen fun _ _ thrown => thrown.1.elim)
        fun timestamp state _ passed => Runs.get (Runs.pure ⟨rfl, passed.scope⟩)) fun event state _ enveloped => Runs.get ?_
    obtain ⟨body, same⟩ := enveloped
    -- Where the boundary let the commit start, nothing of the scope had moved.
    have ready {ready : Attempt World} {stamped : FinalizationCommit Contracts.RunEvent EvidenceBundle}
        (passed : Passes env.outside state ready) (fence : stamped.fence = state.scope.fence)
        (intent : stamped.intent = ⟨terminal, capability.entries, event, eligible⟩) : Sealing ready capability stamped := by
      have scope : ready.scope = start.scope := passed.scope.trans same
      refine ⟨⟨by rw [scope]; exact owned, by rw [fence, scope, same]⟩, by rw [scope]; exact durable,
        by rw [scope]; exact drained, by rw [scope]; exact projects.1, by rw [scope]; exact projects.2.1, by rw [intent],
        ⟨kind, detail, by rw [intent]; exact intends, by rw [scope]; exact projects.2.2⟩, detail, ?_⟩
      rw [intent, ← said]
      exact ⟨body, sealed⟩
    refine Runs.compound (crossCommit_ends env.ports env.commitSignal _) ?_ ?_
    · rintro answer last ⟨before, stamped, passed, fence, intent, settled, heard⟩
      have sealing := ready passed fence intent
      cases answer with
      | ok =>
        have scope : last.scope = start.scope := heard.scope.trans (passed.scope.trans same)
        have remembered : last.scope.machine.remembers capability = true := by rw [scope]; exact projects.1
        have current : capability.fromVersion = last.scope.machine.version := by rw [scope]; exact projects.2.1
        have marked : Passes env.outside last { last with ledger := last.ledger.markSealed } :=
          ⟨.refl, rfl, rfl, rfl, fun _ held => held, fun _ held => held⟩
        have reached : ReflTransGen (Act env.outside) state
            (Attempt.adopt capability { last with ledger := last.ledger.markSealed }).2 :=
          .head passed.act (.single (.commits sealing settled (heard.trans marked)))
        have adopted := (show Attempt World from { last with ledger := last.ledger.markSealed }).adopt_adopts remembered current
        have answered : .answered (.commit stamped env.commitSignal) .ok ∈
            (Attempt.adopt capability { last with ledger := last.ledger.markSealed }).2.log := by
          rw [adopted]
          exact List.mem_append_left _ (by rw [heard.log]; simp)
        rw [concludeCommit_ok remembered current]
        refine Ends.after reached (Runs.midway (fun _ state => state.scope.recorded = .evidenceBundle ∧
          Terminated state.scope) (modifyScope_runs (.alters (.recordsBundle answered)) ⟨rfl, fun narrows => .inl ?_⟩)
          fun _ state _ recorded => conclude_runs detail recorded.2.accountable (.inr recorded.1))
        rw [adopted] at narrows ⊢
        have before_table : before.scope.machine.table = last.scope.machine.table := by rw [heard.scope]; rfl
        obtain ⟨_, front, final, entries, target, terminated, _⟩ := sealing.entries (before_table ▸ narrows)
        simp only [entries, List.getLast?_append, List.getLast?_singleton, Option.some_or, Option.map_some, Option.getD_some,
          target, terminated]
      | refused reason refused =>
        have tried : ReflTransGen (Act env.outside) state last :=
          .head passed.act (.head (.tries sealing (by rw [settled]; exact fun same => by cases same))
            (.head (.quiet (.traffic (.hears ⟨before.scope.fenceLost.isSome, by
              rw [← settled]; simp [Attempt.issue]⟩))) (.single heard.act)))
        have scope : last.scope = start.scope := heard.scope.trans (passed.scope.trans same)
        exact Ends.after tried (concludeCommit_refused_runs detail refused reason intends (by rw [scope]; exact owned))
    · rintro failure last ⟨before, stamped, passed, fence, intent, ended⟩
      have sealing := ready passed fence intent
      rcases ended with rfl | ⟨issued, unacknowledged⟩
      · exact ⟨.head passed.act (.single (.quiet (.traffic (.bars _)))), sealing.owned.1⟩
      · exact ⟨.head passed.act (.head (.tries sealing unacknowledged) (.single issued.act)),
          by rw [issued.scope]; exact sealing.owned.1⟩

/-- Terminating a run that has authority. The pre-seal flush may learn of a loss, and
then the outbox is not empty. -/
theorem finish_runs (authority : Authority) (seen : Observations) (detail : String) (intends : Intends kind terminal) :
    Runs (Act env.outside) (finish env authority seen kind detail terminal) start
      (fun conclusion state => Concluded env.request.runId conclusion state)
      fun _ state => state.scope.fenceLost = none := by
  refine Runs.get ?_
  split
  next lost => exact conclude_lost detail lost
  next kept =>
    have owned : start.scope.fenceLost = none := by simpa using kept
    refine Runs.bind ((safeNow_idles _).runs Passes.act |>.loosen fun _ _ thrown => thrown.1.elim)
      fun finishedAt clocked _ passed => Runs.get ?_
    have owned : clocked.scope.fenceLost = none := by rw [passed.scope]; exact owned
    split
    next refusal why _ =>
      refine failClosed_runs why ?_ (.inl owned)
      split
      · exact EndsRun.refuse
      · exact EndsRun.operationalFault
    next bundle outcome assembled =>
      refine Runs.bind (project_runs detail).certain fun projection projected _ made => ?_
      have owned : projected.scope.fenceLost = none := made.1.trans owned
      split
      next => exact failClosed_runs _ EndsRun.operationalFault (.inl owned)
      next capability =>
        refine Runs.bind ((quiet_runs (flushJournal_runs env.ports)).loosen fun _ _ stopped => stopped.2.2)
          fun _ flushed _ flush => Runs.get ?_
        obtain ⟨quiet, drained, durable⟩ := flush
        refine Runs.midway (fun _ gated => gated.scope = flushed.scope ∧
          .gated flushed.scope.fenceLost.isSome ∈ gated.log) (Runs.modify .gates ⟨rfl, by simp⟩)
          fun _ gated _ gate => Runs.get ?_
        obtain ⟨same, told⟩ := gate
        split
        next =>
          refine failClosed_runs _ EndsRun.operationalFault ?_
          cases lost : flushed.scope.fenceLost with
          | none => exact .inl (by rw [same, lost])
          | some detail => exact .inr (by rw [lost] at told; exact told)
        next landed =>
          have empty : flushed.scope.outbox.pending = [] := by
            rw [same] at landed
            simpa [JournalOutbox.isEmpty] using landed
          have kept : flushed.scope.fenceLost = none := durable owned empty
          refine sealAndCommit_runs intends (by rw [same]; exact kept) (by rw [same]; exact empty) ?_ ?_
            (assembleEvidence_outcome assembled)
          · rw [same]
            exact drained.resolve_left (by simp [kept])
          · rw [same]
            exact (made.2 _ rfl).undisturbed (quiet_undisturbed quiet)

/-- Stopping the session of a run that still owns itself. -/
theorem stopSession_runs {boundary : Procedure World Boundary} (reason : InterruptReason)
    (opens : Idles env.outside boundary False) (owned : start.scope.fenceLost = none) :
    Runs (Quiet env.outside) (stopSession env boundary reason) start (fun _ state => state.scope = start.scope)
      fun _ _ => False := by
  refine Runs.get ?_
  dsimp only
  split
  · exact Runs.pure rfl
  next session _ =>
    refine Runs.bind ((opens.runs Passes.quiet).loosen fun _ _ thrown => thrown.1) fun ports state _ passed => ?_
    refine swallow_runs (Runs.bind ((ordinary_runs ports fun ready same => ?_).loosen ?_) fun _ _ _ heard => Runs.pure ?_)
    · simpa only [Ordinary, same, passed.scope] using owned
    · exact fun _ _ same => same.trans passed.scope
    · exact heard.1.trans passed.scope

theorem abortRun_runs (authority : Authority) (seen : Observations) (reason : InterruptReason)
    (owned : start.scope.fenceLost = none) :
    Runs (Act env.outside) (abortRun env authority seen reason) start
      (fun conclusion state => Concluded env.request.runId conclusion state)
      fun _ state => state.scope.fenceLost = none := by
  refine Runs.bind ((quiet_runs (stopSession_runs reason Idles.pure owned)).loosen fun _ _ never => never.2.elim)
    fun _ state _ _ => finish_runs _ _ _ (Intends.ofReason reason)

end Finish

section Settle

/-- The first phase after authority has something a terminal can be made of. -/
theorem recordInterrupt_runs (reason : InterruptReason) (detail : String) :
    Runs (Act env.outside) (recordInterrupt env reason detail) start
      (fun conclusion state => Concluded env.request.runId conclusion state)
      fun _ state => state.scope.fenceLost = none := by
  refine Runs.get ?_
  dsimp only
  split
  · exact finish_runs _ _ _ (Intends.ofReason reason)
  · split
    next terminated => exact writeEarlyTerminalRecord_runs detail fun _ => .inl terminated
    next => exact terminateEarly_runs detail ⟨_, Intends.ofReason reason⟩

theorem incomplete_runs (intended : LifecycleState) (detail : String) :
    Runs (Act env.outside) (incomplete env intended detail) start
      (fun conclusion state => Reported env.request.runId conclusion state) fun _ _ => False := by
  refine Runs.get <| Runs.midway (fun _ state => state.scope = start.scope ∧ .incomplete start.scope ∈ state.log)
    (Runs.modify .reports ⟨rfl, by simp⟩) fun _ state _ told => Runs.pure ?_
  exact .incomplete intended detail (by rw [told.1]) (by rw [told.1]; exact told.2)

theorem interruptFallback_runs (reason : InterruptReason) (detail : String) (failure : Failure) :
    Runs (Act env.outside) (interruptFallback env reason detail failure) start
      (fun conclusion state => Reported env.request.runId conclusion state) fun _ _ => False := by
  refine Runs.midway (fun _ _ => True) (Runs.get ?_) fun _ state _ _ => ?_
  · split
    · exact Runs.pure trivial
    next kept =>
      exact Runs.bind (reachTerminal_runs detail (Intends.ofReason reason) (.inl (by simpa using kept)))
        fun _ _ _ _ => Runs.pure trivial
  · refine Runs.midway (fun _ _ => True) (swallow_runs ?_) fun _ _ _ _ => ?_
    · exact (quiet_runs (flushJournal_runs env.ports)).weaken (fun _ _ _ _ => trivial) fun _ _ _ _ => trivial
    · refine Runs.midway (fun _ _ => True) (swallow_runs ?_) fun _ _ _ _ => incomplete_runs _ _
      exact (release_runs env.ports).weaken (fun _ _ _ _ => trivial) fun _ _ _ _ => trivial

/-- Settling an interrupt always reports something. -/
theorem settleInterrupt_runs (reason : InterruptReason) (owned : start.scope.fenceLost = none) :
    Runs (Act env.outside) (settleInterrupt env reason) start
      (fun conclusion state => Reported env.request.runId conclusion state) fun _ _ => False := by
  refine Runs.bind ((disarm_idles.runs Passes.act).loosen fun _ _ thrown => thrown.1) fun _ disarmed _ passed => ?_
  refine Runs.bind ((quiet_runs (stopSession_runs reason settlement_idles (by rw [passed.scope]; exact owned))).loosen
    fun _ _ never => never.2) fun _ _ _ _ => ?_
  refine Runs.bind ((settlement_idles.runs Passes.act).loosen fun _ _ thrown => thrown.1) fun window _ _ _ => ?_
  refine Runs.recovers ((@recordInterrupt_runs _ (cleanupEnvironment env window) _ reason _).weaken
    (fun _ _ _ concluded => .concluded concluded) fun _ _ _ held => held) fun failure _ _ _ => ?_
  exact @interruptFallback_runs _ (cleanupEnvironment env window) _ reason _ failure

theorem recoveryFailed_runs (window : Boundary) (reported : String) (failure : Failure) (owned : start.scope.fenceLost = none) :
    Runs (Act env.outside) (recoveryFailed env window reported failure) start
      (fun conclusion state => Reported env.request.runId conclusion state) fun _ _ => False := by
  unfold recoveryFailed
  split
  · exact settleInterrupt_runs _ owned
  · exact @incomplete_runs _ (cleanupEnvironment env window) _ _ _

/-- The last resort always reports something. -/
theorem recoverRun_runs (detail : String) :
    Runs (Act env.outside) (recoverRun env detail) start
      (fun conclusion state => Reported env.request.runId conclusion state) fun _ _ => False := by
  refine Runs.bind ((recovery_idles.runs Passes.act).loosen fun _ _ thrown => thrown.1) fun window opened _ _ => Runs.get ?_
  dsimp only
  split
  next lost _ known =>
    refine Runs.rescued (fun _ _ => False) (Runs.bind ((quiet_runs (flushJournal_runs window)).loosen ?_)
      fun _ _ _ _ => @incomplete_runs _ (cleanupEnvironment env window) _ _ _) fun _ _ _ never => never.elim
    exact fun _ _ stopped => by simpa [known] using stopped.2.1
  next authority seen _ _ =>
    refine Runs.recovers ((@finish_runs _ (cleanupEnvironment env window) _ .indeterminate _ authority seen detail
      (.inl rfl)).weaken (fun _ _ _ concluded => .concluded concluded) fun _ _ _ held => held)
      fun failure _ _ owned => recoveryFailed_runs window detail failure owned
  next owned _ =>
    refine Runs.bind (reachTerminal_runs detail (Or.inl rfl : Intends .indeterminate .indeterminate)
      (.inl owned)).certain fun reached ended _ advanced => ?_
    have kept : ended.scope.fenceLost = none := by rw [advanced.1.rest]; exact owned
    refine Runs.rescued (fun _ state => state.scope.fenceLost = none)
      (Runs.bind ((quiet_runs (flushJournal_runs window)).loosen fun _ _ stopped => stopped.2.2)
        fun _ flushed _ flush => Runs.get ?_) fun failure _ _ owned => recoveryFailed_runs window _ failure owned
    split
    · exact (@incomplete_runs _ (cleanupEnvironment env window) _ _ _).certain
    · exact (@writeEarlyTerminalRecord_runs _ (cleanupEnvironment env window) _ _
        (advanced.2.1.undisturbed (quiet_undisturbed flush.1))).weaken (fun _ _ _ concluded => .concluded concluded)
        fun _ _ _ held => held

end Settle

end SecureHome.Orchestration
