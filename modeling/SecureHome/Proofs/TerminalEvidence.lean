import SecureHome.Core.Eligibility
import SecureHome.Orchestration.Fixtures
import SecureHome.Proofs.GatheredEvidence

/-! Terminal evidence omits nothing established: whatever was heard is in the running
evidence by the time anything can end the run, and only that is ever sealed. -/

namespace SecureHome.Orchestration
open Relation Lib Lifecycle Ports RunState Contracts Core Adapters

variable {World Value : Type} {outside : Surroundings World} {env : RunEnvironment World} {start : Attempt World}

/-- What plain calls leave standing, with everything heard recorded. -/
structure Steady (core : TrustedCore) (holds : Attempt World → Prop) : Prop where
  plain : ∀ before after, holds before → Keeps Plain before after → holds after
  evidenced : ∀ state, holds state → Evidenced core state

section Phases

variable {core : TrustedCore} {seen : Observations} {holds : Attempt World → Prop} {Result Next : Type}
  {post : Result → Attempt World → Prop} {earned : Next → Attempt World → Prop}

theorem Steady.gathered : Steady core (@Gathered World core seen) :=
  ⟨fun _ _ gathered keeps => gathered.plain keeps, fun _ gathered => gathered.evidenced⟩

theorem Steady.gathering : Steady core (@Gathering World core seen) :=
  ⟨fun _ _ gathering keeps => gathering.plain keeps, fun _ gathering => gathering.gathered.evidenced⟩

theorem Steady.unasked : Steady core (@Unasked World core) :=
  ⟨fun _ _ unasked keeps => unasked.plain keeps, fun _ unasked => unasked.gathered.evidenced⟩

/-- A part that only makes plain calls, then the rest. -/
theorem Steady.bind (steady : Steady core holds) {program : Procedure World Value} {next : Value → Procedure World Result}
    (held : holds start) (takes : Takes (Keeps Plain) program)
    (rest : ∀ value state, holds state → Runs (fun _ _ => True) (next value) state post fun _ => Evidenced core) :
    Runs (fun _ _ => True) (program >>= next) start post fun _ => Evidenced core :=
  Runs.bind ((takes.spans (fun _ => Keeps.refl) Keeps.trans).weaken (fun _ _ _ keeps => steady.plain _ _ held keeps)
    fun _ _ _ keeps => steady.evidenced _ (steady.plain _ _ held keeps)) fun value state _ held => rest value state held

/-- An end of the run, over what was seen. -/
theorem Evidenced.keeping (evidenced : Evidenced core start) {procedure : Procedure World Value}
    (takes : Takes (Keeps (Closing start.scope.terminalEvidence fun _ => True)) procedure) :
    Keeping (Evidenced core) procedure start :=
  (takes.spans (fun _ => Keeps.refl) Keeps.trans).weaken (fun _ _ _ keeps => evidenced.closes keeps)
    fun _ _ _ keeps => evidenced.closes keeps

theorem Gathered.ending (gathered : Gathered core seen start) {procedure : Procedure World RunConclusion}
    (takes : Takes (Keeps (Closing seen fun _ => True)) procedure) :
    Runs (fun _ _ => True) ((PhaseOutcome.terminate : _ → PhaseOutcome Next) <$> procedure) start
      (Yields (Evidenced core) earned) fun _ => Evidenced core :=
  Runs.map (gathered.evidenced.keeping (gathered.seen ▸ takes))

theorem plain_lands (fence : RunFence) (entryId : String) (fact : JournalFact) : Plain (.append fence entryId fact) :=
  ⟨trivial, fun _ _ same => nomatch same⟩

theorem plain_reads (runId : String) (epoch : AcquisitionEpoch) (source : String) : Plain (.read runId epoch source) :=
  ⟨trivial, fun _ _ same => nomatch same⟩

theorem emit_plain {authority : Authority} {body : EventBody} (other : ofCall body = false) :
    Takes (Keeps Plain) (emit env authority body) :=
  emit_takes fun _ event same => ⟨by rw [← same] at other; exact other, fun _ _ call => nomatch call⟩

theorem crossing_plain (boundary : Boundary) {call : Call} (plain : Plain call) :
    Takes (Keeps Plain) (cross outside boundary call) :=
  cross_takes boundary plain

/-- Establishing authority asks the provider for nothing. -/
theorem requested_unasked (unasked : Unasked core start) :
    Runs (fun _ _ => True) (requested env) start (Yields (Evidenced core) fun _ => Unasked core) fun _ => Evidenced core := by
  have ends {procedure : Procedure World RunConclusion} {state : Attempt World} (unasked : Unasked core state)
      (takes : Takes (Keeps (Closing {} fun _ => True)) procedure) :
      Runs (fun _ _ => True) ((PhaseOutcome.terminate : _ → PhaseOutcome Authority) <$> procedure) state
        (Yields (Evidenced core) fun _ => Unasked core) fun _ => Evidenced core :=
    unasked.gathered.ending takes
  refine Steady.unasked.bind unasked interrupted_idles.takes fun signal _ unasked => ?_
  split
  next => exact ends unasked (terminateEarly_takes _ _)
  next =>
    split
    next => exact ends unasked (terminateEarly_takes _ _)
    next wanted _ =>
      refine Steady.unasked.bind unasked (acquire_takes plain_lands plain_reads .production) fun acquired _ unasked => ?_
      split
      next => exact ends unasked (terminateEarly_takes _ _)
      next =>
        split
        next => exact ends unasked (terminateEarly_takes _ _)
        next resolved _ =>
          refine Steady.unasked.bind unasked modifyScope_takes fun _ _ unasked => ?_
          dsimp only
          split
          next => exact ends unasked (terminateEarly_takes _ _)
          next =>
            split
            next => exact ends unasked (terminateEarly_takes _ _)
            next =>
              refine Runs.get (Steady.unasked.bind unasked (Takes.modify fun _ => .still rfl rfl rfl rfl)
                fun _ _ unasked => Runs.pure unasked)

/-- An eligible run asks for no gate twice. -/
theorem profileResolved_unasked (authority : Authority) (eligibility : env.core.decideEligibility = decideEligibility)
    (unasked : Unasked core start) :
    Runs (fun _ _ => True) (profileResolved env authority) start
      (Yields (Evidenced core) fun _ state => Unasked core state ∧ env.request.gates.Nodup) fun _ => Evidenced core := by
  refine Steady.unasked.bind unasked (armProfile_idles _ _).takes fun _ _ unasked => ?_
  refine Steady.unasked.bind unasked interrupted_idles.takes fun signal _ unasked => ?_
  split
  next => exact unasked.gathered.ending (finish_takes _ _ _ trivial)
  next =>
    split
    next => exact unasked.gathered.ending (finish_takes _ _ _ trivial)
    next proceeds =>
      rw [eligibility] at proceeds
      exact Runs.pure ⟨unasked, decideEligibility_distinct proceeds⟩

theorem openSession_unasked (authority : Authority) (unasked : Unasked core start) :
    Runs (fun _ _ => True) (openSession env authority) start (Yields (Evidenced core) fun _ => Unasked core)
      fun _ => Evidenced core := by
  refine Runs.get ?_
  dsimp only
  refine Steady.unasked.bind unasked modifyScope_takes fun _ _ unasked => ?_
  refine Steady.unasked.bind unasked (crossing_plain _ ⟨trivial, fun _ _ same => nomatch same⟩) fun prepared _ unasked => ?_
  split
  next =>
    refine Steady.unasked.bind unasked modifyScope_takes fun _ _ unasked => ?_
    split
    · exact Steady.unasked.bind unasked modifyScope_takes fun _ _ unasked => unasked.gathered.ending (conclude_takes _ _)
    · exact unasked.gathered.ending (finish_takes _ _ _ trivial)
  next handle =>
    refine Steady.unasked.bind unasked modifyScope_takes fun _ _ unasked => ?_
    refine Steady.unasked.bind unasked (crossing_plain _ ⟨trivial, fun _ _ same => nomatch same⟩) fun started _ unasked => ?_
    split
    · exact Steady.unasked.bind unasked modifyScope_takes fun _ _ unasked => unasked.gathered.ending (conclude_takes _ _)
    · exact unasked.gathered.ending (finish_takes _ _ _ trivial)
    · exact Steady.unasked.bind unasked (narrowProfile_idles _).takes fun _ _ unasked => Runs.pure unasked

theorem eligible_unasked (authority : Authority) (unasked : Unasked core start) :
    Runs (fun _ _ => True) (eligible env authority) start (Yields (Evidenced core) fun _ => Unasked core)
      fun _ => Evidenced core := by
  refine Steady.unasked.bind unasked interrupted_idles.takes fun signal _ unasked => ?_
  split
  next => exact unasked.gathered.ending (finish_takes _ _ _ trivial)
  next =>
    split
    next =>
      exact Steady.unasked.bind unasked modifyScope_takes fun _ _ unasked => Runs.pure unasked.gathered.evidenced
    next =>
      refine Runs.get ?_
      dsimp only
      refine Steady.unasked.bind unasked modifyScope_takes fun _ _ unasked => ?_
      refine Steady.unasked.bind unasked (crossing_plain _ ⟨trivial, fun _ _ same => nomatch same⟩) fun answer _ unasked => ?_
      split
      next =>
        refine Steady.unasked.bind unasked modifyScope_takes fun _ _ unasked => ?_
        split
        · exact Steady.unasked.bind unasked modifyScope_takes fun _ _ unasked => unasked.gathered.ending (conclude_takes _ _)
        · exact unasked.gathered.ending (finish_takes _ _ _ trivial)
      next handle =>
        refine Steady.unasked.bind unasked modifyScope_takes fun _ _ unasked => ?_
        exact Steady.unasked.bind unasked (armProfile_idles _ _).takes fun _ _ unasked => openSession_unasked authority unasked

theorem sandboxStarted_unasked (authority : Authority) (unasked : Unasked core start) :
    Runs (fun _ _ => True) (sandboxStarted env authority) start (Yields (Evidenced core) fun _ => Unasked core)
      fun _ => Evidenced core := by
  refine Steady.unasked.bind unasked (emit_plain rfl) fun announced _ unasked => ?_
  split
  next => exact unasked.gathered.ending (finish_takes _ _ _ trivial)
  next =>
    refine Steady.unasked.bind unasked (emit_plain rfl) fun granted _ unasked => ?_
    split
    next => exact unasked.gathered.ending (finish_takes _ _ _ trivial)
    next =>
      refine Steady.unasked.bind unasked interrupted_idles.takes fun signal _ unasked => ?_
      split
      next => exact unasked.gathered.ending (abortRun_takes _ _ trivial)
      next =>
        refine Steady.unasked.bind unasked (crossing_plain _ ⟨trivial, fun _ _ same => nomatch same⟩) fun base _ unasked => ?_
        split
        next => exact unasked.gathered.ending (finish_takes _ _ _ trivial)
        next =>
          split
          next => exact unasked.gathered.ending (finish_takes _ _ _ trivial)
          next => exact Runs.pure unasked

end Phases

section Running

variable {core : TrustedCore} {seen : Observations} {authority : Authority}

theorem observeRun_gathered {operations : EvidenceOperations} {gateResults : GateResults}
    (gathering : Gathering core { operations, gateResults } start) (obeys : env.core = core) :
    Runs (fun _ _ => True) (observeRun env authority operations gateResults) start
      (Yields (Evidenced core) fun next => Gathered core next) fun _ => Evidenced core := by
  subst obeys
  refine Runs.bind (gathering.crossing env.ports (.observe env.request.runId env.request.workspaceRoot)
    (by intro _ _ same; cases same) (by intro _ _ same; cases same)) fun observation state _ crossed => ?_
  obtain ⟨scope, lost, log⟩ := crossed
  have unaccepted (none : acceptedChanges env.core
      [.answered (.observe env.request.runId env.request.workspaceRoot) observation] = []) :
      Gathering env.core { operations, gateResults } state :=
    gathering.hears (by intro _ _ same; cases same) (by intro _ _ same; cases same) log scope rfl rfl none
  split
  next failed =>
    exact (unaccepted (by simp [acceptedChanges, failed])).gathered.ending (finish_takes _ _ _ trivial)
  next refused =>
    exact (unaccepted (by simp [acceptedChanges, refused])).gathered.ending (finish_takes _ _ _ trivial)
  next observed proceeds =>
    have recounts := gathering.gathered.evidenced.recounts
    rw [gathering.gathered.seen] at recounts
    have heard := @Recounts.hears _ _ _ _ _ recounts _ observation lost (.settled observation)
      (by intro _ _ same; cases same) rfl
    have accepted : acceptedChanges env.core
        [.answered (.observe env.request.runId env.request.workspaceRoot) observation] = [observed] := by
      simp [acceptedChanges, proceeds]
    have ungated : reportedGates [.answered (.observe env.request.runId env.request.workspaceRoot) observation] = [] := rfl
    rw [accepted, ungated, List.append_nil, ← log] at heard
    refine Runs.midway (fun _ last => Gathering env.core { operations, gateResults, observed } last)
      (modifyScope_runs trivial ?_) fun _ seen _ gathering => ?_
    · refine gathering.hearing (by intro _ _ same; cases same) log (by simpa using heard) ?_ (by rw [scope])
      dsimp only
      rw [scope, gathering.gathered.seen]
    · refine Steady.gathering.bind gathering (crossing_plain _ ⟨trivial, by intro _ _ same; cases same⟩)
        fun artifacts state _ => ?_
      rename Gathering env.core _ state => gathering
      refine Runs.midway (fun _ last => Gathering env.core ⟨gateResults, observed, artifacts, operations⟩ last)
        (modifyScope_runs trivial ?_) fun _ seen _ gathering => ?_
      · have recounts := gathering.gathered.evidenced.recounts
        rw [gathering.gathered.seen] at recounts
        refine Recounts.gathering recounts ?_ gathering.unobserved gathering.gathered.unsealed
        dsimp only
        rw [gathering.gathered.seen]
      · refine Steady.gathering.bind gathering interrupted_idles.takes fun signal _ gathering => ?_
        split
        next => exact gathering.gathered.ending (abortRun_takes _ _ trivial)
        next => exact Runs.pure gathering.gathered

/-- Every observation the attempt heard can be told from, or told of no call. -/
def Informed (core : TrustedCore) (log : List Happening) : Prop :=
  ∀ invocation observation, .answered (.invoke invocation) (.observed observation) ∈ log →
    core.classifyTerminalObservations observation.terminal = .established ∨ observation.calls = []

/-- Wherever every observation could be told from, the evidence says all of it. -/
def Faithful (core : TrustedCore) (attempt : Attempt World) : Prop := Informed core attempt.log → Evidenced core attempt

theorem Informed.before {core : TrustedCore} {before after : Attempt World} (informed : Informed core after.log)
    (grown : before.log <+: after.log) : Informed core before.log :=
  fun invocation observation listed => informed invocation observation (grown.subset listed)

/-- What is faithful stays so wherever the evidence does. -/
theorem Faithful.onward {core : TrustedCore} {before after : Attempt World} (faithful : Faithful core before)
    (grown : before.log <+: after.log) (kept : Evidenced core before → Evidenced core after) : Faithful core after :=
  fun informed => kept (faithful (informed.before grown))

theorem Faithful.keeping {core : TrustedCore} (faithful : Faithful core start) {procedure : Procedure World Value}
    (takes : Takes (Keeps (Closing start.scope.terminalEvidence fun _ => True)) procedure) :
    Keeping (Faithful core) procedure start :=
  (takes.spans (fun _ => Keeps.refl) Keeps.trans).weaken
    (fun _ _ _ keeps => faithful.onward keeps.logs fun evidenced => evidenced.closes keeps)
    fun _ _ _ keeps => faithful.onward keeps.logs fun evidenced => evidenced.closes keeps

/-- What is evidenced where it ends is faithful there. -/
theorem Yields.faithful {core : TrustedCore} {Next : Type} {earned : Next → Attempt World → Prop}
    {procedure : Procedure World (PhaseOutcome Next)}
    (runs : Runs (fun _ _ => True) procedure start (Yields (Evidenced core) earned) fun _ => Evidenced core) :
    Runs (fun _ _ => True) procedure start (Yields (Faithful core) earned) fun _ => Faithful core := by
  refine runs.weaken (fun outcome state _ yielded => ?_) fun _ _ _ evidenced _ => evidenced
  cases outcome with
  | earned => exact yielded
  | terminate | hold => exact fun _ => yielded

section Recorded

variable {core : TrustedCore} {authority : Authority}

theorem recordObservation_gathered {sessionRef : String} {observation : AdapterObservation}
    (recording : Recording core observation.calls 0 0 start) (none : acknowledgements start.log = 0)
    (informed : core.classifyTerminalObservations observation.terminal = .established ∨ observation.calls = [])
    (distinct : env.request.gates.Nodup) (obeys : env.core = core) :
    Runs (fun _ _ => True) (recordObservation env authority sessionRef observation) start
      (Yields (Evidenced core) fun next => Gathered core next) fun _ => Evidenced core := by
  subst obeys
  unfold recordObservation
  split
  next detail unestablished =>
    have empty : observation.calls = [] := informed.resolve_left (by rw [unestablished]; exact fun same => nomatch same)
    exact (recording.gathering ⟨Nat.le_refl _, by omega, Nat.zero_le _⟩ (.inl (by rw [empty]; rfl))).gathered.ending
      (finish_takes _ _ _ trivial)
  next =>
    refine Runs.bind (recordCalls_recorded observation.calls 0 recording rfl none (Nat.zero_le _))
      fun recorded state _ gathering => ?_
    split
    next detail operations => exact gathering.gathered.ending (finish_takes _ _ _ trivial)
    next operations =>
      refine Steady.gathering.bind gathering (emit_plain rfl) fun completed state gathering => ?_
      split
      next => exact gathering.gathered.ending (finish_takes _ _ _ trivial)
      next =>
        split
        next => exact gathering.gathered.ending (finish_takes _ _ _ trivial)
        next registry _ =>
          refine Runs.bind (runGates_gathering sessionRef gathering distinct) fun ran state _ held => ?_
          split
          next => exact held.gathered.ending (finish_takes _ _ _ trivial)
          next detail =>
            obtain ⟨gateResults, gathering⟩ := held
            exact Steady.gathering.bind gathering modifyScope_takes
              fun _ _ gathering => gathering.gathered.ending (conclude_takes _ _)
          next => exact held.gathered.ending (finish_takes _ _ _ trivial)
          next => exact observeRun_gathered held rfl

/-- The provider is asked, and what it is heard to have done is recorded. -/
theorem running_gathered (unasked : Unasked core start) (distinct : env.request.gates.Nodup) (obeys : env.core = core) :
    Runs (fun _ _ => True) (running env authority) start (Yields (Faithful core) fun next => Gathered core next)
      fun _ => Faithful core := by
  refine Runs.get ?_
  dsimp only
  refine Runs.bind ((emit_plain rfl).spans (fun _ => Keeps.refl) Keeps.trans |>.weaken
    (fun _ _ _ keeps => unasked.plain keeps) fun _ _ _ keeps _ => (unasked.plain keeps).gathered.evidenced)
    fun started state _ unasked => ?_
  split
  next => exact Yields.faithful (unasked.gathered.ending (finish_takes _ _ _ trivial))
  next =>
    refine Runs.bind ((unasked.gathering.crossing env.ports (.invoke _) (by intro _ _ same; cases same)
      (by intro _ _ same; cases same)).loosen fun _ _ evidenced _ => evidenced) fun report heard _ crossed => ?_
    obtain ⟨scope, lost, log⟩ := crossed
    have unobserved (none : receivedCalls [.answered (.invoke _) report] = []) : Gathering core {} heard :=
      unasked.gathering.hears (by intro _ _ same; cases same) (by intro _ _ same; cases same) log scope none rfl rfl
    split
    next detail =>
      refine Yields.faithful (Steady.gathering.bind (unobserved rfl) modifyScope_takes fun _ _ gathering => ?_)
      exact gathering.gathered.ending (conclude_takes _ _)
    next => exact Yields.faithful ((unobserved rfl).gathered.ending (finish_takes _ _ _ trivial))
    next observation =>
      have silent : ∀ happening ∈ state.log, Silent happening := fun happening listed => (unasked.silent happening listed).silent
      have recording : Recording core observation.calls 0 0 heard := by
        refine ⟨by rw [scope, unasked.gathered.seen]; rfl, by rw [scope]; exact unasked.gathering.unobserved,
          fun commit signal lost ending listed => ?_, ?_, fun fence event lost ending listed => ?_, ?_, ?_⟩
        all_goals rw [log] at *
        · simp only [List.mem_append, List.mem_cons, List.not_mem_nil, or_false] at listed
          rcases listed with earlier | made | told
          · exact unasked.gathered.unsealed commit signal lost ending earlier
          · cases made
          · cases told
        · rw [receivedCalls_append, silent_calls silent]
          simp [receivedCalls]
        · simp only [List.mem_append, List.mem_cons, List.not_mem_nil, or_false] at listed
          rcases listed with earlier | made | told
          · have other : ofCall event.body = false := silent _ earlier fence event rfl
            cases named : event.body <;> rw [named] at other <;> trivial
          · cases made
          · cases told
        · rw [reportedGates_append, silent_gates silent]
          rfl
        · rw [acceptedChanges_append, silent_changes silent]
          rfl
      have unheard : acknowledgements heard.log = 0 := by
        rw [log, acknowledgements_append, silent_acknowledgements silent]
        rfl
      by_cases informed : core.classifyTerminalObservations observation.terminal = .established ∨ observation.calls = []
      · exact Yields.faithful (recordObservation_gathered recording unheard informed distinct obeys)
      · -- Nothing is claimed of a run that heard of calls it could not tell the end of.
        have untold {later : Attempt World} (grown : heard.log <+: later.log) : Faithful core later := fun told =>
          absurd (told _ observation (grown.subset (log ▸ List.mem_append_right _ (.tail _ (.head _))))) informed
        unfold recordObservation
        rw [obeys]
        split
        next detail _ =>
          have takes : Takes (Keeps (Closing {} fun _ => True))
            (finish env authority {} .indeterminate detail .indeterminate) := finish_takes _ _ _ trivial
          exact Runs.map ((takes.spans (fun _ => Keeps.refl) Keeps.trans).weaken (fun _ _ _ keeps => untold keeps.logs)
            fun _ _ _ keeps => untold keeps.logs)
        next established => exact absurd (.inl established) informed

end Recorded

theorem unlessInterrupted_evidenced {core : TrustedCore} {seen : Observations} {authority : Authority}
    {next : Procedure World PhaseCommand} {earned : Unit → Attempt World → Prop} (gathered : Gathered core seen start)
    (runs : ∀ state, Gathered core seen state →
      Runs (fun _ _ => True) next state (Yields (Evidenced core) earned) fun _ => Evidenced core) :
    Runs (fun _ _ => True) (unlessInterrupted env authority seen next) start (Yields (Evidenced core) earned)
      fun _ => Evidenced core := by
  refine Steady.gathered.bind gathered interrupted_idles.takes fun signal state gathered => ?_
  split
  next => exact gathered.ending (abortRun_takes _ _ trivial)
  next => exact runs state gathered

theorem materialize_gathered {core : TrustedCore} {seen : Observations} {authority : Authority}
    (gathered : Gathered core seen start) :
    Runs (fun _ _ => True) (materialize env authority seen) start
      (fun ended state => match ended with
        | some _ => Evidenced core state
        | none => Gathered core seen state) fun _ => Evidenced core := by
  have ending {procedure : Procedure World RunConclusion} {state : Attempt World} (gathered : Gathered core seen state)
      (takes : Takes (Keeps (Closing seen fun _ => True)) procedure) :
      Runs (fun _ _ => True) (some <$> procedure) state
        (fun ended state => match ended with
          | some _ => Evidenced core state
          | none => Gathered core seen state) fun _ => Evidenced core :=
    Runs.map (gathered.evidenced.keeping (gathered.seen ▸ takes))
  unfold materialize
  split
  · exact Runs.pure gathered
  · dsimp only
    split
    next => exact ending gathered (finish_takes _ _ _ trivial)
    next =>
      refine Runs.get ?_
      split
      next =>
        split
        next => exact ending gathered (conclude_takes _ _)
        next =>
          refine Steady.gathered.bind gathered (crossing_plain _ ⟨trivial, by intro _ _ same; cases same⟩)
            fun renewed _ gathered => ?_
          split
          next =>
            refine Steady.gathered.bind gathered (crossing_plain _ ⟨trivial, by intro _ _ same; cases same⟩)
              fun applied _ gathered => ?_
            split
            next => exact Runs.pure gathered
            next => exact Steady.gathered.bind gathered modifyScope_takes fun _ _ gathered => ending gathered (conclude_takes _ _)
            next => exact ending gathered (finish_takes _ _ _ trivial)
          next => exact Steady.gathered.bind gathered modifyScope_takes fun _ _ gathered => ending gathered (conclude_takes _ _)
      next => exact Runs.pure gathered

theorem verifying_evidenced {core : TrustedCore} {seen : Observations} {authority : Authority}
    (gathered : Gathered core seen start) :
    Runs (fun _ _ => True) (verifying env authority seen) start (Yields (Evidenced core) fun _ _ => False)
      fun _ => Evidenced core := by
  refine unlessInterrupted_evidenced gathered fun _ gathered => ?_
  refine Steady.gathered.bind gathered (acquire_takes plain_lands plain_reads .verification) fun acquired _ gathered => ?_
  split
  next => exact gathered.ending (finish_takes _ _ _ trivial)
  next =>
    refine Steady.gathered.bind gathered (clockNow_idles _).takes fun _ _ gathered => Runs.get ?_
    dsimp only
    split
    next => exact gathered.ending (finish_takes _ _ _ trivial)
    next => exact gathered.ending (finish_takes _ _ _ trivial)
    next =>
      refine Steady.gathered.bind gathered (crossing_plain _ ⟨trivial, by intro _ _ same; cases same⟩)
        fun _ _ gathered => ?_
      refine unlessInterrupted_evidenced gathered fun _ gathered => ?_
      split
      next => exact gathered.ending (finish_takes _ _ _ trivial)
      next => exact gathered.ending (finish_takes _ _ _ trivial)
      next =>
        refine unlessInterrupted_evidenced gathered fun _ gathered => ?_
        refine Runs.bind (materialize_gathered gathered) fun ended _ _ held => ?_
        split
        next => exact Runs.pure held
        next =>
          exact unlessInterrupted_evidenced held fun _ gathered => gathered.ending (finish_takes _ _ _ trivial)

end Running

section Walk

variable {core : TrustedCore}

/-- A walk the machine refused has seen what its established state says. -/
def Halted (core : TrustedCore) (attempt : Attempt World) : Prop :=
  ∃ seen, Gathered core seen attempt ∧
    ((∀ authority found, attempt.scope.established ≠ .observed authority found) → seen = {})

theorem terminateFromRejection_evidenced (phase : String) (rejection : RejectionEntry) (halted : Halted core start) :
    Keeping (Evidenced core) (terminateFromRejection env phase rejection) start := by
  obtain ⟨seen, gathered, nothing⟩ := halted
  have evidenced := gathered.evidenced
  have same := gathered.seen
  refine Runs.get ?_
  dsimp only
  split
  · split
    next => exact evidenced.keeping (terminateEarly_takes _ _)
    next authority known =>
      refine evidenced.keeping ?_
      rw [same, nothing fun _ _ other => by rw [known] at other; cases other]
      exact finish_takes authority _ _ trivial
    next authority observations known =>
      have found : observations = start.scope.terminalEvidence := evidenced.heeds authority observations (by rw [known]; rfl)
      refine evidenced.keeping ?_
      rw [← found]
      exact finish_takes authority _ _ trivial
  · exact evidenced.keeping (terminateEarly_takes _ _)

theorem withAuthority_unasked {phase : String} {run : Authority → Procedure World PhaseCommand}
    {earned : Unit → Attempt World → Prop} (unasked : Unasked core start)
    (runs : ∀ authority, Runs (fun _ _ => True) (run authority) start (Yields (Evidenced core) earned) fun _ => Evidenced core) :
    Runs (fun _ _ => True) (withAuthority env phase run) start (Yields (Evidenced core) earned) fun _ => Evidenced core := by
  refine Runs.get ?_
  split
  · exact unasked.gathered.ending (terminateEarly_takes _ _)
  · exact runs _
  · exact runs _

/-- A phase entered before the provider is asked, and left so if it earns. -/
theorem unasked_stops {phase : Phase World} {rest : List (Phase World)} (needs next : Prop)
    (unasked : Unasked core start ∧ needs)
    (runs : ∀ state, Unasked core state → needs → Runs (fun _ _ => True) phase.run state
      (Yields (Evidenced core) fun _ state => Unasked core state ∧ next) fun _ => Evidenced core)
    (onward : ∀ state, Unasked core state ∧ next →
      Runs (fun _ _ => True) (walkPhases env rest) state (Stopped (Faithful core) (Halted core)) fun _ => Faithful core) :
    Runs (fun _ _ => True) (walkPhases env (phase :: rest)) start (Stopped (Faithful core) (Halted core))
      fun _ => Faithful core := by
  have spared (before after : Attempt World) (faithful : Faithful core before) (keeps : Keeps Housekeeping before after) :
      Faithful core after :=
    faithful.onward keeps.logs fun evidenced => evidenced.plain (keeps.mono fun _ keeping => keeping.plain)
  have ticking {before after : Attempt World} (unasked : Unasked core before) (ticks : Ticks before after) :
      Unasked core after :=
    unasked.plain (ticks.keeps.mono fun _ keeping => keeping.plain)
  refine walkPhases_stops spared (fun state => Unasked core state ∧ needs) (fun state => Unasked core state ∧ next)
    (fun state => Unasked core state ∧ next)
    (fun _ _ held ticks => ⟨ticking held.1 ticks, held.2⟩) (fun _ held _ => held.1.gathered.evidenced) unasked
    (fun state held => Yields.faithful (runs state held.1 held.2))
    (fun before ready after cause instant result held passed taken => ?_) onward
  have after_held : Unasked core after := by
    have advanced := @Attempt.advance_keeps _ Plain ready phase.earns cause instant
    rw [taken] at advanced
    exact held.1.plain (passed.keeps.trans advanced)
  refine ⟨fun _ => after_held.gathered.evidenced, ?_⟩
  cases result with
  | advanced => exact fun last ticks => ⟨ticking after_held ticks, held.2⟩
  | rejected => exact fun last ticks => ⟨{}, (ticking after_held ticks).gathered, fun _ => rfl⟩

/-- The run's observations are established, and they are what was gathered. -/
def Observed (core : TrustedCore) (attempt : Attempt World) : Prop :=
  ∃ authority seen, attempt.scope.established = .observed authority seen ∧ Gathered core seen attempt

theorem Observed.plain {before after : Attempt World} (observed : Observed core before) (keeps : Keeps Plain before after) :
    Observed core after := by
  obtain ⟨authority, seen, known, gathered⟩ := observed
  exact ⟨authority, seen, by rw [keeps.established]; exact known, gathered.plain keeps⟩

theorem establishing_stops {Next : Type} {safe : Attempt World → Prop} {earned : Next → Attempt World → Prop}
    {kept : Attempt World → Prop} {phase : Procedure World (PhaseOutcome Next)} {established : Next → EstablishedRun}
    (runs : Runs (fun _ _ => True) phase start (Yields safe earned) fun _ => safe)
    (keeps : ∀ next (state : Attempt World), earned next state →
      kept { state with scope := { state.scope with established := established next } }) :
    Runs (fun _ _ => True) (establishing phase established) start (Yields safe fun _ => kept) fun _ => safe := by
  refine Runs.bind runs fun outcome state _ yielded => ?_
  split
  next => exact Runs.pure yielded
  next => exact Runs.pure yielded
  next cause next =>
    exact Runs.midway (fun _ last => kept last) (modifyScope_runs trivial (keeps next state yielded))
      fun _ _ _ held => Runs.pure held

/-- What a run establishes of itself changes nothing it has gathered. -/
theorem Gathering.authorizes {seen : Observations} {attempt : Attempt World} (gathering : Gathering core seen attempt)
    (authority : Authority) :
    Gathering core seen { attempt with scope := { attempt.scope with established := .authorized authority } } := by
  have recounts := gathering.gathered.evidenced.recounts
  rw [gathering.gathered.seen] at recounts
  refine Recounts.gathering recounts gathering.gathered.seen ?_ gathering.gathered.unsealed
  exact fun _ _ same => nomatch same

theorem Gathered.observes {seen : Observations} {attempt : Attempt World} (gathered : Gathered core seen attempt)
    (authority : Authority) :
    Observed core { attempt with scope := { attempt.scope with established := .observed authority seen } } := by
  refine ⟨authority, seen, rfl, gathered.seen, ⟨gathered.evidenced.recounts, gathered.evidenced.bundled, ?_⟩,
    gathered.unsealed⟩
  intro authority found same
  cases same
  exact gathered.seen.symm

theorem phases_faithful (unasked : Unasked env.core start) (eligibility : env.core.decideEligibility = decideEligibility) :
    Runs (fun _ _ => True) (walkPhases env (phases env)) start (Stopped (Faithful env.core) (Halted env.core))
      fun _ => Faithful env.core := by
  have spared (before after : Attempt World) (faithful : Faithful env.core before)
      (keeps : Keeps Housekeeping before after) : Faithful env.core after :=
    faithful.onward keeps.logs fun evidenced => evidenced.plain (keeps.mono fun _ keeping => keeping.plain)
  have ticking {before after : Attempt World} (ticks : Ticks before after) : Keeps Plain before after :=
    ticks.keeps.mono fun _ keeping => keeping.plain
  have advancing {kind : TransitionKind} {before ready after : Attempt World} {cause instant : String}
      {result : TransitionResult} (passed : Passes env.outside before ready)
      (taken : ready.advance kind cause instant = (result, after)) : Keeps Plain before after :=
    passed.keeps.trans (by have kept := @Attempt.advance_keeps _ Plain ready kind cause instant; rwa [taken] at kept)
  refine unasked_stops True True ⟨unasked, trivial⟩ (fun state unasked _ => ?_) fun state ready => ?_
  · exact establishing_stops (requested_unasked unasked) fun authority _ unasked =>
      ⟨⟨unasked.gathering.authorizes authority, unasked.silent⟩, trivial⟩
  refine unasked_stops True env.request.gates.Nodup ready (fun state unasked _ => ?_) fun state ready => ?_
  · exact withAuthority_unasked unasked fun authority => profileResolved_unasked authority eligibility unasked
  refine unasked_stops env.request.gates.Nodup env.request.gates.Nodup ready (fun state unasked distinct => ?_) fun state ready => ?_
  · exact withAuthority_unasked unasked fun authority => (eligible_unasked authority unasked).weaken
      (fun outcome _ _ yielded => by cases outcome <;> first | exact ⟨yielded, distinct⟩ | exact yielded) fun _ _ _ held => held
  refine unasked_stops env.request.gates.Nodup env.request.gates.Nodup ready (fun state unasked distinct => ?_) fun state ready => ?_
  · exact withAuthority_unasked unasked fun authority => (sandboxStarted_unasked authority unasked).weaken
      (fun outcome _ _ yielded => by cases outcome <;> first | exact ⟨yielded, distinct⟩ | exact yielded) fun _ _ _ held => held
  refine walkPhases_stops spared (fun state => Unasked env.core state ∧ env.request.gates.Nodup) (Observed env.core)
    (Observed env.core)
    (fun _ _ held ticks => ⟨held.1.plain (ticking ticks), held.2⟩) (fun _ held _ => held.1.gathered.evidenced) ready
    (fun state held => ?_) (fun before ready after cause instant result observed passed taken => ?_) fun state ready => ?_
  · have gathers (authority : Authority) : Runs (fun _ _ => True)
        (establishing (running env authority) (.observed authority)) state
        (Yields (Faithful env.core) fun _ => Observed env.core) fun _ => Faithful env.core :=
      establishing_stops (running_gathered held.1 held.2 rfl) fun next _ gathered => gathered.observes authority
    refine Runs.get ?_
    split
    · exact Yields.faithful (held.1.gathered.ending (terminateEarly_takes _ _))
    · exact gathers _
    · exact gathers _
  · have reached : Observed env.core after := observed.plain (advancing passed taken)
    refine ⟨fun _ => ?_, ?_⟩
    · obtain ⟨_, _, _, gathered⟩ := reached
      exact gathered.evidenced
    · cases result with
      | advanced => exact fun last ticks => reached.plain (ticking ticks)
      | rejected =>
        intro last ticks
        obtain ⟨authority, seen, known, gathered⟩ := reached.plain (ticking ticks)
        exact ⟨seen, gathered, fun never => absurd known (never authority seen)⟩
  refine walkPhases_stops spared (Observed env.core) (fun _ => False) (fun _ => False)
    (fun _ _ observed ticks => observed.plain (ticking ticks))
    (fun _ ⟨_, _, _, gathered⟩ _ => gathered.evidenced) ready
    (fun state ⟨authority, seen, known, gathered⟩ => ?_) (fun _ _ _ _ _ _ never => never.elim) fun _ never => never.elim
  refine Runs.get ?_
  rw [known]
  exact Yields.faithful (verifying_evidenced gathered)

/-- A settlement records what the run had seen, or what nothing is claimed of. -/
theorem Faithful.settling (faithful : Faithful core start) {procedure : Procedure World Value}
    (settles : ∀ seen, Heeds seen start →
      Runs (Keeps (Closing seen fun _ => True)) procedure start (fun _ _ => True) fun _ _ => True) :
    Keeping (Faithful core) procedure start := by
  by_cases informed : Informed core start.log
  · have evidenced := faithful informed
    exact (settles _ evidenced.heeds).traced.weaken (fun _ _ _ held _ => evidenced.closes (Keeps.reached held.1))
      fun _ _ _ held _ => evidenced.closes (Keeps.reached held.1)
  · obtain ⟨seen, heeds⟩ := heeds_some start
    exact (settles seen heeds).traced.weaken
      (fun _ _ _ held told => absurd (told.before (Keeps.reached held.1).logs) informed)
      fun _ _ _ held told => absurd (told.before (Keeps.reached held.1).logs) informed

/-- A bundle leaves out nothing of what its run established, in every run whose adapter
observations are established or tell of no call. -/
theorem evidence_omits_nothing (env : RunEnvironment World) (world : World)
    (eligibility : env.core.decideEligibility = decideEligibility) :
    ∃ conclusion last, run env (unclaimed env.request world) = .ok conclusion last ∧
      (Informed env.core last.log → ∀ commit signal lost ending, .issued (.commit commit signal) lost ending ∈ last.log →
        Recounts env.core last.log commit.intent.bundle.operations commit.intent.bundle.gateResults
          commit.intent.bundle.observed) := by
  obtain ⟨conclusion, last, ran, _⟩ := run_resolves env world
  refine ⟨conclusion, last, ran, fun informed commit signal lost ending made => ?_⟩
  have spared (before after : Attempt World) (faithful : Faithful env.core before)
      (keeps : Keeps Housekeeping before after) : Faithful env.core after :=
    faithful.onward keeps.logs fun evidenced => evidenced.plain (keeps.mono fun _ keeping => keeping.plain)
  have begun (generation : Nat) (startedAt : String) (before : Attempt World)
      (unwalked : ∀ happening ∈ before.log, Unwalked happening) :
      Unasked env.core { before with scope := beginning env.request env.controls generation startedAt } :=
    unasked_of_silent (fun happening listed => (unwalked happening listed).within.mono fun _ keeping => keeping.plain) rfl
      fun _ _ same => nomatch same
  have kept := run_keeps spared ran
    (fun reason state faithful => faithful.settling fun seen heeds => settleInterrupt_keeps reason trivial heeds)
    (fun detail state faithful => faithful.settling fun seen heeds =>
      recoverRun_keeps detail (fun _ => trivial) trivial heeds)
    (fun phase rejection state halted => (terminateFromRejection_evidenced phase rejection halted).weaken
      (fun _ _ _ evidenced _ => evidenced) fun _ _ _ evidenced _ => evidenced)
    (fun generation startedAt before unwalked _ => (begun generation startedAt before unwalked).gathered.evidenced)
    (fun generation startedAt before unwalked => phases_faithful (begun generation startedAt before unwalked) eligibility)
  rcases kept with unwalked | faithful
  · exact absurd (unwalked _ made).2 (by simp [aboutClaim])
  · have evidenced := faithful informed
    have bundled := evidenced.bundled commit signal lost ending made
    rw [bundled.operations, bundled.gateResults, bundled.observed]
    exact evidenced.recounts

end Walk

/-- The fixture core, with the eligibility the source decides. -/
def eligibleCore : TrustedCore := { fixtureCore with decideEligibility := decideEligibility }

/-- A request with a gate to run. -/
def gatedRequest : RunRequest := { fixtureRequest with gates := ["lint"] }

/-- A provider that made one call, and how it ended. -/
def callingProvider (terminal : TerminalObservations) : Surroundings Unit := portsWith fun
  | .invoke .., world => some (.settled (.observed ⟨[⟨"household.read", .permitted⟩], terminal⟩), world)
  | _, _ => none

/-- The provider ends cleanly, a bundle is committed, and all that was told is established. -/
def calledEnded : Ended (environment (callingProvider { exitCode := some 0 }) eligibleCore gatedRequest {}) ()
    (fun conclusion last => conclusion.produced == .evidenceBundle &&
      (last.log.any fun
        | .issued (.commit ..) _ _ => true
        | _ => false) &&
      last.log.all fun
        | .answered (.invoke _) (.observed observation) =>
          eligibleCore.classifyTerminalObservations observation.terminal == .established
        | _ => true) :=
  ⟨by decide +kernel⟩

/-- The provider ends cleanly, and the bundle lists its call. -/
theorem evidence_omits_nothing_called :
    ∃ conclusion last, run (environment (callingProvider { exitCode := some 0 }) eligibleCore gatedRequest {})
        (unclaimed gatedRequest ()) = .ok conclusion last ∧ conclusion.produced = .evidenceBundle ∧
      ∃ commit signal lost ending, .issued (.commit commit signal) lost ending ∈ last.log ∧
        Recounts eligibleCore last.log commit.intent.bundle.operations commit.intent.bundle.gateResults
          commit.intent.bundle.observed := by
  obtain ⟨conclusion, last, ran, checked⟩ := endsWith_iff.mp calledEnded.ends
  simp only [Bool.and_eq_true, beq_iff_eq, List.any_eq_true, List.all_eq_true] at checked
  obtain ⟨⟨produced, happening, listed, made⟩, told⟩ := checked
  obtain ⟨_, _, same, recounts⟩ := evidence_omits_nothing
    (environment (callingProvider { exitCode := some 0 }) eligibleCore gatedRequest {}) () rfl
  cases ran.symm.trans same
  refine ⟨conclusion, last, ran, produced, ?_⟩
  split at made
  next commit signal lost ending =>
    refine ⟨commit, signal, lost, ending, listed, recounts (fun invocation observation heard => .inl ?_) _ _ _ _ listed⟩
    exact beq_iff_eq.mp (told _ heard)
  · cases made

/-- The run of a provider that reports a clean exit and a signal: one call is received, every event asked for is emitted,
and what is committed lists no call. -/
def signalledEnded : Ended (environment (callingProvider { exitCode := some 0, signalled := some "SIGTERM" }) eligibleCore
    gatedRequest {}) () (fun conclusion last =>
      conclusion.kind == .terminal && last.deadline.reason == none && (receivedCalls last.log).length == 1 &&
        acknowledgements last.log == 0 &&
        (last.log.all fun
          | .issued (.emit ..) _ ending => match ending with
            | .settled .ok => true
            | _ => false
          | _ => true) &&
        last.log.any fun
          | .issued (.commit commit _) _ ending => match ending with
            | .settled .ok => commit.intent.bundle.operations == {}
            | _ => false
          | _ => false) :=
  ⟨by decide +kernel⟩

/-- A provider reports a clean exit and a signal: its call is received, no event of it is
asked for, nothing interrupts, and the bundle that is committed lists no call. -/
theorem omits_received_call :
    ∃ conclusion last, run (environment (callingProvider { exitCode := some 0, signalled := some "SIGTERM" }) eligibleCore
        gatedRequest {}) (unclaimed gatedRequest ()) = .ok conclusion last ∧
      conclusion.kind = .terminal ∧ last.deadline.reason = none ∧
      (receivedCalls last.log).length = 1 ∧ acknowledgements last.log = 0 ∧
      (∀ fence event lost ending, .issued (.emit fence event) lost ending ∈ last.log → ending = .settled .ok) ∧
      ∃ commit signal lost, .issued (.commit commit signal) lost (.settled .ok) ∈ last.log ∧
        commit.intent.bundle.operations = {} ∧
        ¬ Recounts eligibleCore last.log commit.intent.bundle.operations commit.intent.bundle.gateResults
          commit.intent.bundle.observed := by
  obtain ⟨conclusion, last, ran, checked⟩ := endsWith_iff.mp signalledEnded.ends
  simp only [Bool.and_eq_true, beq_iff_eq, List.any_eq_true, List.all_eq_true] at checked
  obtain ⟨⟨⟨⟨⟨kind, calm⟩, one⟩, none⟩, emitted⟩, happening, listed, made⟩ := checked
  refine ⟨conclusion, last, ran, kind, calm, one, none, fun fence event lost ending asked => ?_, ?_⟩
  · have acknowledged := emitted _ asked
    dsimp only at acknowledged
    split at acknowledged
    · rfl
    · cases acknowledged
  · split at made
    next commit signal lost ending =>
      split at made
      next =>
        have nothing : commit.intent.bundle.operations = {} := by simpa using made
        refine ⟨commit, signal, lost, listed, nothing, fun recounts => ?_⟩
        obtain ⟨attempted, disposed, same, less, _, _, cut⟩ := recounts.received
        rw [nothing] at same
        have unlisted : ((numbered (receivedCalls last.log)).take attempted).length = 0 := by
          have lists := congrArg (fun operations => operations.attempted.length) same
          simpa [operationsOf] using lists.symm
        have length : (numbered (receivedCalls last.log)).length = 1 := by simp [numbered, one]
        rw [List.length_take, length] at unlisted
        omega
      · cases made
    · cases made

end SecureHome.Orchestration
