import SecureHome.Proofs.TerminalPaths

/-! What a phase does besides ending the run: acquiring, emitting, recording and
running gates are quiet, and go on only while no loss is known. -/

namespace SecureHome.Orchestration
open Relation Lib Lifecycle Ports RunState Contracts Core Adapters

variable {World Value : Type} {outside : Surroundings World} {env : RunEnvironment World} {start : Attempt World}

section Acquiring

theorem journalAcquisition_runs (acquisition : JournaledAcquisition) :
    Runs (Quiet env.outside) (journalAcquisition env acquisition) start (fun _ _ => True)
      fun _ state => state.scope.fenceLost = none := by
  refine Runs.midway (fun _ _ => True) (modifyScope_runs (.records _ fun _ same => by cases same) trivial)
    fun _ state _ _ => ?_
  exact (flushJournal_runs env.ports).weaken (fun _ _ _ _ => trivial) fun _ _ _ stopped => stopped.2

theorem consume_runs (set : AcquisitionSet) (source : AuthoritySourceName) (owned : start.scope.fenceLost = none) :
    Runs (Quiet env.outside) (consume env set source) start (fun _ _ => True)
      fun _ state => state.scope.fenceLost = none := by
  unfold consume
  split
  · exact Runs.pure trivial
  · split
    · exact Runs.pure trivial
    · refine Runs.midway (fun _ _ => True) (Runs.rescued (fun _ state => state.scope = start.scope)
        ((ordinary_runs env.ports fun ready same => ?_).weaken (fun _ _ _ _ => trivial) fun _ _ _ same => same)
        fun failure state _ same => ?_) fun _ _ _ _ => Runs.pure trivial
      · simpa only [Ordinary, same] using owned
      · split
        · exact Runs.throw (by rw [same]; exact owned)
        · exact Runs.pure trivial

theorem runEpoch_runs (set : AcquisitionSet) (result : EpochResult) (sources : List AuthoritySourceName) :
    Runs (Quiet env.outside) (runEpoch env set result sources) start
      (fun acquired state => acquired.isOk = true → state.scope.fenceLost = none)
      fun _ state => state.scope.fenceLost = none := by
  induction sources generalizing set result start with
  | nil =>
    refine Runs.get ?_
    split
    · exact Runs.pure fun ok => by cases ok
    next owned => exact Runs.pure fun _ => owned
  | cons source rest ih =>
    refine Runs.get ?_
    split
    · exact Runs.pure fun ok => by cases ok
    next owned =>
      refine Runs.bind (consume_runs set source owned) fun consumed state _ _ => ?_
      split
      · exact Runs.bind (journalAcquisition_runs _) fun _ _ _ _ => Runs.pure fun ok => by cases ok
      · refine Runs.bind (journalAcquisition_runs _) fun _ _ _ _ => ?_
        split
        · exact Runs.pure fun ok => by cases ok
        · exact Runs.pure fun ok => by cases ok
        · exact ih _ _

/-- An epoch that succeeds knows of no loss. -/
theorem acquire_runs (epoch : AcquisitionEpoch) :
    Runs (Quiet env.outside) (acquire env epoch) start
      (fun acquired state => acquired.isOk = true → state.scope.fenceLost = none)
      fun _ state => state.scope.fenceLost = none :=
  runEpoch_runs _ _ _

end Acquiring

section Emitting

variable {authority : Authority}

theorem emitFrom_runs {emitter : RunEventEmitter} {body : EventBody} (patience : Nat) (owned : start.scope.fenceLost = none)
    (ongoing : ∀ outcome, body ≠ .runTerminated outcome) :
    Runs (Quiet env.outside) (emitFrom env emitter body patience) start (fun _ state => state.scope = start.scope)
      fun _ state => state.scope = start.scope := by
  induction patience generalizing start with
  | zero =>
    refine Runs.midway (fun _ state => state.scope = start.scope) (Runs.modifyGet (.single ?_) ?_)
      fun _ _ _ same => Runs.throw same
    · exact (expire_passes emitter.ports [] start).quiet
    · exact (expire_passes emitter.ports [] start).scope
  | succ patience ih =>
    refine Runs.bind (((clockNow_idles _).runs Passes.quiet).loosen fun _ _ thrown => thrown.2.scope)
      fun timestamp clocked _ passed => Runs.get ?_
    dsimp only
    split
    · exact Runs.pure passed.scope
    · have moves (next : Attempt World) (sequence : Nat) : Passes env.outside next { next with sequence } :=
        ⟨.refl, rfl, rfl, rfl, fun _ held => held, fun _ held => held⟩
      refine Runs.midway (fun _ state => state.scope = start.scope) (Runs.modify (moves clocked _).quiet passed.scope)
        fun _ moved _ same => ?_
      refine Runs.midway (fun _ state => state.scope = start.scope) (Runs.rescued (fun _ state => state.scope = start.scope) (Runs.map ((ordinary_runs emitter.ports fun ready still => ?_).weaken
          (fun _ _ _ heard => heard.1.trans same) fun _ _ _ still => still.trans same)) fun failure state _ still => ?_)
        fun emitted state _ same => ?_
      · simp only [Ordinary, still, same]
        exact ⟨owned, ongoing⟩
      · split
        · exact Runs.throw still
        · exact Runs.pure still
      · split
        · exact Runs.pure same
        · exact Runs.pure same
        · exact (ih (by rw [same]; exact owned)).weaken (fun _ _ _ still => still.trans same)
            fun _ _ _ still => still.trans same
        · exact Runs.midway (fun _ last => last.scope = start.scope) (Runs.modify (moves state _).quiet same)
            fun _ _ _ same => Runs.pure same

/-- An emission that succeeds knows of no loss. -/
theorem emit_runs {body : EventBody} (owned : start.scope.fenceLost = none)
    (ongoing : ∀ outcome, body ≠ .runTerminated outcome) :
    Runs (Quiet env.outside) (emit env authority body) start
      (fun outcome state => ∀ event, outcome = .ok event → state.scope.fenceLost = none)
      fun _ state => state.scope.fenceLost = none := by
  have moves (next : Attempt World) (ledger : FinalizationLedger) : Passes env.outside next { next with ledger } :=
    ⟨.refl, rfl, rfl, rfl, fun _ held => held, fun _ held => held⟩
  refine Runs.midway (fun _ state => state.scope = start.scope) (Runs.modify (moves start _).quiet rfl)
    fun _ opened _ same => ?_
  have owned : opened.scope.fenceLost = none := by rw [same]; exact owned
  refine Runs.concludes (fun outcome state => ∀ event, outcome = .ok event → state.scope.fenceLost = none)
    (fun _ state => state.scope.fenceLost = none) (Runs.bind ((emitFrom_runs _ owned ongoing).loosen ?_) ?_) ?_ ?_
  · exact fun _ _ same => by rw [same]; exact owned
  · intro outcome state _ same
    split
    · exact Runs.midway (fun _ _ => True) (modifyScope_runs (.loses _) trivial)
        fun _ _ _ _ => Runs.pure fun _ ok => by cases ok
    · exact Runs.midway (fun _ last => last.scope = state.scope) (Runs.pure rfl)
        fun _ last _ still => Runs.pure fun _ _ => by rw [still, same]; exact owned
  · exact fun _ state _ held => Runs.modify (moves state _).quiet held
  · exact fun _ state _ held => Runs.modify (moves state _).quiet held

theorem account_runs (operations : EvidenceOperations) (owned : start.scope.fenceLost = none) :
    Runs (Quiet outside) (account operations) start (fun _ state => state.scope.fenceLost = none)
      fun _ state => state.scope.fenceLost = none :=
  modifyScope_runs (.gathers _) owned

theorem recordCalls_runs (index : Nat) (operations : EvidenceOperations) (calls : List AdapterCall)
    (owned : start.scope.fenceLost = none) :
    Runs (Quiet env.outside) (recordCalls env authority index operations calls) start
      (fun recorded state => recorded.1.isOk = true → state.scope.fenceLost = none)
      fun _ state => state.scope.fenceLost = none := by
  induction calls generalizing index operations start with
  | nil => exact Runs.pure fun _ => owned
  | cons call rest ih =>
    refine Runs.bind (account_runs _ owned) fun _ _ _ owned => ?_
    refine Runs.bind (emit_runs owned fun _ same => by cases same) fun attempted _ _ kept => ?_
    split
    · exact Runs.pure fun ok => by cases ok
    next event =>
      refine Runs.bind (account_runs _ (kept event rfl)) fun _ _ _ owned => ?_
      refine Runs.bind (emit_runs owned fun _ same => by cases same) fun disposed _ _ kept => ?_
      split
      · exact Runs.pure fun ok => by cases ok
      next event => exact ih _ _ (kept event rfl)

end Emitting

section Gates

theorem runPlan_runs (sessionRef : String) (recorder : DispositionRecorder) (plan : List (String × GateEntry))
    (owned : start.scope.fenceLost = none) :
    Runs (Quiet env.outside) (runPlan env sessionRef recorder plan) start (fun _ state => state.scope.fenceLost = none)
      fun _ state => state.scope.fenceLost = none := by
  induction plan generalizing recorder start with
  | nil => exact Runs.pure owned
  | cons scheduled rest ih =>
    refine Runs.get <| Runs.bind ((ordinary_runs env.ports fun ready same => ?_).loosen ?_) fun report state _ heard => ?_
    · simpa only [Ordinary, same] using owned
    · exact fun _ _ same => by rw [same]; exact owned
    · have owned : state.scope.fenceLost = none := by rw [heard.1]; exact owned
      split
      · exact Runs.pure owned
      · split
        · exact Runs.pure owned
        · split
          · exact Runs.pure owned
          · exact Runs.midway (fun _ state => state.scope.fenceLost = none) (modifyScope_runs (.gathers _) owned)
              fun _ _ _ owned => ih _ owned

theorem runGates_runs (registry : GateRegistry) (sessionRef : String) (owned : start.scope.fenceLost = none) :
    Runs (Quiet env.outside) (runGates env registry sessionRef) start (fun _ state => state.scope.fenceLost = none)
      fun _ state => state.scope.fenceLost = none := by
  unfold runGates
  split
  · exact Runs.pure owned
  · exact runPlan_runs _ _ _ owned

end Gates

end SecureHome.Orchestration
