import SecureHome.Proofs.TerminalPaths

/-! The footprint of each procedure: the calls it may make, whatever its ports answer.
A run that is ending lands its journal, lets go of what it holds, and records what it
has seen. -/

namespace SecureHome.Orchestration
open Relation Lib Lifecycle Ports RunState Contracts Core Adapters

variable {World Value : Type} {outside : Surroundings World} {env : RunEnvironment World}

/-- A happening of no call but one of a kind. A barred call never was. -/
def Within (calls : Call → Prop) : Happening → Prop
  | .issued call _ _ | .answered call _ => calls call
  | _ => True

/-- The log grew by calls of one kind; what the run established and gathered is as it
was, and so is the table it goes by. -/
structure Keeps (calls : Call → Prop) (before after : Attempt World) : Prop where
  log : ∃ more, after.log = before.log ++ more ∧ ∀ happening ∈ more, Within calls happening
  established : after.scope.established = before.scope.established
  gathered : after.scope.terminalEvidence = before.scope.terminalEvidence
  table : after.scope.machine.table = before.scope.machine.table

variable {calls wider : Call → Prop}

theorem Within.mono {happening : Happening} (within : Within calls happening) (wide : ∀ call, calls call → wider call) :
    Within wider happening := by
  cases happening <;> first | exact wide _ within | trivial

namespace Keeps

variable {before middle after : Attempt World}

theorem refl : Keeps calls before before := ⟨⟨[], by simp⟩, rfl, rfl, rfl⟩

theorem trans (first : Keeps calls before middle) (second : Keeps calls middle after) : Keeps calls before after := by
  obtain ⟨more, grew, within⟩ := first.log
  obtain ⟨others, grown, beyond⟩ := second.log
  refine ⟨⟨more ++ others, by rw [grown, grew, List.append_assoc], fun happening listed => ?_⟩,
    second.established.trans first.established, second.gathered.trans first.gathered, second.table.trans first.table⟩
  exact (List.mem_append.mp listed).elim (within happening) (beyond happening)

theorem mono (keeps : Keeps calls before after) (wide : ∀ call, calls call → wider call) : Keeps wider before after := by
  obtain ⟨more, grew, within⟩ := keeps.log
  exact ⟨⟨more, grew, fun happening listed => (within happening listed).mono wide⟩, keeps.established, keeps.gathered, keeps.table⟩

theorem reached (steps : ReflTransGen (Keeps calls) before after) : Keeps calls before after := by
  induction steps with
  | refl => exact refl
  | tail _ step ih => exact ih.trans step

theorem logs (keeps : Keeps calls before after) : before.log <+: after.log := by
  obtain ⟨more, grew, _⟩ := keeps.log
  exact grew ▸ List.prefix_append _ _

/-- One happening more, at a scope that kept what counts. -/
theorem telling {happening : Happening} (log : after.log = before.log ++ [happening]) (within : Within calls happening)
    (established : after.scope.established = before.scope.established)
    (gathered : after.scope.terminalEvidence = before.scope.terminalEvidence)
    (table : after.scope.machine.table = before.scope.machine.table) : Keeps calls before after :=
  ⟨⟨[happening], log, fun _ only => List.mem_singleton.mp only ▸ within⟩, established, gathered, table⟩

theorem still (log : after.log = before.log) (established : after.scope.established = before.scope.established)
    (gathered : after.scope.terminalEvidence = before.scope.terminalEvidence)
    (table : after.scope.machine.table = before.scope.machine.table) : Keeps calls before after :=
  ⟨⟨[], by simpa using log⟩, established, gathered, table⟩

/-- What the log gained is of the kind. -/
theorem gained (keeps : Keeps calls before after) {happening : Happening} (listed : happening ∈ after.log) :
    happening ∈ before.log ∨ Within calls happening := by
  obtain ⟨more, grew, within⟩ := keeps.log
  rw [grew, List.mem_append] at listed
  exact listed.imp id (within happening)

end Keeps

theorem Passes.keeps {before after : Attempt World} (passed : Passes outside before after) : Keeps calls before after :=
  .still passed.log (by rw [passed.scope]) (by rw [passed.scope]) (by rw [passed.scope])

theorem Idles.takes {procedure : Procedure World Value} {throws : Prop} (idles : Idles outside procedure throws) :
    Takes (Keeps calls) procedure :=
  fun _ => (idles.runs Passes.keeps).weaken (fun _ _ _ _ => trivial) fun _ _ _ _ => trivial

theorem modifyScope_takes {change : RunScope → RunScope}
    (established : ∀ scope, (change scope).established = scope.established := by exact fun _ => rfl)
    (gathered : ∀ scope, (change scope).terminalEvidence = scope.terminalEvidence := by exact fun _ => rfl)
    (table : ∀ scope, (change scope).machine.table = scope.machine.table := by exact fun _ => rfl) :
    Takes (Keeps calls) (modifyScope change : Procedure World Unit) :=
  Takes.modify fun _ => .still rfl (established _) (gathered _) (table _)

theorem swallow_takes {procedure : Procedure World Unit} (takes : Takes (Keeps calls) procedure) :
    Takes (Keeps calls) (swallow procedure) :=
  takes.recovers fun _ => .pure

section Calls

theorem launch_takes (boundary : Boundary) {call : Call} (allowed : calls call) :
    Takes (Keeps calls) (launch outside boundary call) := by
  refine fun start => ((launch_ends boundary call).via ?_ ?_).weaken (fun _ _ _ _ => trivial) fun _ _ _ _ => trivial
  · rintro flight _ ⟨ready, passed, rfl, rfl⟩
    exact .single (passed.keeps.trans (.telling rfl allowed rfl rfl rfl))
  · rintro _ _ ⟨ready, passed, rfl⟩
    exact .single (passed.keeps.trans (.telling rfl trivial rfl rfl rfl))

theorem settle_takes (boundary : Boundary) {call : Call} (flight : Flight (Answer call)) (allowed : calls call) :
    Takes (Keeps calls) (settle outside boundary call flight) := by
  refine fun start => ((settle_ends boundary call flight).via ?_ ?_).weaken (fun _ _ _ _ => trivial) fun _ _ _ _ => trivial
  · rintro answer _ ⟨_, ready, passed, rfl⟩
    exact .single (passed.keeps.trans (.telling rfl allowed rfl rfl rfl))
  · rintro _ _ ⟨passed, _⟩
    exact .single passed.keeps

theorem cross_takes (boundary : Boundary) {call : Call} (allowed : calls call) :
    Takes (Keeps calls) (cross outside boundary call) :=
  (launch_takes boundary allowed).bind fun flight => settle_takes boundary flight allowed

end Calls

section Scope

theorem Attempt.advance_keeps (attempt : Attempt World) (kind : TransitionKind) (cause instant : String) :
    Keeps calls attempt (attempt.advance kind cause instant).2 := by
  have table := (attempt.advanced kind cause instant).table
  unfold Attempt.advance at table ⊢
  dsimp only at table ⊢
  split
  · exact .telling rfl trivial rfl rfl table
  · exact .still rfl rfl rfl table

theorem advance_takes (kind : TransitionKind) (cause : String) : Takes (Keeps calls) (advance outside kind cause) :=
  Takes.get fun _ => (safeNow_idles _).takes.bind fun instant =>
    Takes.modifyGet fun before => before.advance_keeps kind cause instant

theorem project_takes (steps : List ProjectedStep) : Takes (Keeps calls) (project outside steps) :=
  Takes.get fun _ => (instants_idles _ _).takes.bind fun instants => Takes.modifyGet fun before =>
    .still rfl rfl rfl (before.scope.machine.project_table steps instants)

theorem adoptCommitted_takes (capability : CommitCapability) :
    Takes (Keeps calls) (adoptCommitted capability : Procedure World Unit) := by
  refine Takes.bind (Takes.modifyGet fun before => ?_) fun adopted => ?_
  · have table := before.scope.machine.commitProjected_table capability
    unfold Attempt.adopt
    dsimp only
    split
    · refine ⟨⟨_, rfl, fun happening listed => ?_⟩, rfl, rfl, table⟩
      obtain ⟨_, _, rfl⟩ := List.mem_map.mp listed
      trivial
    · exact .still rfl rfl rfl table
  · split
    · exact .pure
    · exact .throw

theorem reachTerminal_takes (kind : TransitionKind) (why : String) : Takes (Keeps calls) (reachTerminal outside kind why) := by
  refine Takes.get fun _ => (advance_takes kind why).bind fun reached => ?_
  split
  · exact .pure
  · dsimp only
    split
    · exact Takes.get fun _ => .pure
    · refine (advance_takes _ _).bind fun again => ?_
      split
      · exact .pure
      · exact Takes.get fun _ => .pure

variable (lands : ∀ fence entryId fact, calls (.append fence entryId fact))

include lands in
theorem flushPending_takes (boundary : Boundary) (entries : Nat) : Takes (Keeps calls) (flushPending outside boundary entries) := by
  induction entries with
  | zero => exact .pure
  | succ entries ih =>
    refine Takes.get fun attempt => ?_
    split
    · exact .pure
    next entry =>
      refine (cross_takes boundary (lands _ _ _)).bind fun answer => ?_
      split
      · exact (modifyScope_takes).bind fun _ => ih
      · exact .pure
      · exact modifyScope_takes

include lands in
theorem flushJournal_takes (boundary : Boundary) : Takes (Keeps calls) (flushJournal outside boundary) := by
  refine Takes.get fun _ => ?_
  split
  · exact .pure
  · refine (modifyScope_takes).bind fun _ => Takes.get fun _ => ?_
    refine (flushPending_takes lands boundary _).recovers fun failure => ?_
    split
    · exact .throw
    · exact .pure

theorem sweep_takes (boundary : Boundary) (owed : List Call) (allowed : ∀ call ∈ owed, calls call) :
    Takes (Keeps calls) (sweep outside boundary owed) := by
  induction owed with
  | nil => exact .pure
  | cons call rest ih =>
    have call_allowed := allowed call (List.mem_cons_self ..)
    refine Takes.bind (Takes.recovers (launch_takes boundary call_allowed).map fun _ => .pure) fun flight => ?_
    refine (ih fun other listed => allowed other (List.mem_cons_of_mem _ listed)).bind fun _ => ?_
    split
    · exact .pure
    next flight => exact swallow_takes ((settle_takes boundary flight call_allowed).bind fun _ => .pure)

variable (discards : ∀ fence workspaceRef, calls (.discard fence workspaceRef))
  (closes : ∀ fence sessionRef, calls (.close fence sessionRef))

include discards closes in
theorem release_takes (boundary : Boundary) : Takes (Keeps calls) (release outside boundary) := by
  refine Takes.get fun attempt => (modifyScope_takes).bind fun _ => ?_
  split
  · exact .pure
  · refine sweep_takes boundary _ fun call owed => ?_
    simp only [RunScope.cleanup, List.mem_append, Option.mem_toList, Option.map_eq_some_iff] at owed
    rcases owed with ⟨workspaceRef, _, rfl⟩ | ⟨sessionRef, _, rfl⟩
    · exact discards _ _
    · exact closes _ _

end Scope

/-- The bundle says what was seen. -/
structure Bundled (seen : Observations) (bundle : EvidenceBundle) : Prop where
  operations : bundle.operations = seen.operations
  gateResults : bundle.gateResults = seen.gateResults
  observed : bundle.observed = seen.observed.changes.map fun change => ⟨change.path, change.kind⟩

/-- The calls of a run that is ending. -/
def Closing (seen : Observations) (ends : LifecycleState → Prop) : Call → Prop
  | .append .. | .write .. | .interrupt .. | .close .. | .discard .. => True
  | .commit commit _ => ends commit.intent.terminal ∧ Bundled seen commit.intent.bundle
  | _ => False

theorem assembleEvidence_bundled {authority : Authority} {terminal : LifecycleState} {detail : String}
    {seen : Observations} {timing : EvidenceTiming} {bundle : EvidenceBundle} {outcome : RunOutcome}
    (assembled : assembleEvidence env authority terminal detail seen timing = .ok bundle outcome) : Bundled seen bundle := by
  unfold assembleEvidence at assembled
  split at assembled
  · cases assembled
  · dsimp only at assembled
    split at assembled
    · cases assembled
    · cases assembled
    next proceeds =>
      cases assembled
      obtain ⟨_, _, _, _, _, _, _, rfl, _⟩ := constructEvidence_proceed proceeds
      exact ⟨rfl, rfl, rfl⟩

section Ending

variable {seen : Observations} {ends : LifecycleState → Prop}

theorem conclude_takes (produced : Produced) (detail : String) :
    Takes (Keeps (Closing seen ends)) (conclude env produced detail) := by
  have lands (fence : RunFence) (entryId : String) (fact : JournalFact) :
      Closing seen ends (.append fence entryId fact) := trivial
  refine (@disarm_idles _ env.outside).takes.bind fun _ => settlement_idles.takes.bind fun ports => ?_
  refine (flushJournal_takes lands ports).bind fun _ => (flushJournal_takes lands ports).bind fun _ => ?_
  exact (release_takes (fun _ _ => trivial) (fun _ _ => trivial) ports).bind fun _ => Takes.get fun _ => .pure

theorem earlyRecordOf_takes (detail : String) : Takes (Keeps calls) (earlyRecordOf env detail) := by
  refine Takes.get fun _ => ?_
  split
  · exact .pure
  · exact (safeNow_idles _).takes.bind fun _ => Takes.get fun _ => .pure

theorem writeEarlyTerminalRecord_takes (detail : String) :
    Takes (Keeps (Closing seen ends)) (writeEarlyTerminalRecord env detail) := by
  refine Takes.get fun _ => ?_
  split
  · exact conclude_takes _ _
  · refine (earlyRecordOf_takes detail).bind fun built => ?_
    split
    · exact conclude_takes _ _
    · refine (modifyScope_takes).bind fun _ => Takes.get fun _ => ?_
      refine (cross_takes _ (by trivial)).bind fun answer => ?_
      split
      · exact (modifyScope_takes).bind fun _ => conclude_takes _ _
      · exact conclude_takes _ _
      · exact (modifyScope_takes).bind fun _ => conclude_takes _ _

theorem terminateEarly_takes (kind : TransitionKind) (detail : String) :
    Takes (Keeps (Closing seen ends)) (terminateEarly env kind detail) := by
  refine Takes.get fun _ => ?_
  split
  · exact conclude_takes _ _
  · refine (reachTerminal_takes kind detail).bind fun reached => ?_
    split
    · exact conclude_takes _ _
    · exact writeEarlyTerminalRecord_takes _

theorem failClosed_takes (why : String) (kind : TransitionKind) :
    Takes (Keeps (Closing seen ends)) (failClosed env why kind) := by
  refine (reachTerminal_takes kind why).bind fun reached => ?_
  split
  · exact conclude_takes _ _
  · exact conclude_takes _ _

theorem concludeCommit_takes (kind : TransitionKind) (detail : String) (capability : CommitCapability)
    (committed : CommitOutcome) :
    Takes (Keeps (Closing seen ends)) (concludeCommit env kind detail capability committed) := by
  unfold concludeCommit
  split
  · refine Takes.bind (Takes.modify fun _ => .still rfl rfl rfl rfl) fun _ => (adoptCommitted_takes capability).bind fun _ => ?_
    exact (modifyScope_takes).bind fun _ => conclude_takes _ _
  · exact (modifyScope_takes).bind fun _ => conclude_takes _ _
  · exact failClosed_takes _ _
  · exact failClosed_takes _ _
  · exact failClosed_takes _ _
  · exact failClosed_takes _ _

theorem sealAndCommit_takes (authority : Authority) (kind : TransitionKind) (detail : String) {terminal : LifecycleState}
    {bundle : EvidenceBundle} (outcome : RunOutcome) (capability : CommitCapability) (may : ends terminal)
    (bundled : Bundled seen bundle) :
    Takes (Keeps (Closing seen ends)) (sealAndCommit env authority kind detail terminal bundle outcome capability) := by
  refine Takes.get fun attempt => ?_
  split
  · exact failClosed_takes _ _
  next eligible prepared =>
    have same := (prepareSeal_ok prepared).1
    refine Takes.bind ((safeNow_idles _).takes.bind fun _ => Takes.get fun _ => .pure) fun event => Takes.get fun _ => ?_
    refine Takes.bind (Takes.get fun ready => cross_takes env.ports ?_) fun committed => concludeCommit_takes _ _ _ _
    exact ⟨may, same ▸ bundled⟩

theorem finish_takes (authority : Authority) (kind : TransitionKind) (detail : String) {terminal : LifecycleState}
    (may : ends terminal) : Takes (Keeps (Closing seen ends)) (finish env authority seen kind detail terminal) := by
  refine Takes.get fun _ => ?_
  split
  · exact conclude_takes _ _
  · refine (safeNow_idles _).takes.bind fun finishedAt => Takes.get fun _ => ?_
    split
    · exact failClosed_takes _ _
    next bundle outcome assembled =>
      refine (project_takes _).bind fun projection => ?_
      split
      · exact failClosed_takes _ _
      · refine (flushJournal_takes (fun _ _ _ => trivial) env.ports).bind fun _ => Takes.get fun _ => ?_
        refine Takes.bind (Takes.modify fun _ => .telling rfl trivial rfl rfl rfl) fun _ => ?_
        refine Takes.get fun _ => ?_
        split
        · exact failClosed_takes _ _
        · exact sealAndCommit_takes authority kind detail outcome _ may (assembleEvidence_bundled assembled)

theorem stopSession_takes {boundary : Procedure World Boundary} (reason : InterruptReason)
    (takes : Takes (Keeps (Closing seen ends)) boundary) :
    Takes (Keeps (Closing seen ends)) (stopSession env boundary reason) := by
  refine Takes.get fun _ => ?_
  dsimp only
  split
  · exact .pure
  · refine takes.bind fun ports => swallow_takes ((cross_takes ports ?_).bind fun _ => .pure)
    trivial

theorem abortRun_takes (authority : Authority) (reason : InterruptReason) (may : ends reason.terminal) :
    Takes (Keeps (Closing seen ends)) (abortRun env authority seen reason) :=
  (stopSession_takes reason .pure).bind fun _ => finish_takes authority _ _ may

end Ending

section Settling

variable {seen : Observations} {ends : LifecycleState → Prop} {start : Attempt World}

/-- What a settlement started here would record is what was seen. -/
def Heeds (seen : Observations) (attempt : Attempt World) : Prop :=
  ∀ authority found, seenBy attempt.scope attempt.scope.established = some (authority, found) → found = seen

theorem Heeds.keeps {before after : Attempt World} (heeds : Heeds seen before) (keeps : Keeps calls before after) :
    Heeds seen after := by
  intro authority found same
  refine heeds authority found ?_
  unfold seenBy at same ⊢
  rw [keeps.established, keeps.gathered] at same
  exact same

/-- Some such thing was seen wherever a settlement starts. -/
theorem heeds_some (attempt : Attempt World) : ∃ seen, Heeds seen attempt := by
  cases known : seenBy attempt.scope attempt.scope.established with
  | none => exact ⟨{}, fun authority found same => by rw [known] at same; cases same⟩
  | some held => exact ⟨held.2, fun authority found same => by rw [known] at same; cases same; rfl⟩

/-- A part whose footprint is known anywhere, then a part that heeds what was seen. -/
theorem Heeds.bind {procedure : Procedure World Value} {Result : Type} {next : Value → Procedure World Result}
    (heeds : Heeds seen start) (takes : Takes (Keeps (Closing seen ends)) procedure)
    (rest : ∀ value state, Heeds seen state →
      Runs (Keeps (Closing seen ends)) (next value) state (fun _ _ => True) fun _ _ => True) :
    Runs (Keeps (Closing seen ends)) (procedure >>= next) start (fun _ _ => True) fun _ _ => True :=
  (takes start).bind fun value state reached _ => rest value state (heeds.keeps (Keeps.reached reached))

theorem incomplete_takes (intended : LifecycleState) (detail : String) :
    Takes (Keeps calls) (incomplete env intended detail) :=
  Takes.get fun _ => Takes.bind (Takes.modify fun _ => .telling rfl trivial rfl rfl rfl)
    fun _ => .pure

theorem interruptTerminal_takes (reason : InterruptReason) (detail : String) :
    Takes (Keeps calls) (interruptTerminal env reason detail) := by
  refine Takes.get fun _ => ?_
  split
  · exact .pure
  · exact (reachTerminal_takes _ _).bind fun _ => .pure

theorem interruptFallback_takes (reason : InterruptReason) (detail : String) (failure : Failure) :
    Takes (Keeps (Closing seen ends)) (interruptFallback env reason detail failure) := by
  refine (interruptTerminal_takes reason detail).bind fun _ => ?_
  refine (swallow_takes (flushJournal_takes (fun _ _ _ => trivial) _)).bind fun _ => ?_
  refine (swallow_takes (release_takes (fun _ _ => trivial) (fun _ _ => trivial) _)).bind fun _ => ?_
  exact incomplete_takes _ _

theorem recordInterrupt_keeps (reason : InterruptReason) (detail : String) (may : ends reason.terminal)
    (heeds : Heeds seen start) :
    Runs (Keeps (Closing seen ends)) (recordInterrupt env reason detail) start (fun _ _ => True) fun _ _ => True := by
  refine Runs.get ?_
  dsimp only
  split
  next authority found known =>
    cases heeds authority found known
    exact finish_takes authority _ _ may start
  next =>
    split
    · exact writeEarlyTerminalRecord_takes _ start
    · exact terminateEarly_takes _ _ start

/-- An interrupted run records the terminal of its reason, over what it had seen. -/
theorem settleInterrupt_keeps (reason : InterruptReason) (may : ends reason.terminal) (heeds : Heeds seen start) :
    Runs (Keeps (Closing seen ends)) (settleInterrupt env reason) start (fun _ _ => True) fun _ _ => True := by
  refine heeds.bind (@disarm_idles _ env.outside).takes fun _ _ heeds => ?_
  refine heeds.bind (stopSession_takes reason settlement_idles.takes) fun _ _ heeds => ?_
  refine heeds.bind settlement_idles.takes fun window _ heeds => ?_
  refine Runs.recovers (recordInterrupt_keeps reason _ may heeds) fun failure state _ _ => ?_
  exact interruptFallback_takes reason _ failure state

theorem recoveryFailed_keeps (window : Boundary) (reported : String) (failure : Failure)
    (may : ∀ reason : InterruptReason, ends reason.terminal) (heeds : Heeds seen start) :
    Runs (Keeps (Closing seen ends)) (recoveryFailed env window reported failure) start (fun _ _ => True)
      fun _ _ => True := by
  unfold recoveryFailed
  split
  · exact settleInterrupt_keeps _ (may _) heeds
  · exact incomplete_takes _ _ start

/-- A recovered run records that nothing could be established, over what it had seen. -/
theorem recoverRun_keeps (detail : String) (may : ∀ reason : InterruptReason, ends reason.terminal)
    (unestablished : ends .indeterminate) (heeds : Heeds seen start) :
    Runs (Keeps (Closing seen ends)) (recoverRun env detail) start (fun _ _ => True) fun _ _ => True := by
  have failing (window : Boundary) (reported : String) {body : Procedure World RunConclusion} {state : Attempt World}
      (heeds : Heeds seen state) (takes : Takes (Keeps (Closing seen ends)) body) :
      Runs (Keeps (Closing seen ends)) (tryCatch body (recoveryFailed env window reported)) state (fun _ _ => True)
        fun _ _ => True :=
    Runs.recovers (takes state) fun failure _ reached _ =>
      recoveryFailed_keeps window reported failure may (heeds.keeps (Keeps.reached reached))
  refine heeds.bind recovery_idles.takes fun window state heeds => Runs.get ?_
  dsimp only
  split
  next => exact failing window _ heeds ((flushJournal_takes (fun _ _ _ => trivial) _).bind fun _ => incomplete_takes _ _)
  next authority found _ known =>
    cases heeds authority found known
    exact failing window _ heeds (finish_takes authority _ _ unestablished)
  next =>
    refine heeds.bind (reachTerminal_takes _ _) fun reached _ heeds => failing window _ heeds ?_
    refine (flushJournal_takes (fun _ _ _ => trivial) _).bind fun _ => Takes.get fun _ => ?_
    split
    · exact incomplete_takes _ _
    · exact writeEarlyTerminalRecord_takes _

end Settling

section Effects

variable {authority : Authority}

theorem emitFrom_takes {emitter : RunEventEmitter} {body : EventBody} (patience : Nat)
    (allowed : ∀ fence event, event.body = body → calls (.emit fence event)) :
    Takes (Keeps calls) (emitFrom env emitter body patience) := by
  induction patience with
  | zero =>
    refine Takes.bind (Takes.modifyGet fun before => ?_) fun _ => .throw
    exact (expire_passes emitter.ports [] before).keeps
  | succ patience ih =>
    refine (clockNow_idles _).takes.bind fun timestamp => Takes.get fun _ => ?_
    dsimp only
    split
    · exact .pure
    · refine Takes.bind (Takes.modify fun _ => .still rfl rfl rfl rfl) fun _ => ?_
      refine Takes.bind (Takes.recovers (cross_takes emitter.ports (allowed _ _ rfl)).map fun failure => ?_) fun emitted => ?_
      · split
        · exact .throw
        · exact .pure
      · split
        · exact .pure
        · exact .pure
        · exact ih
        · exact Takes.bind (Takes.modify fun _ => .still rfl rfl rfl rfl) fun _ => .pure

theorem emit_takes {body : EventBody} (allowed : ∀ fence event, event.body = body → calls (.emit fence event)) :
    Takes (Keeps calls) (emit env authority body) := by
  refine Takes.bind (Takes.modify fun _ => .still rfl rfl rfl rfl) fun _ => ?_
  refine Takes.concludes ((emitFrom_takes _ allowed).bind fun outcome => ?_) (Takes.modify fun _ => .still rfl rfl rfl rfl)
  split
  · exact (modifyScope_takes).bind fun _ => .pure
  · exact Takes.bind .pure fun _ => .pure

variable (lands : ∀ fence entryId fact, calls (.append fence entryId fact))
  (reads : ∀ runId epoch source, calls (.read runId epoch source))
include lands reads

theorem runEpoch_takes (set : AcquisitionSet) (result : EpochResult) (sources : List AuthoritySourceName) :
    Takes (Keeps calls) (runEpoch env set result sources) := by
  have journals (acquisition : JournaledAcquisition) : Takes (Keeps calls) (journalAcquisition env acquisition) :=
    (modifyScope_takes).bind fun _ => flushJournal_takes lands env.ports
  induction sources generalizing set result with
  | nil =>
    refine Takes.get fun _ => ?_
    split
    · exact .pure
    · exact .pure
  | cons source rest ih =>
    refine Takes.get fun _ => ?_
    split
    · exact .pure
    · refine Takes.bind ?_ fun consumed => ?_
      · unfold consume
        split
        · exact .pure
        · split
          · exact .pure
          · refine Takes.bind ((cross_takes env.ports (reads _ _ _)).recovers fun failure => ?_) fun _ => .pure
            split
            · exact .throw
            · exact .pure
      · split
        · exact (journals _).bind fun _ => .pure
        · refine (journals _).bind fun _ => ?_
          split
          · exact .pure
          · exact .pure
          · exact ih _ _

theorem acquire_takes (epoch : AcquisitionEpoch) : Takes (Keeps calls) (acquire env epoch) :=
  runEpoch_takes lands reads _ _ _

end Effects

end SecureHome.Orchestration
