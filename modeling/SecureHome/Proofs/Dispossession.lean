import SecureHome.Adapters.LeasedFinalization
import SecureHome.Proofs.AllOrNone

/-! Records of a superseded generation. A store's fence bars the holder it has seen
superseded from everything but the marker, which asks no store. -/

namespace SecureHome.Adapters.TransactionalFinalization
open Lib Ports RunState CommitParticipants

variable {Event Bundle Early : Type} [Sequenced Event]

/-- The generation a step acts under. -/
def actsUnder (state : TransactionalFinalization Event Bundle Early) : Step Event Bundle Early → Option RunFence
  | .commit commit _ _ => some commit.fence
  | .resume index _ _ | .leaseAnswers index _ => (state.operations[index]?).map (·.commit.fence)
  | .append fence _ _ | .emit fence _ | .write fence _ _ => some fence

/-- What a reader of one run sees of each store. -/
def journalView (state : TransactionalFinalization Event Bundle Early) (run : String) : Option JournaledState :=
  state.stores.journal.readCurrentState state.stores.visibility run

def eventsView (state : TransactionalFinalization Event Bundle Early) (run : String) : List Event :=
  state.stores.events.eventsOf state.stores.visibility run

def evidenceView (state : TransactionalFinalization Event Bundle Early) (run : String) :
    List (RecordedWrite Bundle Early) :=
  state.stores.evidence.writesOf state.stores.visibility run

/-- The step acts for the run, under a generation no earlier than any the store has served it at. -/
def ActsCurrent (state : TransactionalFinalization Event Bundle Early) (action : Step Event Bundle Early)
    (store : FenceLedger) (run : String) : Prop :=
  ∃ fence, actsUnder state action = some fence ∧ fence.runId = run ∧
    ∀ generation, store.Served run generation → generation ≤ fence.generation

/-- Whatever a step makes visible in a store is of no superseded generation. -/
structure NeverOver [DecidableEq Event] [DecidableEq Bundle] [DecidableEq Early]
    (state : TransactionalFinalization Event Bundle Early) (action : Step Event Bundle Early) : Prop where
  journal : ∀ run, (state.step action).journalView run ≠ state.journalView run →
    ActsCurrent state action state.stores.journal.fence run
  events : ∀ run, (state.step action).eventsView run ≠ state.eventsView run →
    ActsCurrent state action state.stores.events.fence run
  evidence : ∀ run, (state.step action).evidenceView run ≠ state.evidenceView run →
    ActsCurrent state action state.stores.evidence.fence run

/-- The step is one that writes the marker of this operation. -/
def Marks (state : TransactionalFinalization Event Bundle Early) (action : Step Event Bundle Early)
    (operation : Operation Event Bundle) : Prop :=
  ∃ index now, action = .resume index false now ∧ state.operations[index]? = some operation ∧
    operation.await = .renewing (some .owned) ∧ state.finalized operation.commit.fence = none ∧
    (∀ owner, state.inFlightByGeneration operation.commit.fence = some owner → owner = operation.commit.commitId) ∧
    operation.commit.expired now = false

/-- No store in which a commit has staged a record has served a later generation of
its run by the time its marker is written. -/
def Undisturbed (state : TransactionalFinalization Event Bundle Early) (action : Step Event Bundle Early) : Prop :=
  ∀ operation, Marks state action operation →
    (operation.commit.intent.transitions ≠ [] → ∀ generation,
      state.stores.journal.fence.Served operation.commit.fence.runId generation →
        generation ≤ operation.commit.fence.generation) ∧
    ((∃ row ∈ state.stores.events.byRun operation.commit.fence.runId,
        row.commitId = some operation.commit.commitId) → ∀ generation,
      state.stores.events.fence.Served operation.commit.fence.runId generation →
        generation ≤ operation.commit.fence.generation) ∧
    ∀ generation, state.stores.evidence.fence.Served operation.commit.fence.runId generation →
      generation ≤ operation.commit.fence.generation

variable {state : TransactionalFinalization Event Bundle Early}

omit [Sequenced Event] in
/-- A store that admits a request has served nothing later. -/
theorem admitted_current {ledger : FenceLedger} {fence : RunFence} (admitted : (ledger.refuse fence).1 = none)
    (generation : Nat) (served : ledger.Served fence.runId generation) : generation ≤ fence.generation := by
  by_contra later
  have := (FenceLedger.refuse_superseded served (Nat.lt_of_not_le later)).1
  simp [admitted] at this

/-- Publishing a commit shows nothing new where it has no rows. -/
theorem visible_unowned {Row : Type} {tag : Row → Option String} (visibility : CommitLedger) {commitId : String}
    {rows : List Row} (absent : owned tag commitId rows = []) :
    visible tag (visibility.publish commitId).isPublished rows = visible tag visibility.isPublished rows := by
  refine List.filter_congr fun row member => ?_
  have foreign : tag row ≠ some commitId := by simpa using List.filter_eq_nil_iff.mp absent row member
  cases mark : tag row with
  | none => rfl
  | some other =>
    have different : other ≠ commitId := fun same => foreign (mark.trans (congrArg some same))
    simp [readable, different]

variable [DecidableEq Event] [DecidableEq Bundle] [DecidableEq Early]

private theorem append_never_over (fence : RunFence) (entryId : String) (fact : JournalFact) :
    NeverOver state (.append fence entryId fact) := by
  obtain ⟨_, pages, _⟩ := InMemoryRunJournal.append_spec state.stores.journal fence entryId fact
  refine ⟨fun run changed => ⟨fence, rfl, ?_, ?_⟩, fun run changed => absurd rfl changed,
    fun run changed => absurd rfl changed⟩
  · by_contra away
    refine changed ?_
    simp only [journalView, step, InMemoryRunJournal.readCurrentState_eq, pages run (.inl (Ne.symm away))]
  · intro generation served
    by_contra later
    refine changed ?_
    obtain rfl : fence.runId = run := by
      by_contra away
      refine changed ?_
      simp only [journalView, step, InMemoryRunJournal.readCurrentState_eq, pages run (.inl (Ne.symm away))]
    have refused := (FenceLedger.refuse_superseded served (Nat.lt_of_not_le later)).1
    simp only [journalView, step, InMemoryRunJournal.readCurrentState_eq, pages fence.runId (.inr refused)]

private theorem emit_never_over (recorded : Recorded state) (fence : RunFence) (event : Event) :
    NeverOver state (.emit fence event) := by
  have emits := RecordingEventSink.emit_spec recorded.events fence event
  have same : ∀ run, (run ≠ fence.runId ∨ (state.stores.events.fence.refuse fence).1.isSome) →
      (state.step (.emit fence event)).eventsView run = state.eventsView run := by
    intro run apart
    simp only [eventsView, step, RecordingEventSink.eventsOf, emits.elsewhere run apart]
  refine ⟨fun run changed => absurd rfl changed, fun run changed => ?_, fun run changed => absurd rfl changed⟩
  have home : fence.runId = run := by
    by_contra away
    exact changed (same run (.inl (Ne.symm away)))
  subst home
  refine ⟨fence, rfl, rfl, admitted_current ?_⟩
  cases refused : (state.stores.events.fence.refuse fence).1 with
  | none => rfl
  | some detail => exact absurd (same fence.runId (.inr (by simp [refused]))) changed

private theorem write_never_over (fence : RunFence) (recordId : String) (record : GovernedRecord Bundle Early) :
    NeverOver state (.write fence recordId record) := by
  obtain ⟨_, refused, writes⟩ := RecordingEvidenceSink.write_spec state.stores.evidence fence recordId record
  refine ⟨fun run changed => absurd rfl changed, fun run changed => absurd rfl changed, fun run changed => ?_⟩
  have home : fence.runId = run := by
    by_contra away
    refine changed ?_
    simp only [evidenceView, step, RecordingEvidenceSink.writesOf_eq]
    rcases writes with same | same <;> rw [same]
    simp [visible, List.filter_append, away, readable]
  subst home
  refine ⟨fence, rfl, rfl, admitted_current ?_⟩
  cases stale : (state.stores.evidence.fence.refuse fence).1 with
  | none => rfl
  | some detail =>
    refine absurd ?_ changed
    simp only [evidenceView, step, RecordingEvidenceSink.writesOf_eq, refused (by simp [stale])]

/-- Short of a marker, a coordinator's step shows no reader anything. -/
private theorem unseen_never_over {action : Step Event Bundle Early} {commitId : String} (recorded : Recorded state)
    (acting : acts state action = some commitId)
    (same : (state.step action).stores.visibility = state.stores.visibility) : NeverOver state action := by
  have readers := (step_untouched recorded action acting).readers same
  exact ⟨fun run changed => absurd (readers run).1 changed, fun run changed => absurd (readers run).2.1 changed,
    fun run changed => absurd (readers run).2.2 changed⟩

/-- What a marker shows is what its operation staged, in its own run. -/
private theorem mark_never_over (recorded : Recorded state) {action : Step Event Bundle Early}
    {operation : Operation Event Bundle} (marks : Marks state action operation) (undisturbed : Undisturbed state action)
    (stores : (state.step action).stores =
      { state.stores with visibility := state.stores.visibility.publish operation.commit.commitId }) :
    NeverOver state action := by
  obtain ⟨journal, events, evidence⟩ := undisturbed operation marks
  obtain ⟨index, now, rfl, found, waiting, _⟩ := marks
  have attempting : operation.await.attempting = true := by simp [waiting, Await.attempting]
  have carries := recorded.carries index operation found attempting
  have under : actsUnder state (.resume index false now) = some operation.commit.fence := by simp [actsUnder, found]
  refine ⟨fun run changed => ?_, fun run changed => ?_, fun run changed => ?_⟩
  · have rows : owned StoredTransition.commitId operation.commit.commitId (state.stores.journal.rows run) ≠ [] := by
      intro absent
      refine changed ?_
      simp only [journalView, stores, InMemoryRunJournal.readCurrentState_eq]
      exact InMemoryRunJournal.viewOf_congr run (visible_unowned _ absent) rfl rfl rfl
    have home : run = operation.commit.fence.runId := by
      by_contra away
      exact rows (carries.noTail run (.inl away))
    have staged : StagedWrite.journal operation.commit.fence.runId operation.commit.commitId ∈ operation.writes := by
      by_contra absent
      exact rows (carries.noTail run (.inr absent))
    subst home
    refine ⟨_, under, rfl, journal fun empty => rows ?_⟩
    rw [(carries.tail staged).owned, empty]
    rfl
  · have shown : ∃ row ∈ state.stores.events.byRun run, row.commitId = some operation.commit.commitId := by
      by_contra none
      refine changed ?_
      have absent : owned StoredEvent.commitId operation.commit.commitId (state.stores.events.byRun run) = [] :=
        List.filter_eq_nil_iff.mpr fun row member tagged => none ⟨row, member, of_decide_eq_true tagged⟩
      have same := visible_unowned state.stores.visibility absent
      simp only [visible, ← CommitLedger.isVisible_eq] at same
      simp only [eventsView, stores, RecordingEventSink.eventsOf, same]
    obtain ⟨row, member, tag⟩ := shown
    obtain ⟨rfl, _⟩ := carries.noEvent run row member tag
    exact ⟨_, under, rfl, events ⟨row, member, tag⟩⟩
  · have home : operation.commit.fence.runId = run := by
      by_contra away
      refine changed ?_
      simp only [evidenceView, stores, RecordingEvidenceSink.writesOf_eq, visible, List.filter_filter]
      refine List.filter_congr fun write member => ?_
      by_cases mine : write.commitId = some operation.commit.commitId
      · have held : write ∈ owned RecordedWrite.commitId operation.commit.commitId state.stores.evidence.writes :=
          mem_owned.mpr ⟨member, mine⟩
        by_cases written : StagedWrite.evidence operation.commit.commitId ∈ operation.writes
        · rw [carries.bundle written] at held
          obtain rfl := List.mem_singleton.mp held
          simp [away]
        · rw [carries.noBundle written] at held
          cases held
      · cases mark : write.commitId with
        | none => rfl
        | some other =>
          have different : other ≠ operation.commit.commitId := fun same => mine (mark.trans (congrArg some same))
          simp [readable, different]
    subst home
    exact ⟨_, under, rfl, evidence⟩

/-- A step that meets the condition records nothing over a successor. -/
theorem undisturbed_never_over (recorded : Recorded state) (action : Step Event Bundle Early)
    (undisturbed : Undisturbed state action) : NeverOver state action := by
  have turn := step_turn recorded.coordinated.shaped action
  have still : ∀ commitId, acts state action = some commitId →
      (state.step action).stores.visibility = state.stores.visibility → NeverOver state action :=
    fun commitId acting same => unseen_never_over recorded acting same
  generalize reached : state.step action = next at turn
  rw [reached] at still
  cases turn with
  | still =>
    refine ⟨fun run changed => ?_, fun run changed => ?_, fun run changed => ?_⟩ <;>
      exact absurd (by rw [reached]) changed
  | answered commit aborted now outcome told => exact still commit.commitId rfl rfl
  | joined commit aborted now index flying => exact still commit.commitId rfl rfl
  | started commit aborted now fresh free continues => exact still commit.commitId rfl continues.steady.2.1
  | continued action index operation suspension claims which found attempting continues =>
    have acting : acts state action = some operation.commit.commitId := by
      rcases which with rfl | rfl | ⟨_, rfl⟩ | ⟨_, _, rfl⟩ <;> simp [acts, found]
    exact still _ acting continues.steady.2.1
  | retired index aborted now operation outcome found waiting =>
    exact still operation.commit.commitId (by simp [acts, found]) rfl
  | published index operation now claims found waiting vacant claimed timely =>
    exact mark_never_over recorded ⟨index, now, rfl, found, waiting, vacant, claimed, timely⟩ undisturbed
      (by rw [reached]; rfl)
  | appended fence entryId fact => exact append_never_over fence entryId fact
  | emitted fence event => exact emit_never_over recorded fence event
  | wrote fence recordId record => exact write_never_over fence recordId record

end SecureHome.Adapters.TransactionalFinalization

namespace SecureHome.Adapters.LeasedFinalization
open Lib Lifecycle Ports RunState TransactionalFinalization

variable {Event Bundle Early : Type} [DecidableEq Event] [Sequenced Event] [DecidableEq Bundle] [DecidableEq Early]

/-- The step a leased step takes in the system, if any. -/
def inner (state : LeasedFinalization Event Bundle Early) :
    LeasedStep Event Bundle Early → Option (Step Event Bundle Early)
  | .grant _ | .expire _ => none
  | .renews operation => (state.system.operations[operation]?).map fun asked =>
    .leaseAnswers operation (if state.lease.renew asked.commit.fence then .owned else .lost)
  | .renewFails operation detail => some (.leaseAnswers operation (.failed detail))
  | .system (.leaseAnswers _ _) => none
  | .system step => if (presents step).all fun fence => fence ∈ state.lease.granted then some step else none

theorem serve_system (state : LeasedFinalization Event Bundle Early) (action : LeasedStep Event Bundle Early) :
    (state.serve action).system = match inner state action with
      | none => state.system
      | some step => state.system.step step := by
  cases action with
  | grant | expire | renewFails => rfl
  | renews operation =>
    simp only [serve, inner]
    cases state.system.operations[operation]? <;> rfl
  | system step =>
    cases step with
    | leaseAnswers => rfl
    | commit | resume | append | emit | write => simp only [serve, inner]; split <;> rfl

private theorem serve_recorded (state : LeasedFinalization Event Bundle Early) (action : LeasedStep Event Bundle Early)
    (recorded : Recorded state.system) : Recorded (state.serve action).system := by
  rw [serve_system]
  cases inner state action with
  | none => exact recorded
  | some step => exact step_recorded recorded step

/-- No step of the schedule records anything of a superseded generation in a store
that has served the successor. -/
def NeverRecordsOver (actions : List (LeasedStep Event Bundle Early)) : Prop :=
  Along serve (fun state action => ∀ step, inner state action = some step → NeverOver state.system step) {} actions

/-- Every marker is written before any store holding records of its commit serves a successor. -/
def UndisturbedMarkers (actions : List (LeasedStep Event Bundle Early)) : Prop :=
  Along serve (fun state action => ∀ step, inner state action = some step → Undisturbed state.system step) {} actions

/-- In every schedule whose markers are undisturbed, no dispossessed holder records
over its successor. -/
theorem never_records_over (actions : List (LeasedStep Event Bundle Early)) (undisturbed : UndisturbedMarkers actions) :
    NeverRecordsOver actions :=
  undisturbed.weaken (fun state => Recorded state.system) serve_recorded
    (fun _ _ recorded clear step taken => undisturbed_never_over recorded step (clear step taken)) .initial

/-- No store has served a generation later than any operation's. -/
def upToDate (state : TransactionalFinalization Event Bundle Early) : Bool :=
  state.operations.all fun operation =>
    [state.stores.journal.fence, state.stores.events.fence, state.stores.evidence.fence].all fun ledger =>
      (ledger.high operation.commit.fence.runId).all (· ≤ operation.commit.fence.generation)

omit [DecidableEq Event] [Sequenced Event] [DecidableEq Bundle] [DecidableEq Early] in
theorem upToDate_undisturbed {state : TransactionalFinalization Event Bundle Early} (current : upToDate state = true)
    (action : Step Event Bundle Early) : Undisturbed state action := by
  rintro operation ⟨index, now, rfl, found, _⟩
  have ledgers := List.all_eq_true.mp current operation (List.mem_of_getElem? found)
  simp only [List.all_cons, List.all_nil, Bool.and_true, Bool.and_eq_true] at ledgers
  have current : ∀ ledger : FenceLedger,
      (ledger.high operation.commit.fence.runId).all (· ≤ operation.commit.fence.generation) = true →
      ∀ generation, ledger.Served operation.commit.fence.runId generation →
        generation ≤ operation.commit.fence.generation := by
    rintro ledger below generation ⟨high, seen, within⟩
    rw [seen] at below
    exact Nat.le_trans within (by simpa using below)
  exact ⟨fun _ => current _ ledgers.1, fun _ => current _ ledgers.2.1, current _ ledgers.2.2⟩

section Schedules

private def tail : TransitionEntry := ⟨"run", .evidenceSealed, .completed, .complete, "sealed", "t0"⟩

private def request : FinalizationCommit EventEnvelope String :=
  { fence := ⟨"run", 1⟩, commitId := "first", intent := ⟨.completed, [tail], ⟨"run.terminated", 4⟩, "bundle"⟩ }

/-- One holder stages its commit and asks the lease, which answers that it owns the run. -/
def asked : List (LeasedStep EventEnvelope String String) :=
  [.grant ⟨"run", 1⟩, .system (.commit request false 0), .system (.resume 0 false 0), .system (.resume 0 false 0),
    .system (.resume 0 false 0), .renews 0]

/-- Before the answer is read the lease expires and is granted again, and the
successor writes to the journal. -/
def overtaken : List (LeasedStep EventEnvelope String String) :=
  asked ++ [.expire "run", .grant ⟨"run", 2⟩,
    .system (.append ⟨"run", 2⟩ "second#j0" (.rejection ⟨"run", .requested, .refuse, .preconditionUnmet, "", "t1"⟩))]

theorem never_records_over_alone : NeverRecordsOver (asked ++ [.system (.resume 0 false 0)]) :=
  never_records_over _ (Along.weaken (fun _ => True)
    (fun _ _ _ => trivial) (fun _ _ _ current step _ => upToDate_undisturbed current step) trivial (by decide))

/-- The marker written after the successor's append shows the superseded holder's tail on top of it. -/
theorem overtaken_records_over : ¬ NeverRecordsOver (overtaken ++ [.system (.resume 0 false 0)]) := by
  intro never
  have last := (Along.append never).2.1 (.resume 0 false 0) rfl
  obtain ⟨fence, under, _, current⟩ := last.journal "run" (by decide)
  have stale : fence = ⟨"run", 1⟩ := Option.some.inj (under.symm.trans (by decide))
  have behind := current 2 ⟨2, by decide, Nat.le_refl 2⟩
  rw [stale] at behind
  exact absurd behind (by decide)

end Schedules

end SecureHome.Adapters.LeasedFinalization
