import SecureHome.Proofs.CommitRecords
import SecureHome.Proofs.SingleTerminal

/-! All or none: in every reachable state a commit shows whole or not at all, and a
commit that did not publish leaves nothing of itself behind. -/

namespace SecureHome.Adapters.TransactionalFinalization
open Lib Ports RunState CommitParticipants

variable {Event Bundle Early : Type} [Sequenced Event]

/-- The stores agree with the coordinator about every commit there is. -/
structure Recorded (state : TransactionalFinalization Event Bundle Early) : Prop where
  coordinated : Coordinated state
  events : state.stores.events.Valid state.stores.visibility
  clear : ∀ commitId, state.stores.visibility.isPublished commitId = false →
    (∀ (index : Nat) operation, state.operations[index]? = some operation → operation.commit.commitId = commitId →
      operation.await.attempting = false) → state.stores.Clear commitId
  carries : ∀ (index : Nat) operation, state.operations[index]? = some operation →
    operation.await.attempting = true → state.stores.Carries operation.commit operation.writes
  complete : ∀ publication ∈ state.publications, state.stores.Complete publication.commit

theorem Recorded.initial : Recorded ({} : TransactionalFinalization Event Bundle Early) := by
  refine ⟨.initial, .initial _, fun commitId _ _ => ⟨fun _ => rfl, nofun, rfl⟩, by simp, by simp⟩

variable {state : TransactionalFinalization Event Bundle Early}

omit [Sequenced Event] in
/-- What an attempt has staged is a shape of progress. -/
theorem shaped_progress {operation : Operation Event Bundle} (shaped : Shaped operation)
    (attempting : operation.await.attempting = true) : ∃ next, Progress operation.commit operation.writes next := by
  unfold Shaped at shaped
  unfold Operation.writes
  cases waiting : operation.await with
  | preparing preparation staging =>
    rw [waiting] at shaped
    cases staging with
    | ok write => exact ⟨_, shaped.2 write rfl⟩
    | refused reason detail => exact ⟨_, shaped.1⟩
  | renewing answer => rw [waiting] at shaped; exact ⟨_, shaped⟩
  | returned | settled => rw [waiting] at attempting; cases attempting

/-- Steps that every commit's records survive keep the stores in agreement. -/
private theorem respected (recorded : Recorded state) {next : TransactionalFinalization Event Bundle Early}
    (coordinated : Coordinated next) (events : next.stores.events.Valid next.stores.visibility)
    (same : next.stores.visibility = state.stores.visibility) (publications : next.publications = state.publications)
    (operations : ∀ (index : Nat) operation, next.operations[index]? = some operation →
      operation.await.attempting = true → state.operations[index]? = some operation)
    (asleep : ∀ (index : Nat) operation, state.operations[index]? = some operation →
      operation.await.attempting = true → next.operations[index]? = some operation)
    (respects : ∀ commitId, Respects commitId state.stores next.stores) : Recorded next := by
  refine ⟨coordinated, events, fun commitId hidden quiet => ?_, fun index operation found attempting => ?_,
    fun publication member => ?_⟩
  · refine (recorded.clear commitId (same ▸ hidden) fun index operation found named => ?_).respect (respects commitId)
    by_contra awake
    have attempting : operation.await.attempting = true := by simpa using awake
    exact awake (quiet index operation (asleep index operation found attempting) named)
  · exact (recorded.carries index operation (operations index operation found attempting) attempting).respect
      (respects operation.commit.commitId)
  · exact (recorded.complete publication (publications ▸ member)).respect (respects publication.commit.commitId)

/-- A step of one attempt: its own records move, everybody else's stay. -/
private theorem stepped (recorded : Recorded state) {next : TransactionalFinalization Event Bundle Early}
    (coordinated : Coordinated next) {commit : FinalizationCommit Event Bundle} (index : Nat)
    {operation : Operation Event Bundle} (named : operation.commit = commit) (hidden : state.stores.visibility.isPublished commit.commitId = false)
    (moves : Moves commit.commitId state.stores next.stores) (publications : next.publications = state.publications)
    (at_ : next.operations[index]? = some operation)
    (others : ∀ (other : Nat) current, other ≠ index →
      (next.operations[other]? = some current ↔ state.operations[other]? = some current))
    (apart : ∀ (other : Nat) current, other ≠ index → state.operations[other]? = some current →
      current.await.attempting = true → current.commit.commitId ≠ commit.commitId)
    (free : ∀ current, state.operations[index]? = some current → current.commit.commitId = commit.commitId)
    (awake : operation.await.attempting = true → next.stores.Carries commit operation.writes)
    (idle : operation.await.attempting = false → next.stores.Clear commit.commitId) : Recorded next := by
  refine ⟨coordinated, moves.events, fun commitId unpublished quiet => ?_, fun other current found attempting => ?_,
    fun publication member => ?_⟩
  · by_cases mine : commitId = commit.commitId
    · subst mine
      exact idle (quiet index operation at_ (by rw [named]))
    · refine (recorded.clear commitId (moves.visibility ▸ unpublished) fun other current found same => ?_).respect
        (moves.respects mine)
      by_cases here : other = index
      · subst here
        exact absurd (same.symm.trans (free current found)) mine
      · exact quiet other current ((others other current here).mpr found) same
  · by_cases here : other = index
    · subst here
      obtain rfl := Option.some.inj (at_.symm.trans found)
      rw [named]
      exact awake attempting
    · have before := (others other current here).mp found
      exact (recorded.carries other current before attempting).respect
        (moves.respects (apart other current here before attempting))
  · have written : publication ∈ state.publications := publications ▸ member
    have different : publication.commit.commitId ≠ commit.commitId := fun same => by
      rw [(recorded.coordinated.published _).mpr ⟨publication, written, same⟩] at hidden
      cases hidden
    exact (recorded.complete publication written).respect (moves.respects different)

/-- The marker makes what the attempt carries the whole commit. -/
theorem carries_complete {stores : CommitParticipants Event Bundle Early} {commit : FinalizationCommit Event Bundle}
    {writes : List (StagedWrite Event)} (progress : Progress commit writes none) (carries : stores.Carries commit writes)
    (events : stores.events.Valid stores.visibility) :
    ({ stores with visibility := stores.visibility.publish commit.commitId } :
      CommitParticipants Event Bundle Early).Complete commit := by
  cases progress with
  | sealed handle =>
    refine ⟨carries.tail (by simp), ?_, carries.bundle (by simp)⟩
    have placed := carries.event handle (by simp)
    have grows := (SinkHistory.publish_sink events commit.commitId).2.events commit.fence.runId
    cases handle with
    | settled owner => exact grows.subset placed
    | row identity owner row =>
      obtain ⟨rfl, proper, ⟨stored, fact⟩ | shown⟩ := placed
      · exact List.mem_map.mpr ⟨row, List.mem_filter.mpr ⟨stored, by simp [proper.tagged]⟩, fact⟩
      · exact grows.subset shown

theorem publish_respects {stores : CommitParticipants Event Bundle Early} (events : stores.events.Valid stores.visibility)
    (commitId other : String) :
    Respects other stores { stores with visibility := stores.visibility.publish commitId } :=
  ⟨fun _ => rfl, fun _ _ contiguous => contiguous, (SinkHistory.publish_sink events commitId).2,
    fun _ _ member _ => .inl member, fun _ _ member _ => member, rfl⟩

private theorem published (recorded : Recorded state) {index now : Nat} {operation : Operation Event Bundle}
    (claims : RunFence → Option String) (found : state.operations[index]? = some operation)
    (waiting : operation.await = .renewing (some .owned))
    (coordinated : Coordinated (publish { state with inFlightByGeneration := claims } index operation false now)) :
    Recorded (publish { state with inFlightByGeneration := claims } index operation false now) := by
  have attempting : operation.await.attempting = true := by simp [waiting, Await.attempting]
  have shape := recorded.coordinated.shaped index operation found
  have ready : Progress operation.commit operation.writes none := by
    have same : operation.writes = operation.staged := by simp [Operation.writes, waiting]
    rw [same]
    simpa only [Shaped, waiting] using shape
  have respects := publish_respects recorded.events operation.commit.commitId
  refine ⟨coordinated, (SinkHistory.publish_sink recorded.events _).1, fun commitId hidden quiet => ?_,
    fun other current at_ awake => ?_, fun publication member => ?_⟩
  · have different : commitId ≠ operation.commit.commitId := fun same => by simp [publish, same] at hidden
    refine (recorded.clear commitId (by simpa [publish, different] using hidden) fun other current at_ named => ?_).respect
      (respects commitId)
    by_cases here : other = index
    · subst here
      obtain rfl := Option.some.inj (found.symm.trans at_)
      exact absurd named.symm different
    · exact quiet other current (by simpa [publish, List.getElem?_set_ne (Ne.symm here)] using at_) named
  · rcases get_set at_ with ⟨_, rfl⟩ | ⟨_, before⟩
    · cases awake
    · exact (recorded.carries other current before awake).respect (respects _)
  · rcases List.mem_append.mp member with member | last
    · exact (recorded.complete publication member).respect (respects _)
    · rw [List.mem_singleton.mp last]
      exact carries_complete ready (recorded.carries index operation found attempting) recorded.events

variable [DecidableEq Event] [DecidableEq Bundle] [DecidableEq Early]

/-- Every step keeps the stores and the coordinator in agreement. -/
theorem step_recorded (recorded : Recorded state) (action : Step Event Bundle Early) : Recorded (state.step action) := by
  have coordinated := step_coordinated recorded.coordinated action
  have turn := step_turn recorded.coordinated.shaped action
  generalize state.step action = next at turn coordinated
  cases turn with
  | still => exact recorded
  | answered | joined =>
    exact respected recorded coordinated recorded.events rfl rfl (fun _ _ found _ => found) (fun _ _ found _ => found)
      fun commitId => .refl commitId _
  | started commit aborted now fresh free continues =>
    obtain ⟨same, _⟩ := continues.steady
    have quiet : ∀ (index : Nat) operation, state.operations[index]? = some operation →
        operation.commit.commitId = commit.commitId → operation.await.attempting = false := by
      intro index operation found named
      by_contra awake
      have flying := recorded.coordinated.flying index operation found
        (attempting_unsettled (by simpa using awake)).1
      rw [named, free] at flying
      cases flying
    obtain ⟨moves, awake, idle⟩ := continues_records recorded.events fresh ⟨_, .start⟩
      (recorded.clear commit.commitId fresh quiet).carries continues
    refine stepped recorded coordinated state.operations.length same fresh moves rfl ?_ ?_ ?_ ?_ awake idle
    · simp [start, recordCall]
    · intro other current away
      simp only [start, recordCall, List.getElem?_append]
      split
      · rfl
      next beyond =>
        have late : state.operations.length < other := by omega
        rw [List.getElem?_eq_none (by simp; omega), List.getElem?_eq_none (by omega)]
    · intro other current _ found attempting named
      rw [quiet other current found named] at attempting
      cases attempting
    · intro current found
      rw [List.getElem?_eq_none (Nat.le_refl _)] at found
      cases found
  | continued action index operation suspension claims _ found attempting continues =>
    obtain ⟨same, _⟩ := continues.steady
    obtain ⟨awake, withheld⟩ := attempting_unsettled attempting
    have hidden := recorded.coordinated.hidden index operation found withheld
    obtain ⟨moves, carries, idle⟩ := continues_records recorded.events hidden
      (shaped_progress (recorded.coordinated.shaped index operation found) attempting)
      (recorded.carries index operation found attempting) continues
    refine stepped recorded coordinated index same hidden moves rfl (set_self found _) ?_ ?_ ?_ carries idle
    · intro other current away
      simp only [store, List.getElem?_set_ne (Ne.symm away)]
    · intro other current away at_ attempts named
      exact away (recorded.coordinated.exclusive found awake at_ (attempting_unsettled attempts).1 named)
    · intro current at_
      rw [Option.some.inj (at_.symm.trans found)]
  | published index operation now claims found waiting vacant claimed timely =>
    exact published recorded claims found waiting coordinated
  | retired index aborted now operation outcome found waiting =>
    refine respected recorded coordinated recorded.events rfl rfl ?_ ?_ fun commitId => .refl commitId _
    · intro other current at_ attempting
      rcases get_set at_ with ⟨_, rfl⟩ | ⟨_, before⟩
      · cases attempting
      · exact before
    · intro other current at_ attempting
      have away : other ≠ index := by
        rintro rfl
        rw [Option.some.inj (at_.symm.trans found), waiting] at attempting
        cases attempting
      simpa [retire, List.getElem?_set_ne (Ne.symm away)] using at_
  | appended fence entryId fact =>
    exact respected recorded coordinated recorded.events rfl rfl (fun _ _ found _ => found) (fun _ _ found _ => found)
      fun commitId => append_respects state.stores commitId fence entryId fact
  | emitted fence event =>
    exact respected recorded coordinated (RecordingEventSink.emit_spec recorded.events fence event).valid rfl rfl
      (fun _ _ found _ => found) (fun _ _ found _ => found)
      fun commitId => emit_respects state.stores commitId recorded.events fence event
  | wrote fence recordId record =>
    exact respected recorded coordinated recorded.events rfl rfl (fun _ _ found _ => found) (fun _ _ found _ => found)
      fun commitId => write_respects state.stores commitId fence recordId record

theorem recorded_after (steps : List (Step Event Bundle Early)) :
    Recorded (after step ({} : TransactionalFinalization Event Bundle Early) steps) :=
  invariant_after Recorded (fun _ action recorded => step_recorded recorded action) .initial steps

/-- The commit a step of the coordinator is for. -/
def acts (state : TransactionalFinalization Event Bundle Early) : Step Event Bundle Early → Option String
  | .commit commit _ _ => some commit.commitId
  | .resume index _ _ | .leaseAnswers index _ => (state.operations[index]?).map (·.commit.commitId)
  | .append _ _ _ | .emit _ _ | .write _ _ _ => none

/-- Nothing of anybody else's moved, and short of a marker no reader saw a change. -/
structure Untouched (commitId : String) (before after : CommitParticipants Event Bundle Early) : Prop where
  tail : ∀ run, others StoredTransition.commitId commitId (after.journal.rows run) =
    others StoredTransition.commitId commitId (before.journal.rows run)
  page : ∀ run, (after.journal.page run).rejections = (before.journal.page run).rejections ∧
    (after.journal.page run).acquisitions = (before.journal.page run).acquisitions ∧
    (after.journal.page run).held = (before.journal.page run).held
  events : RecordingEventSink.Frames commitId before.events after.events
  bundle : others RecordedWrite.commitId commitId after.evidence.writes =
    others RecordedWrite.commitId commitId before.evidence.writes
  landed : after.evidence.landed = before.evidence.landed
  readers : after.visibility = before.visibility → ∀ run,
    after.journal.readCurrentState after.visibility run = before.journal.readCurrentState before.visibility run ∧
    after.events.eventsOf after.visibility run = before.events.eventsOf before.visibility run ∧
    after.evidence.writesOf after.visibility run = before.evidence.writesOf before.visibility run

omit [DecidableEq Event] [DecidableEq Bundle] [DecidableEq Early] in
theorem moves_untouched {commitId : String} {before after : CommitParticipants Event Bundle Early}
    (moves : Moves commitId before after) (hidden : before.visibility.isPublished commitId = false) :
    Untouched commitId before after := by
  refine ⟨fun run => (moves.journal run).1.others, fun run => (moves.journal run).2, moves.frames,
    moves.evidence.1.others, moves.evidence.2, fun same run => ⟨?_, ?_, ?_⟩⟩
  · rw [same]; exact moves.journal.read hidden run
  · rw [same]
    have rows : ∀ rows : List (StoredEvent Event), rows.filter (fun row => before.visibility.isVisible row.commitId) =
        visible StoredEvent.commitId before.visibility.isPublished (others StoredEvent.commitId commitId rows) := by
      intro rows
      rw [visible_others hidden]
      simp only [visible, CommitLedger.isVisible_eq]
    simp only [RecordingEventSink.eventsOf, rows, moves.frames.rows run]
  · rw [same]; exact moves.evidence.read hidden run

omit [Sequenced Event] [DecidableEq Event] [DecidableEq Bundle] [DecidableEq Early] in
theorem stores_untouched {commitId : String} {before after : CommitParticipants Event Bundle Early}
    (journal : after.journal = before.journal) (events : after.events = before.events)
    (evidence : after.evidence = before.evidence) : Untouched commitId before after := by
  refine ⟨fun _ => by rw [journal], fun _ => by rw [journal]; exact ⟨rfl, rfl, rfl⟩, events ▸ .refl _ _,
    by rw [evidence], by rw [evidence], fun same run => by rw [journal, events, evidence, same]; exact ⟨rfl, rfl, rfl⟩⟩

theorem step_untouched (recorded : Recorded state) (action : Step Event Bundle Early) {commitId : String}
    (acting : acts state action = some commitId) : Untouched commitId state.stores (state.step action).stores := by
  have turn := step_turn recorded.coordinated.shaped action
  generalize state.step action = next at turn
  cases turn with
  | still | answered | joined | retired => exact stores_untouched rfl rfl rfl
  | published => exact stores_untouched rfl rfl rfl
  | started commit aborted now fresh free continues =>
    obtain rfl : commit.commitId = commitId := Option.some.inj acting
    have quiet : ∀ (index : Nat) operation, state.operations[index]? = some operation →
        operation.commit.commitId = commit.commitId → operation.await.attempting = false := by
      intro index operation found named
      by_contra awake
      have flying := recorded.coordinated.flying index operation found
        (attempting_unsettled (by simpa using awake)).1
      rw [named, free] at flying
      cases flying
    exact moves_untouched (continues_records recorded.events fresh ⟨_, .start⟩
      (recorded.clear commit.commitId fresh quiet).carries continues).1 fresh
  | continued action index operation suspension claims which found attempting continues =>
    have mine : operation.commit.commitId = commitId := by
      have : acts state action = some operation.commit.commitId := by
        rcases which with rfl | rfl | ⟨_, rfl⟩ | ⟨_, _, rfl⟩ <;> simp [acts, found]
      exact Option.some.inj (this.symm.trans acting)
    subst mine
    have hidden := recorded.coordinated.hidden index operation found (attempting_unsettled attempting).2
    exact moves_untouched (continues_records recorded.events hidden
      (shaped_progress (recorded.coordinated.shaped index operation found) attempting)
      (recorded.carries index operation found attempting) continues).1 hidden
  | appended | emitted | wrote => cases acting

/-- No store, page or reservation holds a record of the commit. -/
structure NoResidue (stores : CommitParticipants Event Bundle Early) (commitId : String) : Prop
    extends stores.Clear commitId where
  reservations : ∀ identity, ∀ stage ∈ stores.events.stagesAt identity, stage.1 ≠ commitId

omit [DecidableEq Event] [DecidableEq Bundle] [DecidableEq Early] in
theorem clear_noResidue {stores : CommitParticipants Event Bundle Early} {commitId : String}
    (events : stores.events.Valid stores.visibility) (clear : stores.Clear commitId) : NoResidue stores commitId := by
  refine ⟨clear, fun identity stage member same => ?_⟩
  unfold RecordingEventSink.stagesAt at member
  cases found : stores.events.reserved identity with
  | none => simp [found] at member
  | some reservation =>
    rw [found] at member
    obtain ⟨tag, _, stored⟩ := (events.held identity reservation found).2.2.2 stage.1 stage.2 member
    exact clear.events _ _ stored (same ▸ tag)

/-- Everything a reader is shown of a published commit: its tail in order and once,
its bundle once, and its terminal event. -/
structure Whole (stores : CommitParticipants Event Bundle Early) (commit : FinalizationCommit Event Bundle) : Prop where
  tail : ∃ before rest, visible StoredTransition.commitId stores.visibility.isPublished
      (stores.journal.rows commit.fence.runId) =
      before ++ InMemoryRunJournal.stagedRows commit.commitId commit.intent.transitions ++ rest ∧
    owned StoredTransition.commitId commit.commitId before = [] ∧
    owned StoredTransition.commitId commit.commitId rest = [] ∧
    (commit.intent.transitions ≠ [] →
      ∃ view, stores.journal.readCurrentState stores.visibility commit.fence.runId = some view ∧
        view.transitions = before.map (·.entry) ++ commit.intent.transitions ++ rest.map (·.entry))
  event : commit.intent.event ∈ stores.events.eventsOf stores.visibility commit.fence.runId
  bundle : (stores.evidence.writesOf stores.visibility commit.fence.runId).filter (·.commitId = some commit.commitId) =
    [⟨commit.fence.runId, .evidenceBundle commit.intent.bundle, some commit.commitId⟩]

omit [DecidableEq Event] [DecidableEq Bundle] [DecidableEq Early] [Sequenced Event] in
theorem complete_whole {stores : CommitParticipants Event Bundle Early} {commit : FinalizationCommit Event Bundle}
    (complete : stores.Complete commit) (shown : stores.visibility.isPublished commit.commitId = true) :
    Whole stores commit := by
  refine ⟨?_, complete.event, ?_⟩
  · obtain ⟨before, rest, rows, clear, clear'⟩ := complete.tail.visible shown
    refine ⟨before, rest, rows, clear, clear', fun nonempty => ?_⟩
    have entries : (InMemoryRunJournal.stagedRows commit.commitId commit.intent.transitions).map (·.entry) =
        commit.intent.transitions := by simp [InMemoryRunJournal.stagedRows, Function.comp_def]
    rw [InMemoryRunJournal.readCurrentState_eq]
    have listed : ((visible StoredTransition.commitId stores.visibility.isPublished
        (stores.journal.page commit.fence.runId).transitions).map (·.entry)) =
        before.map (·.entry) ++ commit.intent.transitions ++ rest.map (·.entry) := by
      have rows' := congrArg (List.map (·.entry)) rows
      rw [List.map_append, List.map_append, entries] at rows'
      exact rows'
    have filled : (before.map (·.entry) ++ commit.intent.transitions ++ rest.map (·.entry)).isEmpty = false := by
      simp [nonempty]
    simp only [InMemoryRunJournal.viewOf, listed, filled, Bool.false_and, Bool.false_eq_true, if_false]
    exact ⟨_, rfl, rfl⟩
  · rw [RecordingEvidenceSink.writesOf_eq]
    have seen : ∀ write : RecordedWrite Bundle Early, write.commitId = some commit.commitId →
        readable stores.visibility.isPublished write.commitId = true := by
      intro write tag; simpa [tag, readable] using shown
    have mine : (stores.evidence.writes.filter fun write => write.commitId = some commit.commitId) =
        [⟨commit.fence.runId, .evidenceBundle commit.intent.bundle, some commit.commitId⟩] := complete.bundle
    have swapped : ∀ writes : List (RecordedWrite Bundle Early),
        ((visible RecordedWrite.commitId stores.visibility.isPublished writes).filter
          (·.runId = commit.fence.runId)).filter (fun write => write.commitId = some commit.commitId) =
        (writes.filter fun write => write.commitId = some commit.commitId).filter (·.runId = commit.fence.runId) := by
      intro writes
      simp only [visible, List.filter_filter]
      refine List.filter_congr fun write _ => ?_
      by_cases tag : write.commitId = some commit.commitId
      · simp [tag, readable, shown]
      · simp [tag]
    rw [swapped, mine]
    simp

/-- The tail a run's own machine projected: not empty, and every entry names the run. -/
def NamesRun (commit : FinalizationCommit Event Bundle) : Prop :=
  commit.intent.transitions ≠ [] ∧ ∀ entry ∈ commit.intent.transitions, entry.runId = commit.fence.runId

/-- All of a commit or none of it, now and for ever after. -/
structure AllOrNone (state : TransactionalFinalization Event Bundle Early) : Prop where
  /-- Of a commit that is not published no reader sees a record. -/
  nothing : ∀ commitId, (∀ publication ∈ state.publications, publication.commit.commitId ≠ commitId) → ∀ run,
    owned StoredTransition.commitId commitId
      (visible StoredTransition.commitId state.stores.visibility.isPublished (state.stores.journal.rows run)) = [] ∧
    (∀ row ∈ state.stores.events.byRun run, row.commitId = some commitId →
      state.stores.visibility.isVisible row.commitId = false) ∧
    ∀ write ∈ state.stores.evidence.writesOf state.stores.visibility run, write.commitId ≠ some commitId
  /-- Of a published commit every reader sees all of it, in every later state. -/
  everything : ∀ publication ∈ state.publications, ∀ more : List (Step Event Bundle Early),
    publication ∈ (after step state more).publications ∧ Whole (after step state more).stores publication.commit
  acknowledged : ∀ commit answer, (commit, answer) ∈ state.calls → state.answerOf answer = some .ok →
    ∃ publication ∈ state.publications, publication.commit.commitId = commit.commitId ∧
      publication.commit.intent = commit.intent ∧
      (NamesRun commit → NamesRun publication.commit → publication.commit.fence.runId = commit.fence.runId)
  /-- A refused attempt has already taken everything back. -/
  refused : ∀ (index : Nat) operation reason detail, state.operations[index]? = some operation →
    operation.await = .returned (.refused reason detail) → NoResidue state.stores operation.commit.commitId
  /-- So has every call answered a refusal, unless an attempt under its identity is under way. -/
  residue : ∀ commit answer reason detail, (commit, answer) ∈ state.calls →
    state.answerOf answer = some (.refused reason detail) →
    state.stores.visibility.isPublished commit.commitId = false →
    (∀ (index : Nat) operation, state.operations[index]? = some operation →
      operation.commit.commitId = commit.commitId → operation.await.attempting = false) →
    NoResidue state.stores commit.commitId
  /-- A call answered at once touched no store. -/
  turnedAway : ∀ commit aborted now outcome,
    (state.commit commit aborted now).calls = state.calls ++ [(commit, .answered outcome)] →
    (state.commit commit aborted now).stores = state.stores
  untouched : ∀ action commitId, acts state action = some commitId →
    Untouched commitId state.stores (state.step action).stores

theorem publications_grow (state : TransactionalFinalization Event Bundle Early)
    (coordinated : Coordinated state) (action : Step Event Bundle Early) :
    state.publications <+: (state.step action).publications := by
  have turn := step_turn coordinated.shaped action
  generalize state.step action = next at turn
  cases turn with
  | published => exact List.prefix_append _ _
  | _ => exact List.prefix_refl _

theorem Recorded.allOrNone (recorded : Recorded state) : AllOrNone state := by
  have coordinated := recorded.coordinated
  have unpublished : ∀ commitId, (∀ publication ∈ state.publications, publication.commit.commitId ≠ commitId) →
      state.stores.visibility.isPublished commitId = false := by
    intro commitId absent
    by_contra shown
    obtain ⟨publication, member, same⟩ := (coordinated.published commitId).mp (by simpa using shown)
    exact absent publication member same
  refine ⟨fun commitId absent run => ⟨?_, ?_, ?_⟩, fun publication member more => ?_, fun commit answer member told => ?_,
    ?_, ?_, ?_, fun action commitId acting => step_untouched recorded action acting⟩
  · have hidden := unpublished commitId absent
    refine List.filter_eq_nil_iff.mpr fun row member tagged => ?_
    have seen := (mem_visible.mp member).2
    rw [of_decide_eq_true tagged] at seen
    simp [readable, hidden] at seen
  · intro row _ tag
    simpa [tag] using unpublished commitId absent
  · intro write member tag
    rw [RecordingEvidenceSink.writesOf_eq] at member
    have seen := (mem_visible.mp (List.mem_filter.mp member).1).2
    rw [tag] at seen
    simp [readable, unpublished commitId absent] at seen
  · have kept : Recorded (after step state more) :=
      invariant_after Recorded (fun _ action recorded => step_recorded recorded action) recorded more
    have grown : state.publications <+: (after step state more).publications :=
      growth_after Recorded (fun before after => before.publications <+: after.publications)
        (fun _ => List.prefix_refl _) (fun first rest => first.trans rest)
        (fun _ action recorded => step_recorded recorded action)
        (fun state action recorded => publications_grow state recorded.coordinated action) recorded more
    have later := grown.subset member
    exact ⟨later, complete_whole (kept.complete publication later)
      ((kept.coordinated.published _).mpr ⟨publication, later, rfl⟩)⟩
  · obtain ⟨publication, written, named, meant⟩ := coordinated.oneTerminal.acknowledged commit answer member told
    refine ⟨publication, written, named, meant, fun mine theirs => ?_⟩
    obtain ⟨entry, entries⟩ := List.exists_mem_of_ne_nil _ mine.1
    exact (theirs.2 entry (meant ▸ entries)).symm.trans (mine.2 entry entries)
  · intro index operation reason detail found waiting
    have awake : ∀ outcome, operation.await ≠ .settled outcome := by simp [waiting]
    have alone : ∀ (other : Nat) current, state.operations[other]? = some current →
        current.commit.commitId = operation.commit.commitId → current.await.attempting = false := by
      intro other current at_ named
      by_contra attempts
      have attempting : current.await.attempting = true := by simpa using attempts
      obtain rfl := coordinated.exclusive found awake at_ (attempting_unsettled attempting).1 named
      rw [Option.some.inj (at_.symm.trans found), waiting] at attempting
      cases attempting
    have hidden := coordinated.hidden index operation found (by simp [waiting, Await.withheld])
    exact clear_noResidue recorded.events (recorded.clear _ hidden alone)
  · intro commit answer reason detail _ _ hidden quiet
    exact clear_noResidue recorded.events (recorded.clear commit.commitId hidden quiet)
  · intro commit aborted now outcome listed
    have turn : Turn state (.commit commit aborted now) (state.commit commit aborted now) :=
      commit_turn commit aborted now
    generalize state.commit commit aborted now = next at turn listed
    cases turn with
    | still | answered | joined => rfl
    | started =>
      have last := List.append_cancel_left (show state.calls ++ _ = state.calls ++ _ from listed)
      simp at last
    | continued _ _ _ _ _ which => rcases which with same | same | ⟨_, same⟩ | ⟨_, _, same⟩ <;> cases same

/-- All-or-none finalization without residue, in every reachable state. -/
theorem all_or_none (steps : List (Step Event Bundle Early)) :
    AllOrNone (after step ({} : TransactionalFinalization Event Bundle Early) steps) :=
  (recorded_after steps).allOrNone

end SecureHome.Adapters.TransactionalFinalization
