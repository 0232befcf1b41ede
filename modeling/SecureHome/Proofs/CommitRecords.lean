import SecureHome.Proofs.EventHistory
import SecureHome.Proofs.FinalizationTurns
import SecureHome.Proofs.Participants

/-! The records a commit has in the three stores: none, those its writes account for,
or all of them; and what the steps of everybody else leave of them. -/

namespace SecureHome.Adapters
open Lib Ports RunState TransactionalFinalization

variable {Event Bundle Early : Type} [Sequenced Event]

namespace CommitParticipants

/-- No store holds anything under this commit. -/
structure Clear (stores : CommitParticipants Event Bundle Early) (commitId : String) : Prop where
  tail : ∀ run, owned StoredTransition.commitId commitId (stores.journal.rows run) = []
  events : ∀ run row, row ∈ stores.events.byRun run → row.commitId ≠ some commitId
  bundle : owned RecordedWrite.commitId commitId stores.evidence.writes = []

/-- What the handle of a staged terminal event accounts for. -/
def Placed (stores : CommitParticipants Event Bundle Early) (commit : FinalizationCommit Event Bundle) :
    StagedEvent Event → Prop
  | .settled _ => commit.intent.event ∈ stores.events.eventsOf stores.visibility commit.fence.runId
  | .row identity owner row => owner = commit.commitId ∧ stores.events.Proper identity owner row ∧
      (row ∈ stores.events.byRun commit.fence.runId ∧ row.event = commit.intent.event ∨
        commit.intent.event ∈ stores.events.eventsOf stores.visibility commit.fence.runId)

/-- The stores hold what these writes of a commit account for, and nothing else of it. -/
structure Carries (stores : CommitParticipants Event Bundle Early) (commit : FinalizationCommit Event Bundle)
    (writes : List (StagedWrite Event)) : Prop where
  tail : .journal commit.fence.runId commit.commitId ∈ writes →
    Contiguous StoredTransition.commitId commit.commitId
      (InMemoryRunJournal.stagedRows commit.commitId commit.intent.transitions) (stores.journal.rows commit.fence.runId)
  noTail : ∀ run, (run ≠ commit.fence.runId ∨ .journal commit.fence.runId commit.commitId ∉ writes) →
    owned StoredTransition.commitId commit.commitId (stores.journal.rows run) = []
  event : ∀ handle, .event handle ∈ writes → stores.Placed commit handle
  noEvent : ∀ run row, row ∈ stores.events.byRun run → row.commitId = some commit.commitId →
    run = commit.fence.runId ∧ ∃ identity owner, .event (.row identity owner row) ∈ writes
  bundle : .evidence commit.commitId ∈ writes →
    owned RecordedWrite.commitId commit.commitId stores.evidence.writes =
      [⟨commit.fence.runId, .evidenceBundle commit.intent.bundle, some commit.commitId⟩]
  noBundle : .evidence commit.commitId ∉ writes →
    owned RecordedWrite.commitId commit.commitId stores.evidence.writes = []

/-- The stores hold a whole commit. -/
structure Complete (stores : CommitParticipants Event Bundle Early) (commit : FinalizationCommit Event Bundle) :
    Prop where
  tail : Contiguous StoredTransition.commitId commit.commitId
    (InMemoryRunJournal.stagedRows commit.commitId commit.intent.transitions) (stores.journal.rows commit.fence.runId)
  event : commit.intent.event ∈ stores.events.eventsOf stores.visibility commit.fence.runId
  bundle : owned RecordedWrite.commitId commit.commitId stores.evidence.writes =
    [⟨commit.fence.runId, .evidenceBundle commit.intent.bundle, some commit.commitId⟩]

theorem Clear.carries {stores : CommitParticipants Event Bundle Early} {commit : FinalizationCommit Event Bundle}
    (clear : stores.Clear commit.commitId) : stores.Carries commit [] :=
  ⟨nofun, fun run _ => clear.tail run, nofun, fun run row member tag => absurd tag (clear.events run row member),
    nofun, fun _ => clear.bundle⟩

/-- A step of somebody else, seen from one commit: its rows stay where they were,
except that an event of it may be retired by the same event landing. -/
structure Respects (commitId : String) (before after : CommitParticipants Event Bundle Early) : Prop where
  tail : ∀ run, owned StoredTransition.commitId commitId (after.journal.rows run) =
    owned StoredTransition.commitId commitId (before.journal.rows run)
  block : ∀ run block, Contiguous StoredTransition.commitId commitId block (before.journal.rows run) →
    Contiguous StoredTransition.commitId commitId block (after.journal.rows run)
  events : RecordingEventSink.Grows before.visibility after.visibility before.events after.events
  kept : ∀ run row, row ∈ before.events.byRun run → row.commitId = some commitId →
    row ∈ after.events.byRun run ∨ row.event ∈ after.events.eventsOf after.visibility run
  none : ∀ run row, row ∈ after.events.byRun run → row.commitId = some commitId → row ∈ before.events.byRun run
  bundle : owned RecordedWrite.commitId commitId after.evidence.writes =
    owned RecordedWrite.commitId commitId before.evidence.writes

variable {before after : CommitParticipants Event Bundle Early}

omit [Sequenced Event] in
theorem Clear.respect {commitId : String} (clear : before.Clear commitId) (respects : Respects commitId before after) :
    after.Clear commitId :=
  ⟨fun run => (respects.tail run).trans (clear.tail run),
    fun run row member tag => clear.events run row (respects.none run row member tag) tag,
    respects.bundle.trans clear.bundle⟩

theorem Carries.respect {commit : FinalizationCommit Event Bundle} {writes : List (StagedWrite Event)}
    (carries : before.Carries commit writes) (respects : Respects commit.commitId before after) :
    after.Carries commit writes := by
  refine ⟨fun member => respects.block _ _ (carries.tail member),
    fun run apart => (respects.tail run).trans (carries.noTail run apart), ?_,
    fun run row member tag => carries.noEvent run row (respects.none run row member tag) tag,
    fun member => respects.bundle.trans (carries.bundle member), fun absent => respects.bundle.trans (carries.noBundle absent)⟩
  intro handle member
  have placed := carries.event handle member
  cases handle with
  | settled owner => exact (respects.events.events commit.fence.runId).subset placed
  | row identity owner row =>
    obtain ⟨rfl, proper, standing⟩ := placed
    refine ⟨rfl, respects.events.proper proper, ?_⟩
    rcases standing with ⟨stored, fact⟩ | shown
    · rcases respects.kept _ row stored proper.tagged with stored | shown
      · exact .inl ⟨stored, fact⟩
      · exact .inr (fact ▸ shown)
    · exact .inr ((respects.events.events commit.fence.runId).subset shown)

omit [Sequenced Event] in
theorem Complete.respect {commit : FinalizationCommit Event Bundle} (complete : before.Complete commit)
    (respects : Respects commit.commitId before after) : after.Complete commit :=
  ⟨respects.block _ _ complete.tail, (respects.events.events commit.fence.runId).subset complete.event,
    respects.bundle.trans complete.bundle⟩

omit [Sequenced Event] in
theorem Respects.refl (commitId : String) (stores : CommitParticipants Event Bundle Early) :
    Respects commitId stores stores :=
  ⟨fun _ => rfl, fun _ _ contiguous => contiguous, .refl _ _, fun _ _ member _ => .inl member,
    fun _ _ member _ => member, rfl⟩

/-- What the steps of one commit do to the stores: nothing outside its own rows. -/
structure Moves (commitId : String) (before after : CommitParticipants Event Bundle Early) : Prop where
  journal : before.journal.Moves commitId after.journal
  events : after.events.Valid after.visibility
  grows : RecordingEventSink.Grows before.visibility after.visibility before.events after.events
  frames : RecordingEventSink.Frames commitId before.events after.events
  evidence : before.evidence.Moves commitId after.evidence
  visibility : after.visibility = before.visibility

theorem Moves.refl (commitId : String) {stores : CommitParticipants Event Bundle Early}
    (valid : stores.events.Valid stores.visibility) : Moves commitId stores stores :=
  ⟨fun _ => ⟨.still _, rfl, rfl, rfl⟩, valid, .refl _ _, .refl _ _, ⟨.still _, rfl⟩, rfl⟩

theorem Moves.trans {commitId : String} {middle : CommitParticipants Event Bundle Early}
    (first : Moves commitId before middle) (rest : Moves commitId middle after) : Moves commitId before after :=
  ⟨first.journal.trans rest.journal, rest.events, first.grows.trans rest.grows, first.frames.trans rest.frames,
    first.evidence.trans rest.evidence, rest.visibility.trans first.visibility⟩

/-- One commit's steps leave every other commit's records alone. -/
theorem Moves.respects {commitId other : String} (moves : Moves commitId before after) (different : other ≠ commitId) :
    Respects other before after := by
  have rows : ∀ run row, row.commitId = some other →
      (row ∈ after.events.byRun run ↔ row ∈ before.events.byRun run) := by
    intro run row tag
    have same := moves.frames.rows run
    have mine : ∀ rows : List (StoredEvent Event), row ∈ others (·.commitId) commitId rows ↔ row ∈ rows := by
      intro rows
      simp [others, tag, different]
    rw [← mine (after.events.byRun run), same, mine]
  exact ⟨fun run => (moves.journal run).1.owned_of_ne different,
    fun run block contiguous => (moves.journal run).1.contiguous different contiguous, moves.grows,
    fun run row member tag => .inl ((rows run row tag).mpr member), fun run row member tag => (rows run row tag).mp member,
    moves.evidence.1.owned_of_ne different⟩

/-- Abandoning a staged event leaves no row of its commit. -/
theorem event_abandoned {commit : FinalizationCommit Event Bundle} (valid : before.events.Valid before.visibility)
    (hidden : before.visibility.isPublished commit.commitId = false) {handle : StagedEvent Event}
    (placed : before.Placed commit handle)
    (only : ∀ run row, row ∈ before.events.byRun run → row.commitId = some commit.commitId →
      ∃ identity owner, handle = .row identity owner row) :
    Moves commit.commitId before (before.abandon (.event handle)) ∧
      ∀ run row, row ∈ (before.abandon (.event handle)).events.byRun run → row.commitId ≠ some commit.commitId := by
  cases handle with
  | settled owner =>
    refine ⟨.refl _ valid, fun run row member tag => ?_⟩
    obtain ⟨_, _, same⟩ := only run row member tag
    cases same
  | row identity owner row =>
    obtain ⟨rfl, proper, _⟩ := placed
    refine ⟨⟨fun _ => ⟨.still _, rfl, rfl, rfl⟩, RecordingEventSink.release_valid valid proper,
      RecordingEventSink.release_grows valid proper, RecordingEventSink.release_frames valid proper,
      ⟨.still _, rfl⟩, rfl⟩, fun run other member tag => ?_⟩
    obtain ⟨stored, different⟩ := (RecordingEventSink.mem_release valid proper hidden run other).mp member
    obtain ⟨_, _, same⟩ := only run other stored tag
    cases same
    exact different rfl

theorem journal_abandoned {commit : FinalizationCommit Event Bundle} (valid : before.events.Valid before.visibility)
    (elsewhere : ∀ run, run ≠ commit.fence.runId →
      owned StoredTransition.commitId commit.commitId (before.journal.rows run) = []) :
    Moves commit.commitId before (before.abandon (.journal commit.fence.runId commit.commitId)) ∧
      ∀ run, owned StoredTransition.commitId commit.commitId
        ((before.abandon (.journal commit.fence.runId commit.commitId)).journal.rows run) = [] := by
  obtain ⟨_, moves, rows⟩ := InMemoryRunJournal.abandon_spec before.journal commit.fence.runId commit.commitId
  refine ⟨⟨moves, valid, .refl _ _, .refl _ _, ⟨.still _, rfl⟩, rfl⟩, fun run => ?_⟩
  refine (congrArg _ (rows run)).trans ?_
  split
  · exact owned_others _
  next away => exact elsewhere run away

theorem bundle_abandoned (valid : before.events.Valid before.visibility) (commitId : String) :
    Moves commitId before (before.abandon (.evidence commitId)) ∧
      owned RecordedWrite.commitId commitId (before.abandon (.evidence commitId)).evidence.writes = [] := by
  obtain ⟨_, moves, writes⟩ := RecordingEvidenceSink.abandon_spec before.evidence commitId
  exact ⟨⟨fun _ => ⟨.still _, rfl, rfl, rfl⟩, valid, .refl _ _, .refl _ _, moves, rfl⟩,
    (congrArg _ writes).trans (owned_others _)⟩

/-- Giving up everything a commit carries clears it. -/
theorem withdraw_clears {commit : FinalizationCommit Event Bundle} (valid : before.events.Valid before.visibility)
    (hidden : before.visibility.isPublished commit.commitId = false) {writes : List (StagedWrite Event)}
    {next : Option Preparation} (progress : Progress commit writes next) (carries : before.Carries commit writes) :
    Moves commit.commitId before (before.withdraw writes) ∧ (before.withdraw writes).Clear commit.commitId := by
  have elsewhere : ∀ run, run ≠ commit.fence.runId →
      owned StoredTransition.commitId commit.commitId (before.journal.rows run) = [] :=
    fun run away => carries.noTail run (.inl away)
  -- the writes are abandoned from the last to the first
  cases progress with
  | start =>
    exact ⟨.refl _ valid, fun run => carries.noTail run (.inr (by simp)),
      fun run row member tag => by obtain ⟨_, _, _, absent⟩ := carries.noEvent run row member tag; simp at absent,
      carries.noBundle (by simp)⟩
  | tail =>
    obtain ⟨moves, tail⟩ := journal_abandoned valid elsewhere
    exact ⟨moves, tail,
      fun run row member tag => by obtain ⟨_, _, _, absent⟩ := carries.noEvent run row member tag; simp at absent,
      carries.noBundle (by simp)⟩
  | event handle =>
    have only : ∀ run row, row ∈ before.events.byRun run → row.commitId = some commit.commitId →
        ∃ identity owner, handle = .row identity owner row := by
      intro run row member tag
      obtain ⟨_, identity, owner, written⟩ := carries.noEvent run row member tag
      exact ⟨identity, owner, by simpa [eq_comm] using written⟩
    obtain ⟨first, events⟩ := event_abandoned valid hidden (carries.event handle (by simp)) only
    obtain ⟨rest, tail⟩ := journal_abandoned first.events elsewhere
    exact ⟨first.trans rest, tail, events, carries.noBundle (by simp)⟩
  | sealed handle =>
    have only : ∀ run row, row ∈ before.events.byRun run → row.commitId = some commit.commitId →
        ∃ identity owner, handle = .row identity owner row := by
      intro run row member tag
      obtain ⟨_, identity, owner, written⟩ := carries.noEvent run row member tag
      exact ⟨identity, owner, by simpa [eq_comm] using written⟩
    obtain ⟨first, bundle⟩ := bundle_abandoned valid commit.commitId
    have placed : (before.abandon (.evidence commit.commitId)).Placed commit handle := carries.event handle (by simp)
    obtain ⟨second, events⟩ := event_abandoned first.events hidden placed only
    obtain ⟨third, tail⟩ := journal_abandoned second.events elsewhere
    exact ⟨(first.trans second).trans third, tail, events, bundle⟩

variable [DecidableEq Event]

/-- A write that a participant refused adds nothing. -/
def handed (writes : List (StagedWrite Event)) : Staging (StagedWrite Event) → List (StagedWrite Event)
  | .ok write => writes ++ [write]
  | .refused _ _ => writes

theorem prepare_tail {commit : FinalizationCommit Event Bundle} (valid : before.events.Valid before.visibility)
    (carries : before.Carries commit []) :
    Moves commit.commitId before (before.prepare commit .journalTail).2 ∧
      (before.prepare commit .journalTail).2.Carries commit (handed [] (before.prepare commit .journalTail).1) := by
  obtain ⟨_, moves, rows⟩ := InMemoryRunJournal.stageTransitions_spec before.journal commit.fence commit.commitId
    commit.intent.transitions
  have moved : Moves commit.commitId before (before.prepare commit .journalTail).2 :=
    ⟨moves, valid, .refl _ _, .refl _ _, ⟨.still _, rfl⟩, rfl⟩
  refine ⟨moved, ?_⟩
  have absent : ∀ run, owned StoredTransition.commitId commit.commitId (before.journal.rows run) = [] :=
    fun run => carries.noTail run (.inr (by simp))
  have tagged := owned_tagged (InMemoryRunJournal.stagedRows_tagged commit.commitId commit.intent.transitions)
  have clear : ∀ run row, row ∈ before.events.byRun run → row.commitId ≠ some commit.commitId := by
    intro run row member tag
    obtain ⟨_, _, _, absent⟩ := carries.noEvent run row member tag
    cases absent
  simp only [CommitParticipants.prepare]
  cases staged : (before.journal.stageTransitions commit.fence commit.commitId commit.intent.transitions).1 with
  | ok =>
    rw [staged] at rows
    dsimp only at rows
    refine ⟨fun _ => ?_, fun run apart => ?_, fun _ member => by simp [Staging.map, handed] at member,
      fun run row member tag => absurd tag (clear run row member), fun member => by simp [Staging.map, handed] at member,
      fun _ => carries.noBundle (by simp)⟩
    · rw [rows, if_pos rfl]
      exact .pushed (absent commit.fence.runId) tagged
    · have away : run ≠ commit.fence.runId := apart.resolve_right (by simp [Staging.map, handed])
      rw [rows, if_neg away]
      exact absent run
  | refused reason detail =>
    rw [staged] at rows
    refine Clear.carries ⟨fun run => ?_, clear, carries.noBundle (by simp)⟩
    exact (congrArg _ (congrArg JournalPages.transitions (rows run))).trans (absent run)

theorem prepare_event {commit : FinalizationCommit Event Bundle} (valid : before.events.Valid before.visibility)
    {tail : StagedWrite Event} (own : tail = .journal commit.fence.runId commit.commitId)
    (carries : before.Carries commit [tail]) :
    Moves commit.commitId before (before.prepare commit .terminalEvent).2 ∧
      (before.prepare commit .terminalEvent).2.Carries commit
        (handed [tail] (before.prepare commit .terminalEvent).1) := by
  subst own
  have stages := RecordingEventSink.stageEmit_spec valid commit.fence commit.commitId commit.intent.event
  have moved : Moves commit.commitId before (before.prepare commit .terminalEvent).2 :=
    ⟨fun _ => ⟨.still _, rfl, rfl, rfl⟩, stages.valid, stages.grows, stages.frames, ⟨.still _, rfl⟩, rfl⟩
  refine ⟨moved, ?_⟩
  have clear : ∀ run row, row ∈ before.events.byRun run → row.commitId ≠ some commit.commitId := by
    intro run row member tag
    obtain ⟨_, _, _, absent⟩ := carries.noEvent run row member tag
    simp at absent
  simp only [CommitParticipants.prepare]
  cases staged : (before.events.stageEmit before.visibility commit.fence commit.commitId commit.intent.event).1 with
  | ok handle =>
    refine ⟨fun _ => carries.tail (by simp), fun run apart => carries.noTail run (by simpa [Staging.map, handed] using apart),
      ?_, ?_, fun member => by simp [Staging.map, handed] at member, fun _ => carries.noBundle (by simp)⟩
    · intro other member
      obtain rfl : other = handle := by simpa [Staging.map, handed] using member
      have holds := stages.answered other staged
      cases other with
      | settled owner => exact holds.2
      | row identity owner row =>
        obtain ⟨rfl, rfl, stored, fact, tag⟩ := holds
        refine ⟨rfl, ?_, .inl ⟨stored, fact⟩⟩
        have proper := stages.valid.proper stored tag
        rwa [fact] at proper
    · intro run row member tag
      rcases stages.added run row member with stored | ⟨rfl, identity, same⟩
      · exact absurd tag (clear run row stored)
      · rw [staged] at same
        exact ⟨rfl, identity, commit.commitId, by simp [Staging.map, handed, Staging.ok.inj same]⟩
  | refused reason detail =>
    refine ⟨carries.tail, carries.noTail, fun _ member => by simp [Staging.map, handed] at member, ?_,
      carries.bundle, carries.noBundle⟩
    intro run row member tag
    rcases stages.added run row member with stored | ⟨_, identity, same⟩
    · exact absurd tag (clear run row stored)
    · rw [staged] at same
      cases same

theorem prepare_bundle {commit : FinalizationCommit Event Bundle} (valid : before.events.Valid before.visibility)
    {tail event : StagedWrite Event} (own : ∃ handle, event = .event handle)
    (same : tail = .journal commit.fence.runId commit.commitId) (carries : before.Carries commit [tail, event]) :
    Moves commit.commitId before (before.prepare commit .sealedBundle).2 ∧
      (before.prepare commit .sealedBundle).2.Carries commit
        (handed [tail, event] (before.prepare commit .sealedBundle).1) := by
  subst same
  obtain ⟨handle, rfl⟩ := own
  obtain ⟨_, moves, writes⟩ := RecordingEvidenceSink.stageWrite_spec before.evidence commit.fence commit.commitId
    commit.intent.bundle
  have moved : Moves commit.commitId before (before.prepare commit .sealedBundle).2 :=
    ⟨fun _ => ⟨.still _, rfl, rfl, rfl⟩, valid, .refl _ _, .refl _ _, moves, rfl⟩
  refine ⟨moved, ?_⟩
  have absent := carries.noBundle (by simp)
  simp only [CommitParticipants.prepare]
  cases staged : (before.evidence.stageWrite commit.fence commit.commitId commit.intent.bundle).1 with
  | ok =>
    rw [staged] at writes
    dsimp only at writes
    refine ⟨fun _ => carries.tail (by simp), fun run apart => carries.noTail run (by simpa [Staging.map, handed] using apart),
      ?_, ?_, fun _ => ?_, fun missing => by simp [Staging.map, handed] at missing⟩
    · intro other member
      exact carries.event other (by simpa [Staging.map, handed] using member)
    · intro run row member tag
      obtain ⟨home, identity, owner, written⟩ := carries.noEvent run row member tag
      exact ⟨home, identity, owner, by simpa [Staging.map, handed] using written⟩
    · rw [writes, owned_append, absent]
      simp [owned]
  | refused reason detail =>
    rw [staged] at writes
    dsimp only at writes
    refine ⟨carries.tail, carries.noTail, carries.event, carries.noEvent, fun member => ?_, fun _ => ?_⟩
    · simp [Staging.map, handed] at member
    · rw [writes]; exact absent

/-- Whatever an attempt does next, it moves its own records alone, and the stores
carry exactly what it has then, or nothing once it gave up. -/
theorem continues_records {commit : FinalizationCommit Event Bundle} {writes : List (StagedWrite Event)}
    {suspension : Suspension Event Bundle Early} (valid : before.events.Valid before.visibility)
    (hidden : before.visibility.isPublished commit.commitId = false)
    (progress : ∃ next, Progress commit writes next) (carries : before.Carries commit writes)
    (continues : Continues before commit writes suspension) :
    Moves commit.commitId before suspension.2 ∧
      (suspension.1.await.attempting = true → suspension.2.Carries commit suspension.1.writes) ∧
      (suspension.1.await.attempting = false → suspension.2.Clear commit.commitId) := by
  obtain ⟨next, progress⟩ := progress
  cases continues with
  | refused reason detail =>
    obtain ⟨moves, clear⟩ := withdraw_clears valid hidden progress carries
    exact ⟨moves, nofun, fun _ => clear⟩
  | renewing answer ready => exact ⟨.refl _ valid, fun _ => carries, nofun⟩
  | preparing preparation ready =>
    have both : Moves commit.commitId before (before.prepare commit preparation).2 ∧
        (before.prepare commit preparation).2.Carries commit (handed writes (before.prepare commit preparation).1) := by
      cases ready with
      | start => exact prepare_tail valid carries
      | tail => exact prepare_event valid rfl carries
      | event handle => exact prepare_bundle valid ⟨handle, rfl⟩ rfl carries
    refine ⟨both.1, fun _ => ?_, nofun⟩
    have same : Operation.writes ⟨commit, writes, .preparing preparation (before.prepare commit preparation).1⟩ =
        handed writes (before.prepare commit preparation).1 := by
      cases answered : (before.prepare commit preparation).1 <;> simp [Operation.writes, handed]
    rw [same]
    exact both.2

section Ordinary

variable (stores : CommitParticipants Event Bundle Early) (commitId : String)

omit [Sequenced Event] [DecidableEq Event] in
theorem append_respects (fence : RunFence) (entryId : String) (fact : JournalFact) :
    Respects commitId stores { stores with journal := (stores.journal.append fence entryId fact).2 } := by
  obtain ⟨_, _, rows⟩ := InMemoryRunJournal.append_spec stores.journal fence entryId fact
  refine ⟨fun run => ?_, fun run block contiguous => ?_, .refl _ _, fun _ _ member _ => .inl member,
    fun _ _ member _ => member, rfl⟩
  · rcases rows run with same | ⟨entry, same⟩
    · exact congrArg _ same
    · refine (congrArg _ same).trans ?_
      simp [owned]
  · show Contiguous _ commitId block ((stores.journal.append fence entryId fact).2.rows run)
    rcases rows run with same | ⟨entry, same⟩
    · rwa [same]
    · rw [same]
      exact contiguous.append (by simp [owned])

theorem emit_respects (events : stores.events.Valid stores.visibility) (fence : RunFence) (event : Event) :
    Respects commitId stores
      { stores with
        events := (stores.events.emit stores.visibility fence (Sequenced.sequence event) event).2 } := by
  have emits := RecordingEventSink.emit_spec events fence event
  refine ⟨fun _ => rfl, fun _ _ contiguous => contiguous, emits.grows, fun run row member tag => ?_,
    fun run row member tag => ?_, rfl⟩
  · rcases emits.kept run row member with stored | ⟨acknowledged, rfl, rfl⟩
    · exact .inl stored
    · exact .inr (emits.shown acknowledged)
  · rcases emits.ordinary run row member with stored | ⟨_, untagged⟩
    · exact stored
    · rw [tag] at untagged
      cases untagged

omit [Sequenced Event] [DecidableEq Event] in
theorem write_respects [DecidableEq Bundle] [DecidableEq Early] (fence : RunFence) (recordId : String)
    (record : GovernedRecord Bundle Early) :
    Respects commitId stores { stores with evidence := (stores.evidence.write fence recordId record).2 } := by
  obtain ⟨_, _, writes⟩ := RecordingEvidenceSink.write_spec stores.evidence fence recordId record
  refine ⟨fun _ => rfl, fun _ _ contiguous => contiguous, .refl _ _, fun _ _ member _ => .inl member,
    fun _ _ member _ => member, ?_⟩
  rcases writes with same | same
  · exact congrArg _ same
  · refine (congrArg _ same).trans ?_
    simp [owned]

end Ordinary

end CommitParticipants

end SecureHome.Adapters
