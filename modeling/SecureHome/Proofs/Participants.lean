import SecureHome.Adapters.EvidenceSink
import SecureHome.Lib.Tagged

/-! What each operation of the journal and of the evidence sink does to the rows of
a page, to the rest of it, and to the fence. -/

namespace SecureHome.RunState
open Lib Lifecycle Ports

namespace CommitLedger

theorem isVisible_eq (visibility : CommitLedger) (tag : Option String) :
    visibility.isVisible tag = readable visibility.isPublished tag := by
  cases tag <;> rfl

end CommitLedger

namespace InMemoryRunJournal

variable {journal : InMemoryRunJournal}

/-- The transition rows of a run's page. -/
def rows (journal : InMemoryRunJournal) (runId : String) : List StoredTransition := (journal.page runId).transitions

/-- What a page shows, given which commits are published. -/
def viewOf (visibility : CommitLedger) (runId : String) (page : JournalPages) : Option JournaledState :=
  let transitions := (visible (·.commitId) visibility.isPublished page.transitions).map (·.entry)
  if transitions.isEmpty && page.rejections.isEmpty && page.acquisitions.isEmpty && page.held.isNone then none
  else
    some
      { runId
        state := (transitions.getLast?.map (·.target)).getD .requested
        transitions
        rejections := page.rejections
        acquisitions := page.acquisitions
        held := page.held }

/-- A page holding nothing readable reads like no page. -/
theorem readCurrentState_eq (visibility : CommitLedger) (runId : String) :
    journal.readCurrentState visibility runId = viewOf visibility runId (journal.page runId) := by
  unfold readCurrentState page viewOf
  cases journal.pages runId with
  | none => rfl
  | some page => simp only [Option.getD_some, visible, CommitLedger.isVisible_eq]; rfl

/-- Pages that differ in unreadable rows alone read the same. -/
theorem viewOf_congr {visibility visibility' : CommitLedger} {page page' : JournalPages} (runId : String)
    (rows : visible (·.commitId) visibility'.isPublished page'.transitions =
      visible (·.commitId) visibility.isPublished page.transitions)
    (rejections : page'.rejections = page.rejections) (acquisitions : page'.acquisitions = page.acquisitions)
    (held : page'.held = page.held) : viewOf visibility' runId page' = viewOf visibility runId page := by
  simp only [viewOf, rows, rejections, acquisitions, held]

@[simp] theorem page_setPage (runId other : String) (page : JournalPages) :
    (journal.setPage runId page).page other = if other = runId then page else journal.page other := by
  by_cases same : other = runId
  · subst same; simp [setPage, InMemoryRunJournal.page]
  · simp [setPage, InMemoryRunJournal.page, same]

@[simp] theorem setPage_fence (runId : String) (page : JournalPages) :
    (journal.setPage runId page).fence = journal.fence := rfl

/-- What one commit may do to the pages: to its rows, and to nothing else. -/
def Moves (commitId : String) (before after : InMemoryRunJournal) : Prop :=
  ∀ runId, Lib.Moves StoredTransition.commitId commitId (before.rows runId) (after.rows runId) ∧
    (after.page runId).rejections = (before.page runId).rejections ∧
    (after.page runId).acquisitions = (before.page runId).acquisitions ∧
    (after.page runId).held = (before.page runId).held

theorem Moves.trans {commitId : String} {before middle after : InMemoryRunJournal} (first : before.Moves commitId middle)
    (rest : middle.Moves commitId after) : before.Moves commitId after := fun runId =>
  ⟨.trans (first runId).1 (rest runId).1, (rest runId).2.1.trans (first runId).2.1,
    (rest runId).2.2.1.trans (first runId).2.2.1, (rest runId).2.2.2.trans (first runId).2.2.2⟩

theorem Moves.read {commitId : String} {before after : InMemoryRunJournal} (moves : before.Moves commitId after)
    {visibility : CommitLedger} (hidden : visibility.isPublished commitId = false) (runId : String) :
    after.readCurrentState visibility runId = before.readCurrentState visibility runId := by
  obtain ⟨rows, rejections, acquisitions, held⟩ := moves runId
  rw [readCurrentState_eq, readCurrentState_eq]
  exact viewOf_congr runId (rows.visible hidden) rejections acquisitions held

theorem stagedRows_tagged (commitId : String) (transitions : List TransitionEntry) :
    ∀ row ∈ stagedRows commitId transitions, row.commitId = some commitId := by
  intro row member
  obtain ⟨entry, _, rfl⟩ := List.mem_map.mp member
  rfl

/-- An ordinary append touches its own run alone, and only once the fence admits it. -/
theorem append_spec (journal : InMemoryRunJournal) (fence : RunFence) (entryId : String) (fact : JournalFact) :
    (journal.append fence entryId fact).2.fence = (journal.fence.refuse fence).2 ∧
      (∀ runId, (runId ≠ fence.runId ∨ (journal.fence.refuse fence).1.isSome) →
        (journal.append fence entryId fact).2.page runId = journal.page runId) ∧
      ∀ runId, (journal.append fence entryId fact).2.rows runId = journal.rows runId ∨
        ∃ entry, (journal.append fence entryId fact).2.rows runId = journal.rows runId ++ [⟨entry, none⟩] := by
  unfold append
  cases refused : journal.fence.refuse fence with
  | mk detail ledger =>
  cases detail with
  | some detail => exact ⟨rfl, fun _ _ => rfl, fun _ => .inl rfl⟩
  | none =>
  have admitted : ∀ runId, ({ journal with fence := ledger } : InMemoryRunJournal).page runId = journal.page runId :=
    fun _ => rfl
  have frame : ∀ (page : JournalPages) (runId : String), (runId ≠ fence.runId ∨ (none : Option String).isSome) →
      (({ journal with fence := ledger } : InMemoryRunJournal).setPage fence.runId page).page runId =
        journal.page runId := by
    intro page runId apart
    have different : runId ≠ fence.runId := apart.resolve_right (by simp)
    simp [different, admitted]
  have steady : ∀ (page : JournalPages), page.transitions = (journal.page fence.runId).transitions → ∀ runId,
      (({ journal with fence := ledger } : InMemoryRunJournal).setPage fence.runId page).rows runId =
        journal.rows runId := by
    intro page same runId
    by_cases here : runId = fence.runId
    · subst here; simp [rows, same]
    · simp [rows, here, admitted]
  simp only [JournalPages.classify, admitted]
  cases seen : (journal.page fence.runId).seen entryId with
  | some landed =>
    dsimp only
    by_cases same : landed = fact
    · simp only [if_pos same]
      exact ⟨rfl, frame _, fun runId => .inl (steady _ rfl runId)⟩
    · simp only [if_neg same]
      exact ⟨rfl, frame _, fun runId => .inl (steady _ rfl runId)⟩
  | none =>
    refine ⟨rfl, frame _, fun runId => ?_⟩
    cases fact with
    | transition entry =>
      by_cases here : runId = fence.runId
      · subst here
        exact .inr ⟨entry, by simp [rows, JournalPages.record]⟩
      · exact .inl (by simp [rows, here, admitted])
    | rejection entry => exact .inl (steady _ (by rfl) runId)
    | acquisition entry => exact .inl (steady _ (by rfl) runId)
    | hold entry => exact .inl (steady _ (by rfl) runId)

/-- Staging a tail pushes its rows to the run's own page. -/
theorem stageTransitions_spec (journal : InMemoryRunJournal) (fence : RunFence) (commitId : String)
    (transitions : List TransitionEntry) :
    (journal.stageTransitions fence commitId transitions).2.fence = (journal.fence.refuse fence).2 ∧
      journal.Moves commitId (journal.stageTransitions fence commitId transitions).2 ∧
      match (journal.stageTransitions fence commitId transitions).1 with
      | .ok _ => ∀ runId, (journal.stageTransitions fence commitId transitions).2.rows runId =
          if runId = fence.runId then journal.rows runId ++ stagedRows commitId transitions else journal.rows runId
      | .refused _ _ => ∀ runId, (journal.stageTransitions fence commitId transitions).2.page runId =
          journal.page runId := by
  unfold stageTransitions
  cases refused : journal.fence.refuse fence with
  | mk detail ledger =>
  cases detail with
  | some detail => exact ⟨rfl, fun runId => ⟨.still _, rfl, rfl, rfl⟩, fun _ => rfl⟩
  | none =>
  refine ⟨rfl, fun runId => ?_, fun runId => ?_⟩
  · by_cases here : runId = fence.runId
    · subst here
      have grown := Lib.Moves.pushed (journal.rows fence.runId) (stagedRows commitId transitions)
        (stagedRows_tagged commitId transitions)
      simp only [rows, page_setPage, if_true]
      exact ⟨grown, rfl, rfl, rfl⟩
    · simp only [rows, page_setPage, if_neg here]
      exact ⟨.still (journal.rows runId), rfl, rfl, rfl⟩
  · by_cases here : runId = fence.runId
    · subst here; simp only [rows, page_setPage, if_true]; rfl
    · simp only [rows, page_setPage, if_neg here]; rfl

/-- Abandoning a tail takes its commit's rows off the page it was staged in. -/
theorem abandon_spec (journal : InMemoryRunJournal) (runId commitId : String) :
    (journal.abandon runId commitId).fence = journal.fence ∧ journal.Moves commitId (journal.abandon runId commitId) ∧
      ∀ other, (journal.abandon runId commitId).rows other =
        if other = runId then others StoredTransition.commitId commitId (journal.rows other) else journal.rows other := by
  refine ⟨rfl, fun other => ?_, fun other => ?_⟩
  · by_cases here : other = runId
    · subst here
      simp only [abandon, rows, page_setPage, if_true]
      exact ⟨.left (journal.rows other), by simp⟩
    · simp only [abandon, rows, page_setPage, if_neg here]
      exact ⟨.still (journal.rows other), by simp⟩
  · by_cases here : other = runId
    · subst here; simp [abandon, rows, others]
    · simp [abandon, rows, here]

end InMemoryRunJournal

end SecureHome.RunState

namespace SecureHome.Adapters.RecordingEvidenceSink
open Lib Ports RunState

variable {Bundle Early : Type}

theorem writesOf_eq (sink : RecordingEvidenceSink Bundle Early) (visibility : CommitLedger) (runId : String) :
    sink.writesOf visibility runId =
      (visible RecordedWrite.commitId visibility.isPublished sink.writes).filter (·.runId = runId) := by
  simp only [writesOf, visible, CommitLedger.isVisible_eq]

/-- What one commit may do to the writes. -/
def Moves (commitId : String) (before after : RecordingEvidenceSink Bundle Early) : Prop :=
  Lib.Moves RecordedWrite.commitId commitId before.writes after.writes ∧ after.landed = before.landed

theorem Moves.trans {commitId : String} {before middle after : RecordingEvidenceSink Bundle Early}
    (first : before.Moves commitId middle) (rest : middle.Moves commitId after) : before.Moves commitId after :=
  ⟨.trans first.1 rest.1, rest.2.trans first.2⟩

theorem Moves.read {commitId : String} {before after : RecordingEvidenceSink Bundle Early}
    (moves : before.Moves commitId after) {visibility : CommitLedger}
    (hidden : visibility.isPublished commitId = false) (runId : String) :
    after.writesOf visibility runId = before.writesOf visibility runId := by
  rw [writesOf_eq, writesOf_eq, moves.1.visible hidden]

/-- An ordinary write adds at most one row, of its own run, once the fence admits it. -/
theorem write_spec [DecidableEq Bundle] [DecidableEq Early] (sink : RecordingEvidenceSink Bundle Early)
    (fence : RunFence) (recordId : String) (record : GovernedRecord Bundle Early) :
    (sink.write fence recordId record).2.fence = (sink.fence.refuse fence).2 ∧
      ((sink.fence.refuse fence).1.isSome → (sink.write fence recordId record).2.writes = sink.writes) ∧
      ((sink.write fence recordId record).2.writes = sink.writes ∨
        (sink.write fence recordId record).2.writes = sink.writes ++ [⟨fence.runId, record, none⟩]) := by
  unfold write
  cases refused : sink.fence.refuse fence with
  | mk detail ledger =>
  cases detail with
  | some detail => exact ⟨rfl, fun _ => rfl, .inl rfl⟩
  | none =>
  dsimp only
  split
  · split
    · exact ⟨rfl, fun _ => rfl, .inl rfl⟩
    · exact ⟨rfl, fun _ => rfl, .inl rfl⟩
  · exact ⟨rfl, (fun late => by cases late), .inr rfl⟩

/-- Staging a bundle pushes one row under its commit. -/
theorem stageWrite_spec (sink : RecordingEvidenceSink Bundle Early) (fence : RunFence) (commitId : String)
    (bundle : Bundle) :
    (sink.stageWrite fence commitId bundle).2.fence = (sink.fence.refuse fence).2 ∧
      sink.Moves commitId (sink.stageWrite fence commitId bundle).2 ∧
      match (sink.stageWrite fence commitId bundle).1 with
      | .ok _ => (sink.stageWrite fence commitId bundle).2.writes =
          sink.writes ++ [⟨fence.runId, .evidenceBundle bundle, some commitId⟩]
      | .refused _ _ => (sink.stageWrite fence commitId bundle).2.writes = sink.writes := by
  unfold stageWrite
  cases refused : sink.fence.refuse fence with
  | mk detail ledger =>
  cases detail with
  | some detail => exact ⟨rfl, ⟨.still _, rfl⟩, rfl⟩
  | none =>
    refine ⟨rfl, ⟨.pushed _ _ fun row member => ?_, rfl⟩, rfl⟩
    rw [List.mem_singleton.mp member]

theorem abandon_spec (sink : RecordingEvidenceSink Bundle Early) (commitId : String) :
    (sink.abandon commitId).fence = sink.fence ∧ sink.Moves commitId (sink.abandon commitId) ∧
      (sink.abandon commitId).writes = others RecordedWrite.commitId commitId sink.writes :=
  ⟨rfl, ⟨.left _, rfl⟩, rfl⟩

end SecureHome.Adapters.RecordingEvidenceSink
