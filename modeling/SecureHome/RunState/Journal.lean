import SecureHome.RunState.Fence
import SecureHome.RunState.Visibility

/-! The in-memory run journal. The fence is checked before the page is even
created, and one mechanism classifies replays for all four categories. -/

namespace SecureHome.RunState
open Lifecycle Ports

/-- What a participant answers when asked to prepare a write. -/
inductive Staging (Handle : Type) where
  | ok (staged : Handle)
  | refused (reason : FenceReason) (detail : String)

/-- A transition, plus the commit that must be published to see it. -/
structure StoredTransition where
  entry : TransitionEntry
  commitId : Option String := none
  deriving DecidableEq, Repr

structure JournalPages where
  transitions : List StoredTransition := []
  rejections : List RejectionEntry := []
  acquisitions : List JournaledAcquisition := []
  held : Option JournaledHold := none
  /-- Entry identity to the fact that landed under it. -/
  seen : String → Option JournalFact := fun _ => none

inductive Classification where
  | new
  | replay
  | conflict
  deriving DecidableEq, Repr

namespace JournalPages

def classify (page : JournalPages) (entryId : String) (fact : JournalFact) : Classification × JournalPages :=
  match page.seen entryId with
  | none => (.new, { page with seen := Function.update page.seen entryId (some fact) })
  | some landed => (if landed = fact then .replay else .conflict, page)

/-- Land a new fact. A run that moves is no longer held. -/
def record (page : JournalPages) : JournalFact → JournalPages
  | .transition entry => { page with transitions := page.transitions ++ [⟨entry, none⟩], held := none }
  | .rejection entry => { page with rejections := page.rejections ++ [entry] }
  | .acquisition entry => { page with acquisitions := page.acquisitions ++ [entry] }
  | .hold entry => { page with held := some entry }

end JournalPages

/-- What a reader of one run's journal is told. -/
structure JournaledState where
  runId : String
  state : LifecycleState
  transitions : List TransitionEntry
  rejections : List RejectionEntry
  acquisitions : List JournaledAcquisition
  held : Option JournaledHold
  deriving DecidableEq, Repr

structure InMemoryRunJournal where
  pages : String → Option JournalPages := fun _ => none
  fence : FenceLedger := {}

namespace InMemoryRunJournal

def page (journal : InMemoryRunJournal) (runId : String) : JournalPages := (journal.pages runId).getD {}

def setPage (journal : InMemoryRunJournal) (runId : String) (page : JournalPages) : InMemoryRunJournal :=
  { journal with pages := Function.update journal.pages runId (some page) }

def conflict (entryId : String) : FenceOutcome :=
  .refused .conflictingReplay
    s!"journal entry {entryId} already landed a different fact; identity equality must imply fact equality"

/-- The body the four append operations share. -/
def append (journal : InMemoryRunJournal) (fence : RunFence) (entryId : String) (fact : JournalFact) :
    FenceOutcome × InMemoryRunJournal :=
  match journal.fence.refuse fence with
  | (some detail, ledger) => (.refused .staleFence detail, { journal with fence := ledger })
  | (none, ledger) =>
    let admitted := { journal with fence := ledger }
    match (admitted.page fence.runId).classify entryId fact with
    | (.replay, page) => (.ok, admitted.setPage fence.runId page)
    | (.conflict, page) => (conflict entryId, admitted.setPage fence.runId page)
    | (.new, page) => (.ok, admitted.setPage fence.runId (page.record fact))

def appendTransition (journal : InMemoryRunJournal) (fence : RunFence) (entryId : String)
    (transition : TransitionEntry) : FenceOutcome × InMemoryRunJournal :=
  journal.append fence entryId (.transition transition)

def appendRejection (journal : InMemoryRunJournal) (fence : RunFence) (entryId : String)
    (rejection : RejectionEntry) : FenceOutcome × InMemoryRunJournal :=
  journal.append fence entryId (.rejection rejection)

def appendAcquisition (journal : InMemoryRunJournal) (fence : RunFence) (entryId : String)
    (acquisition : JournaledAcquisition) : FenceOutcome × InMemoryRunJournal :=
  journal.append fence entryId (.acquisition acquisition)

def appendHold (journal : InMemoryRunJournal) (fence : RunFence) (entryId : String) (hold : JournaledHold) :
    FenceOutcome × InMemoryRunJournal :=
  journal.append fence entryId (.hold hold)

/-- The rows a commit's tail becomes. -/
def stagedRows (commitId : String) (transitions : List TransitionEntry) : List StoredTransition :=
  transitions.map fun entry => ⟨entry, some commitId⟩

/-- Record the terminal tail against its commit, unreadable until that is published. -/
def stageTransitions (journal : InMemoryRunJournal) (fence : RunFence) (commitId : String)
    (transitions : List TransitionEntry) : Staging Unit × InMemoryRunJournal :=
  match journal.fence.refuse fence with
  | (some detail, ledger) => (.refused .staleFence detail, { journal with fence := ledger })
  | (none, ledger) =>
    let admitted := { journal with fence := ledger }
    let page := admitted.page fence.runId
    (.ok (), admitted.setPage fence.runId
      { page with transitions := page.transitions ++ stagedRows commitId transitions })

/-- What the handle of a staged tail does. The page is the one the tail was staged in. -/
def abandon (journal : InMemoryRunJournal) (runId commitId : String) : InMemoryRunJournal :=
  let page := journal.page runId
  journal.setPage runId
    { page with transitions := page.transitions.filter fun row => row.commitId ≠ some commitId }

def readCurrentState (journal : InMemoryRunJournal) (visibility : CommitLedger) (runId : String) :
    Option JournaledState :=
  match journal.pages runId with
  | none => none
  | some page =>
    let transitions := (page.transitions.filter fun row => visibility.isVisible row.commitId).map (·.entry)
    if transitions.isEmpty && page.rejections.isEmpty && page.acquisitions.isEmpty && page.held.isNone then none
    else
      some
        { runId
          state := (transitions.getLast?.map (·.target)).getD .requested
          transitions
          rejections := page.rejections
          acquisitions := page.acquisitions
          held := page.held }

end InMemoryRunJournal

end SecureHome.RunState
