import SecureHome.Adapters.EventSink
import SecureHome.Adapters.EvidenceSink

/-! Finalization as one publication over the journal, the event sink and the
evidence sink. A call runs to its first suspension at once; everything after a
suspension is a later step, so a schedule of steps is one interleaving. -/

namespace SecureHome.Adapters
open Lifecycle Ports RunState

/-- Everything a commit would make durable. Two commits are the same logical commit
when their intents agree. -/
structure FinalizationIntent (Event Bundle : Type) where
  terminal : LifecycleState
  transitions : List TransitionEntry
  event : Event
  bundle : Bundle
  deriving DecidableEq

/-- Whose bound the expiry is: the run's own clock, or a recording ceiling. -/
inductive ExpiryBound where
  | governed
  | attempt
  deriving DecidableEq, Repr

structure FinalizationCommit (Event Bundle : Type) where
  fence : RunFence
  commitId : String
  intent : FinalizationIntent Event Bundle
  expiresAt : Option Nat := none
  bound : Option ExpiryBound := none

inductive CommitReason where
  | staleFence
  | expired
  | attemptExpired
  | alreadyCommitted
  | conflictingReplay
  deriving DecidableEq, Repr

inductive CommitOutcome where
  | ok
  | refused (reason : Option CommitReason) (detail : String)
  deriving DecidableEq, Repr

/-- A participant's refusal reaches the commit's caller as itself. -/
def CommitReason.ofFence : FenceReason → CommitReason
  | .staleFence => .staleFence
  | .conflictingReplay => .conflictingReplay

namespace FinalizationCommit

variable {Event Bundle : Type}

def expired (commit : FinalizationCommit Event Bundle) (now : Nat) : Bool :=
  match commit.expiresAt with
  | none => false
  | some expiry => expiry ≤ now

def expiredOutcome (commit : FinalizationCommit Event Bundle) (what : String) : CommitOutcome :=
  .refused (some (if commit.bound = some .attempt then .attemptExpired else .expired))
    (s!"finalization did not commit: the " ++
      (if commit.bound = some .attempt then "attempt's recording bound" else "run's budget") ++
      s!" elapsed before {what}")

end FinalizationCommit

/-- A write that is prepared but not observable, and the commit it is under. -/
inductive StagedWrite (Event : Type) where
  | journal (runId commitId : String)
  | event (handle : StagedEvent Event)
  | evidence (commitId : String)

def StagedWrite.commitId {Event : Type} : StagedWrite Event → String
  | journal _ commitId => commitId
  | event handle => handle.commitId
  | evidence commitId => commitId

/-- The three stores and the visibility authority they share. -/
structure CommitParticipants (Event Bundle Early : Type) where
  journal : InMemoryRunJournal := {}
  events : RecordingEventSink Event := {}
  evidence : RecordingEvidenceSink Bundle Early := {}
  visibility : CommitLedger := {}

/-- The participants in the order they prepare: the bundle last. -/
inductive Preparation where
  | journalTail
  | terminalEvent
  | sealedBundle
  deriving DecidableEq, Repr

def Preparation.what : Preparation → String
  | journalTail => "journal tail"
  | terminalEvent => "terminal event"
  | sealedBundle => "sealed bundle"

def Preparation.next : Preparation → Option Preparation
  | journalTail => some terminalEvent
  | terminalEvent => some sealedBundle
  | sealedBundle => none

def Staging.map {First Second : Type} (wrap : First → Second) : Staging First → Staging Second
  | .ok staged => .ok (wrap staged)
  | .refused reason detail => .refused reason detail

namespace CommitParticipants

variable {Event Bundle Early : Type} [DecidableEq Event] [Sequenced Event] [DecidableEq Bundle] [DecidableEq Early]

def abandon (stores : CommitParticipants Event Bundle Early) : StagedWrite Event → CommitParticipants Event Bundle Early
  | .journal runId commitId => { stores with journal := stores.journal.abandon runId commitId }
  | .event handle => { stores with events := stores.events.abandon stores.visibility handle }
  | .evidence commitId => { stores with evidence := stores.evidence.abandon commitId }

/-- Abandon what was staged, in the opposite order it was taken. -/
def withdraw (stores : CommitParticipants Event Bundle Early) (staged : List (StagedWrite Event)) :
    CommitParticipants Event Bundle Early :=
  staged.reverse.foldl abandon stores

def prepare (stores : CommitParticipants Event Bundle Early) (commit : FinalizationCommit Event Bundle) :
    Preparation → Staging (StagedWrite Event) × CommitParticipants Event Bundle Early
  | .journalTail =>
    let result := stores.journal.stageTransitions commit.fence commit.commitId commit.intent.transitions
    (Staging.map (fun _ => .journal commit.fence.runId commit.commitId) result.1, { stores with journal := result.2 })
  | .terminalEvent =>
    let result := stores.events.stageEmit stores.visibility commit.fence commit.commitId commit.intent.event
    (Staging.map .event result.1, { stores with events := result.2 })
  | .sealedBundle =>
    let result := stores.evidence.stageWrite commit.fence commit.commitId commit.intent.bundle
    (Staging.map (fun _ => .evidence commit.commitId) result.1, { stores with evidence := result.2 })

end CommitParticipants

/-- What the lease answers a renewal, or the fault it answered with. -/
inductive LeaseAnswer where
  | owned
  | lost
  | failed (detail : String)
  deriving DecidableEq, Repr

/-- What an operation is suspended on. -/
inductive Await (Event : Type) where
  | preparing (preparation : Preparation) (staging : Staging (StagedWrite Event))
  | renewing (answer : Option LeaseAnswer)
  /-- The attempt has its outcome; its claims are not retired yet. -/
  | returned (outcome : CommitOutcome)
  | settled (outcome : CommitOutcome)

/-- What an operation answers its calls, once its attempt has an outcome. -/
def Await.outcome {Event : Type} : Await Event → Option CommitOutcome
  | returned outcome | settled outcome => some outcome
  | preparing _ _ | renewing _ => none

/-- One underlying operation, with the writes it has staged. -/
structure Operation (Event Bundle : Type) where
  commit : FinalizationCommit Event Bundle
  staged : List (StagedWrite Event) := []
  await : Await Event

/-- How a call was answered: at once, or by the operation it started or joined. -/
inductive CallAnswer where
  | answered (outcome : CommitOutcome)
  | joined (operation : Nat)

/-- A marker as it was written, with what the step read of its signal and clock. -/
structure Publication (Event Bundle : Type) where
  commit : FinalizationCommit Event Bundle
  aborted : Bool
  instant : Nat

structure TransactionalFinalization (Event Bundle Early : Type) where
  stores : CommitParticipants Event Bundle Early := {}
  finalized : RunFence → Option String := fun _ => none
  intents : String → Option (FinalizationIntent Event Bundle) := fun _ => none
  inFlightByCommit : String → Option (FinalizationIntent Event Bundle × Nat) := fun _ => none
  inFlightByGeneration : RunFence → Option String := fun _ => none
  operations : List (Operation Event Bundle) := []
  /-- Every call and its answer, in order. -/
  calls : List (FinalizationCommit Event Bundle × CallAnswer) := []
  /-- Every marker written, in order. -/
  publications : List (Publication Event Bundle) := []

namespace TransactionalFinalization

variable {Event Bundle Early : Type} [DecidableEq Event] [Sequenced Event] [DecidableEq Bundle] [DecidableEq Early]

/-- A suspension point of an attempt, and the stores as it leaves them. -/
abbrev Suspension (Event Bundle Early : Type) := Operation Event Bundle × CommitParticipants Event Bundle Early

/-- Give the attempt its refusal, abandoning what it staged. -/
def refuse (stores : CommitParticipants Event Bundle Early) (operation : Operation Event Bundle)
    (outcome : CommitOutcome) : Suspension Event Bundle Early :=
  ({ operation with await := .returned outcome }, stores.withdraw operation.staged)

/-- One turn of the preparation loop. -/
def enter (stores : CommitParticipants Event Bundle Early) (operation : Operation Event Bundle)
    (preparation : Preparation) (aborted : Bool) (now : Nat) : Suspension Event Bundle Early :=
  if aborted then
    refuse stores operation (.refused none
      s!"finalization did not commit: the run was interrupted before the {preparation.what} was prepared")
  else if operation.commit.expired now then
    refuse stores operation (operation.commit.expiredOutcome s!"the {preparation.what} was prepared")
  else
    let (staging, stores) := stores.prepare operation.commit preparation
    ({ operation with await := .preparing preparation staging }, stores)

/-- A preparation was answered. -/
def prepared (stores : CommitParticipants Event Bundle Early) (operation : Operation Event Bundle)
    (preparation : Preparation) (staging : Staging (StagedWrite Event)) (aborted : Bool) (now : Nat) :
    Suspension Event Bundle Early :=
  match staging with
  | .refused reason detail =>
    refuse stores operation (.refused (some (.ofFence reason))
      s!"finalization did not commit: the {preparation.what} was refused: {detail}")
  | .ok write =>
    let operation := { operation with staged := operation.staged ++ [write] }
    if write.commitId ≠ operation.commit.commitId then
      refuse stores operation (.refused none
        (s!"finalization did not commit: the {preparation.what} staged under {write.commitId}, " ++
          s!"not {operation.commit.commitId}"))
    else
      match preparation.next with
      | some next => enter stores operation next aborted now
      | none =>
        if aborted then
          refuse stores operation (.refused none
            "finalization did not commit: the run was interrupted before ownership confirmation")
        else ({ operation with await := .renewing none }, stores)

def store (state : TransactionalFinalization Event Bundle Early) (index : Nat)
    (suspension : Suspension Event Bundle Early) : TransactionalFinalization Event Bundle Early :=
  { state with operations := state.operations.set index suspension.1, stores := suspension.2 }

/-- The refusal of a generation that already published. -/
def alreadyPublished (commit : FinalizationCommit Event Bundle) (published : String) : CommitOutcome :=
  .refused (some .alreadyCommitted)
    (s!"finalization did not commit: generation {commit.fence.generation} of run {commit.fence.runId} " ++
      s!"already published commit {published}")

/-- The marker and the persistent authority, in one step. -/
def publish (state : TransactionalFinalization Event Bundle Early) (index : Nat) (operation : Operation Event Bundle)
    (aborted : Bool) (now : Nat) : TransactionalFinalization Event Bundle Early :=
  let commit := operation.commit
  { state with
    stores := { state.stores with visibility := state.stores.visibility.publish commit.commitId }
    finalized := Function.update state.finalized commit.fence (some commit.commitId)
    intents := Function.update state.intents commit.commitId (some commit.intent)
    operations := state.operations.set index { operation with await := .returned .ok }
    publications := state.publications ++ [⟨commit, aborted, now⟩] }

/-- The lease has answered: everything from here to the marker is one step. -/
def gate (state : TransactionalFinalization Event Bundle Early) (index : Nat) (operation : Operation Event Bundle)
    (aborted : Bool) (now : Nat) : TransactionalFinalization Event Bundle Early :=
  let commit := operation.commit
  let refused := fun outcome => state.store index (refuse state.stores operation outcome)
  if aborted then
    refused (.refused none "finalization did not commit: the run was interrupted before the commit marker")
  else
    match state.finalized commit.fence with
    | some published => refused (alreadyPublished commit published)
    | none =>
      match state.inFlightByGeneration commit.fence with
      | some owner =>
        if owner ≠ commit.commitId then
          refused (.refused (some .alreadyCommitted)
            (s!"finalization did not commit: generation {commit.fence.generation} of run {commit.fence.runId} " ++
              s!"is being finalized by commit {owner}"))
        else if commit.expired now then refused (commit.expiredOutcome "the commit marker")
        else state.publish index operation aborted now
      | none =>
        let claimed := { state with
          inFlightByGeneration := Function.update state.inFlightByGeneration commit.fence (some commit.commitId) }
        if commit.expired now then
          claimed.store index (refuse state.stores operation (commit.expiredOutcome "the commit marker"))
        else claimed.publish index operation aborted now

/-- Retire only what this operation still owns. -/
def retire (state : TransactionalFinalization Event Bundle Early) (index : Nat) (operation : Operation Event Bundle)
    (outcome : CommitOutcome) : TransactionalFinalization Event Bundle Early :=
  let commit := operation.commit
  { state with
    inFlightByGeneration :=
      if state.inFlightByGeneration commit.fence = some commit.commitId then
        Function.update state.inFlightByGeneration commit.fence none
      else state.inFlightByGeneration
    inFlightByCommit := Function.update state.inFlightByCommit commit.commitId none
    operations := state.operations.set index { operation with await := .settled outcome } }

/-- Continue a suspended operation to its next suspension. -/
def resume (state : TransactionalFinalization Event Bundle Early) (index : Nat) (aborted : Bool) (now : Nat) :
    TransactionalFinalization Event Bundle Early :=
  match state.operations[index]? with
  | none => state
  | some operation =>
    match operation.await with
    | .preparing preparation staging => state.store index (prepared state.stores operation preparation staging aborted now)
    | .renewing none => state
    | .renewing (some (.failed detail)) =>
      state.store index (refuse state.stores operation
        (.refused none s!"finalization did not commit: ownership could not be confirmed: {detail}"))
    | .renewing (some .lost) =>
      state.store index (refuse state.stores operation (.refused (some .staleFence)
        s!"finalization did not commit: run {operation.commit.fence.runId} moved on before the commit marker"))
    | .renewing (some .owned) => state.gate index operation aborted now
    | .returned outcome => state.retire index operation outcome
    | .settled _ => state

/-- The lease computes its answer to a renewal; the operation reads it later. -/
def leaseAnswers (state : TransactionalFinalization Event Bundle Early) (index : Nat) (answer : LeaseAnswer) :
    TransactionalFinalization Event Bundle Early :=
  match state.operations[index]? with
  | none => state
  | some operation =>
    match operation.await with
    | .renewing none =>
      { state with operations := state.operations.set index { operation with await := .renewing (some answer) } }
    | _ => state

def recordCall (state : TransactionalFinalization Event Bundle Early) (commit : FinalizationCommit Event Bundle)
    (answer : CallAnswer) : TransactionalFinalization Event Bundle Early :=
  { state with calls := state.calls ++ [(commit, answer)] }

/-- Start the underlying operation, claiming the generation when it is free. -/
def start (state : TransactionalFinalization Event Bundle Early) (commit : FinalizationCommit Event Bundle)
    (aborted : Bool) (now : Nat) : TransactionalFinalization Event Bundle Early :=
  let suspension := enter state.stores { commit, await := .renewing none } .journalTail aborted now
  { state with
    stores := suspension.2
    inFlightByGeneration :=
      if (state.inFlightByGeneration commit.fence).isNone then
        Function.update state.inFlightByGeneration commit.fence (some commit.commitId)
      else state.inFlightByGeneration
    inFlightByCommit :=
      Function.update state.inFlightByCommit commit.commitId (some (commit.intent, state.operations.length))
    operations := state.operations ++ [suspension.1] }

/-- The synchronous entry ledger: answer at once, join, or start. -/
def commit (state : TransactionalFinalization Event Bundle Early) (commit : FinalizationCommit Event Bundle)
    (aborted : Bool) (now : Nat) : TransactionalFinalization Event Bundle Early :=
  if state.stores.visibility.isPublished commit.commitId then
    if state.intents commit.commitId = some commit.intent then state.recordCall commit (.answered .ok)
    else
      state.recordCall commit (.answered (.refused (some .alreadyCommitted)
        (s!"finalization did not commit: identity {commit.commitId} is already published with a different " ++
          "logical intent; the durable record is the truth")))
  else
    match state.finalized commit.fence with
    | some published => state.recordCall commit (.answered (alreadyPublished commit published))
    | none =>
      match state.inFlightByCommit commit.commitId with
      | some (canonical, operation) =>
        if canonical = commit.intent then state.recordCall commit (.joined operation)
        else
          state.recordCall commit (.answered (.refused (some .conflictingReplay)
            (s!"finalization did not commit: identity {commit.commitId} is already in flight with a different " ++
              "logical intent")))
      | none => (state.start commit aborted now).recordCall commit (.joined state.operations.length)

/-- One step of the system: a call, a continuation, a lease answer, or an ordinary
operation on one of the stores. -/
inductive Step (Event Bundle Early : Type) where
  | commit (commit : FinalizationCommit Event Bundle) (aborted : Bool) (now : Nat)
  | resume (operation : Nat) (aborted : Bool) (now : Nat)
  | leaseAnswers (operation : Nat) (answer : LeaseAnswer)
  | append (fence : RunFence) (entryId : String) (fact : JournalFact)
  | emit (fence : RunFence) (event : Event)
  | write (fence : RunFence) (recordId : String) (record : GovernedRecord Bundle Early)

def step (state : TransactionalFinalization Event Bundle Early) :
    Step Event Bundle Early → TransactionalFinalization Event Bundle Early
  | .commit commit aborted now => state.commit commit aborted now
  | .resume operation aborted now => state.resume operation aborted now
  | .leaseAnswers operation answer => state.leaseAnswers operation answer
  | .append fence entryId fact =>
    { state with stores.journal := (state.stores.journal.append fence entryId fact).2 }
  | .emit fence event =>
    { state with
      stores.events := (state.stores.events.emit state.stores.visibility fence (Sequenced.sequence event) event).2 }
  | .write fence recordId record =>
    { state with stores.evidence := (state.stores.evidence.write fence recordId record).2 }

/-- A call's answer as far as it is known. -/
def answerOf (state : TransactionalFinalization Event Bundle Early) : CallAnswer → Option CommitOutcome
  | .answered outcome => some outcome
  | .joined index => (state.operations[index]?).bind (·.await.outcome)

end TransactionalFinalization

end SecureHome.Adapters
