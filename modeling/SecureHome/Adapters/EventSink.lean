import SecureHome.RunState.Journal

/-! The recording event sink. An identity, a run and a sequence, is occupied by a
landed event, by staged rows of unpublished commits, or by a published row. -/

namespace SecureHome.Adapters
open Ports RunState

/-- One physical row. `id` stands for the object's identity, which is what a
release compares. -/
structure StoredEvent (Event : Type) where
  id : Nat
  event : Event
  commitId : Option String := none
  deriving DecidableEq, Repr

/-- A staged row that its published commit made durable at a sequence. -/
def StoredEvent.occupies {Event : Type} [Sequenced Event] (visibility : CommitLedger) (sequence : Nat)
    (row : StoredEvent Event) : Bool :=
  row.commitId.isSome && visibility.isVisible row.commitId && Sequenced.sequence row.event == sequence

/-- One fact reserved at an identity, and each commit's own stage of it. -/
structure Reservation (Event : Type) where
  canonical : Event
  stages : List (String × StoredEvent Event)

/-- What an abandon acts on. `settled` is the handle of a fact already durable. -/
inductive StagedEvent (Event : Type) where
  | settled (commitId : String)
  | row (identity : String × Nat) (commitId : String) (row : StoredEvent Event)

namespace StagedEvent

def commitId {Event : Type} : StagedEvent Event → String
  | settled commitId => commitId
  | row _ commitId _ => commitId

end StagedEvent

structure RecordingEventSink (Event : Type) where
  byRun : String → List (StoredEvent Event) := fun _ => []
  fence : FenceLedger := {}
  landed : String × Nat → Option Event := fun _ => none
  reserved : String × Nat → Option (Reservation Event) := fun _ => none
  next : Nat := 0

namespace RecordingEventSink

variable {Event : Type} [DecidableEq Event] [Sequenced Event]

/-- The text of an event identity. -/
def identityText (identity : String × Nat) : String := s!"{identity.1}#e{identity.2}"

/-- What durably occupies an identity. -/
def durableCanonical (sink : RecordingEventSink Event) (visibility : CommitLedger) (runId : String) (sequence : Nat) :
    Option Event :=
  match sink.landed (runId, sequence) with
  | some event => some event
  | none => ((sink.byRun runId).find? (StoredEvent.occupies visibility sequence)).map (·.event)

/-- The reservation holding an identity, if one of its stages is still unpublished. -/
def liveReservation (sink : RecordingEventSink Event) (visibility : CommitLedger) (identity : String × Nat) :
    Option (Reservation Event) :=
  match sink.reserved identity with
  | none => none
  | some reservation =>
    if reservation.stages.any fun stage => !visibility.isVisible stage.2.commitId then some reservation else none

/-- A commit's entry in a reservation. -/
def stageOf (reservation : Reservation Event) (commitId : String) : Option (StoredEvent Event) :=
  (reservation.stages.find? (·.1 == commitId)).map (·.2)

/-- Release one commit's stage: its entry in the reservation and its row. -/
def releaseStage (sink : RecordingEventSink Event) (visibility : CommitLedger) (identity : String × Nat)
    (commitId : String) (row : StoredEvent Event) : RecordingEventSink Event :=
  if visibility.isVisible row.commitId then sink
  else
    let reserved :=
      match sink.reserved identity with
      | none => sink.reserved
      | some reservation =>
        if (stageOf reservation commitId).map (·.id) = some row.id then
          let stages := reservation.stages.filter (·.1 ≠ commitId)
          Function.update sink.reserved identity
            (if stages.isEmpty then none else some { reservation with stages })
        else sink.reserved
    { sink with reserved, byRun := fun runId => (sink.byRun runId).eraseP (·.id == row.id) }

def releaseAll (sink : RecordingEventSink Event) (visibility : CommitLedger) (identity : String × Nat)
    (stages : List (String × StoredEvent Event)) : RecordingEventSink Event :=
  stages.foldl (fun sink stage => sink.releaseStage visibility identity stage.1 stage.2) sink

/-- Push one physical row. -/
def push (sink : RecordingEventSink Event) (runId : String) (event : Event) (commitId : Option String) :
    StoredEvent Event × RecordingEventSink Event :=
  let row : StoredEvent Event := ⟨sink.next, event, commitId⟩
  (row, { sink with byRun := Function.update sink.byRun runId (sink.byRun runId ++ [row]), next := sink.next + 1 })

/-- Land an ordinary event at its identity. -/
def land (sink : RecordingEventSink Event) (runId : String) (sequence : Nat) (event : Event) :
    RecordingEventSink Event :=
  ({ sink with landed := Function.update sink.landed (runId, sequence) (some event) }.push runId event none).2

def emit (sink : RecordingEventSink Event) (visibility : CommitLedger) (fence : RunFence) (sequence : Nat)
    (event : Event) : FenceOutcome × RecordingEventSink Event :=
  match sink.fence.refuse fence with
  | (some detail, ledger) => (.refused .staleFence detail, { sink with fence := ledger })
  | (none, ledger) =>
    let admitted := { sink with fence := ledger }
    let identity := (fence.runId, sequence)
    match admitted.durableCanonical visibility fence.runId sequence with
    | some durable =>
      if durable = event then (.ok, admitted)
      else
        (.refused .conflictingReplay s!"event identity {identityText identity} already carries a different event",
          admitted)
    | none =>
      match admitted.liveReservation visibility identity with
      | some reserved =>
        if reserved.canonical ≠ event then
          (.refused .conflictingReplay
            s!"event identity {identityText identity} is reserved by an unpublished staged event", admitted)
        else
          (.ok, (admitted.releaseAll visibility identity reserved.stages).land fence.runId sequence event)
      | none => (.ok, admitted.land fence.runId sequence event)

/-- Record the terminal event against its commit, under the same identity rules as `emit`. -/
def stageEmit (sink : RecordingEventSink Event) (visibility : CommitLedger) (fence : RunFence) (commitId : String)
    (event : Event) : Staging (StagedEvent Event) × RecordingEventSink Event :=
  match sink.fence.refuse fence with
  | (some detail, ledger) => (.refused .staleFence detail, { sink with fence := ledger })
  | (none, ledger) =>
    let admitted := { sink with fence := ledger }
    let identity := (fence.runId, Sequenced.sequence event)
    match admitted.durableCanonical visibility fence.runId (Sequenced.sequence event) with
    | some durable =>
      if durable ≠ event then
        (.refused .conflictingReplay
          (s!"event identity {identityText identity} already carries a different durable event; " ++
            "the terminal event cannot occupy it"), admitted)
      else (.ok (.settled commitId), admitted)
    | none =>
      match admitted.liveReservation visibility identity with
      | some reserved =>
        if reserved.canonical ≠ event then
          (.refused .conflictingReplay
            s!"event identity {identityText identity} is already reserved for a different event", admitted)
        else
          match stageOf reserved commitId with
          | some own => (.ok (.row identity commitId own), admitted)
          | none =>
            let (row, pushed) := admitted.push fence.runId event (some commitId)
            let stages := reserved.stages ++ [(commitId, row)]
            (.ok (.row identity commitId row),
              { pushed with
                reserved := Function.update pushed.reserved identity (some { reserved with stages }) })
      | none =>
        let (row, pushed) := admitted.push fence.runId event (some commitId)
        (.ok (.row identity commitId row),
          { pushed with reserved := Function.update pushed.reserved identity (some ⟨event, [(commitId, row)]⟩) })

def abandon (sink : RecordingEventSink Event) (visibility : CommitLedger) :
    StagedEvent Event → RecordingEventSink Event
  | .settled _ => sink
  | .row identity commitId row => sink.releaseStage visibility identity commitId row

/-- Events of one run, as a reader sees them. -/
def eventsOf (sink : RecordingEventSink Event) (visibility : CommitLedger) (runId : String) : List Event :=
  ((sink.byRun runId).filter fun row => visibility.isVisible row.commitId).map (·.event)

end RecordingEventSink

end SecureHome.Adapters
