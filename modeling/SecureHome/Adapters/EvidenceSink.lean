import SecureHome.RunState.Journal

/-! The recording evidence sink: ordinary writes answered by record identity, and
sealed bundles staged against a commit. -/

namespace SecureHome.Adapters
open Ports RunState

structure RecordedWrite (Bundle Record : Type) where
  runId : String
  record : GovernedRecord Bundle Record
  commitId : Option String := none
  deriving DecidableEq, Repr

structure RecordingEvidenceSink (Bundle Record : Type) where
  writes : List (RecordedWrite Bundle Record) := []
  fence : FenceLedger := {}
  landed : String → Option (GovernedRecord Bundle Record) := fun _ => none

namespace RecordingEvidenceSink

variable {Bundle Record : Type} [DecidableEq Bundle] [DecidableEq Record]

def write (sink : RecordingEvidenceSink Bundle Record) (fence : RunFence) (recordId : String)
    (record : GovernedRecord Bundle Record) : FenceOutcome × RecordingEvidenceSink Bundle Record :=
  match sink.fence.refuse fence with
  | (some detail, ledger) => (.refused .staleFence detail, { sink with fence := ledger })
  | (none, ledger) =>
    let admitted := { sink with fence := ledger }
    match sink.landed recordId with
    | some landed =>
      if landed = record then (.ok, admitted)
      else
        (.refused .conflictingReplay s!"evidence record {recordId} already landed a different record", admitted)
    | none =>
      (.ok,
        { admitted with
          landed := Function.update sink.landed recordId (some record)
          writes := sink.writes ++ [⟨fence.runId, record, none⟩] })

/-- Record the seal against its commit, invisibly. -/
def stageWrite (sink : RecordingEvidenceSink Bundle Record) (fence : RunFence) (commitId : String)
    (bundle : Bundle) : Staging Unit × RecordingEvidenceSink Bundle Record :=
  match sink.fence.refuse fence with
  | (some detail, ledger) => (.refused .staleFence detail, { sink with fence := ledger })
  | (none, ledger) =>
    (.ok (),
      { sink with
        fence := ledger
        writes := sink.writes ++ [⟨fence.runId, .evidenceBundle bundle, some commitId⟩] })

def abandon (sink : RecordingEvidenceSink Bundle Record) (commitId : String) : RecordingEvidenceSink Bundle Record :=
  { sink with writes := sink.writes.filter fun write => write.commitId ≠ some commitId }

def writesOf (sink : RecordingEvidenceSink Bundle Record) (visibility : CommitLedger) (runId : String) :
    List (RecordedWrite Bundle Record) :=
  (sink.writes.filter fun write => visibility.isVisible write.commitId).filter (·.runId = runId)

end RecordingEvidenceSink

end SecureHome.Adapters
