import SecureHome.Lifecycle.Machine

/-! Values that cross the ports: the fencing token, the answers of fenced
effects, and the facts a run's journal holds. -/

namespace SecureHome.Ports
open Lifecycle

/-- The fencing token, presented to the operation it fences. -/
structure RunFence where
  runId : String
  generation : Nat
  deriving DecidableEq, Repr

/-- A stale fence means ownership moved. A conflicting replay means a repeated
identity carried a different fact. Neither stands for the other. -/
inductive FenceReason where
  | staleFence
  | conflictingReplay
  deriving DecidableEq, Repr

def FenceReason.label : FenceReason → String
  | staleFence => "stale_fence"
  | conflictingReplay => "conflicting_replay"

inductive FenceOutcome where
  | ok
  | refused (reason : FenceReason) (detail : String)
  deriving DecidableEq, Repr

inductive AcquisitionEpoch where
  | production
  | verification
  deriving DecidableEq, Repr

def AcquisitionEpoch.label : AcquisitionEpoch → String
  | production => "production"
  | verification => "verification"

inductive AcquisitionOutcome where
  | acquired
  | failed
  | refusedToken
  deriving DecidableEq, Repr

structure JournaledAcquisition where
  epoch : AcquisitionEpoch
  source : String
  outcome : AcquisitionOutcome
  detail : Option String
  deriving DecidableEq, Repr

structure JournaledHold where
  state : LifecycleState
  transition : String
  detail : String
  instant : String
  deriving DecidableEq, Repr

/-- One journal fact, by category. Two facts are the same when category and
content agree, which is what the canonical text compares. -/
inductive JournalFact where
  | transition (entry : TransitionEntry)
  | rejection (entry : RejectionEntry)
  | acquisition (entry : JournaledAcquisition)
  | hold (entry : JournaledHold)
  deriving DecidableEq, Repr

/-- An event carries its own sequence. Equality of events stands for equality
of their canonical text. -/
class Sequenced (Event : Type) where
  sequence : Event → Nat

/-- The part of an envelope every event crossing the sink has. -/
structure EventEnvelope where
  eventType : String
  sequence : Nat
  deriving DecidableEq, Repr

instance : Sequenced EventEnvelope := ⟨EventEnvelope.sequence⟩

/-- What a run can durably produce in the evidence sink. -/
inductive GovernedRecord (Bundle Record : Type) where
  | evidenceBundle (bundle : Bundle)
  | earlyTerminationRecord (record : Record)
  deriving DecidableEq, Repr

end SecureHome.Ports
