import SecureHome.Adapters.Finalization
import SecureHome.Core.Decisions

/-! Every asynchronous port method as one request, its answer, and what became of
it in flight. The ports, the process clock and the caller's probe are everything
an attempt does not own. -/

namespace SecureHome.Ports
open Lifecycle Contracts Core Adapters

inductive InterruptReason where
  | cancel
  | timeout
  deriving DecidableEq, Repr

namespace InterruptReason

def label : InterruptReason → String
  | cancel => "cancel"
  | timeout => "timeout"

/-- How the source words an interrupted run. -/
def past : InterruptReason → String
  | cancel => "cancelled"
  | timeout => "timed out"

/-- The terminal each interrupt reason maps to. -/
def terminal : InterruptReason → LifecycleState
  | cancel => .cancelled
  | timeout => .timedOut

def kind : InterruptReason → TransitionKind
  | cancel => .cancel
  | timeout => .timeout

end InterruptReason

/-- A bounded attempt. `id` stands for the object, whose timer fires at most once. -/
structure Window where
  id : Nat
  expiresAt : Nat
  deriving DecidableEq, Repr

/-- The guard an awaited call crosses: the run's own deadline, a settlement
ceiling, or a recovery ceiling under which the run's deadline stays live. -/
inductive Boundary where
  | run
  | settlement (window : Window)
  | recovery (window : Window)
  deriving DecidableEq, Repr

namespace Boundary

/-- Whether the boundary polls the caller while a call is in flight. -/
def polls : Boundary → Bool
  | settlement _ => false
  | _ => true

def ceiling : Boundary → Option Window
  | run => none
  | settlement window | recovery window => some window

end Boundary

structure WorkspaceHandle where
  workspaceRef : String
  root : String
  deriving DecidableEq, Repr

structure SessionHandle where
  sessionRef : String
  wallClockSeconds : Int
  deriving DecidableEq, Repr

inductive LeaseClaim where
  | ok (generation : Nat)
  | refused (detail : String)
  deriving DecidableEq, Repr

/-- An answer that creates something. A refusal created nothing. -/
inductive Acquisition (Handle : Type) where
  | ok (handle : Handle)
  | refused (stale : Bool) (detail : String)
  deriving DecidableEq, Repr

inductive SessionStart where
  | ok
  | refused (stale : Bool) (detail : String)
  deriving DecidableEq, Repr

structure SessionClosure where
  tornDown : Bool
  stale : Bool
  deriving DecidableEq, Repr

inductive ApplyBackOutcome where
  | ok (applied : Nat)
  | refused (reason : Option FenceReason) (detail : String)
  deriving DecidableEq, Repr

inductive BaseObservation where
  | ok (digest : String)
  | failed (failure : String)
  deriving DecidableEq, Repr

inductive GateReport where
  | passed
  | failed (reason : String) (truncated : Bool)
  | declaredSkip (reason : String)
  | toolchainUnavailable (reason : String)
  | environmentalFault (detail : String)
  | staleFence (detail : String)
  deriving DecidableEq, Repr

structure AdapterCall where
  tool : String
  disposition : CallDisposition
  deriving DecidableEq, Repr

/-- What the run reads of an adapter's observation. -/
structure AdapterObservation where
  calls : List AdapterCall
  terminal : TerminalObservations
  deriving DecidableEq, Repr

inductive AdapterReport where
  | observed (observation : AdapterObservation)
  | environmentalFault (detail : String)
  | staleFence (detail : String)
  deriving DecidableEq, Repr

structure RunInput where
  task : String
  parameters : List (String × String)
  deriving DecidableEq, Repr

structure AdapterInvocation where
  fence : RunFence
  adapter : String
  profile : ProfileIdentity
  input : RunInput
  grant : CapabilityGrant
  routing : RoutingGroup
  limits : SessionLimits
  credentials : List String
  sessionRef : String
  rootRef : String
  deriving DecidableEq, Repr

/-- A port method with its request. The four journal appends are one request: the
fact carries its category. -/
inductive Call where
  | claim (runId attemptId : String)
  | abandon (runId attemptId : String)
  | renew (fence : RunFence)
  | release (fence : RunFence)
  | read (runId : String) (epoch : AcquisitionEpoch) (source : String)
  | append (fence : RunFence) (entryId : String) (fact : JournalFact)
  | emit (fence : RunFence) (event : RunEvent)
  | write (fence : RunFence) (recordId : String) (record : GovernedRecord EvidenceBundle EarlyTerminationRecord)
  | commit (commit : FinalizationCommit RunEvent EvidenceBundle) (signal : Boundary)
  | prepare (fence : RunFence) (sessionRef : String) (profile : ProfileIdentity) (limits : SessionLimits)
  | start (fence : RunFence) (sessionRef : String)
  | interrupt (fence : RunFence) (sessionRef : String) (reason : InterruptReason)
  | close (fence : RunFence) (sessionRef : String)
  | provision (fence : RunFence) (workspaceRef sourceRef : String)
  | applyBack (fence : RunFence) (workspaceRef : String) (changes : List ObservedChange)
      (contractId digest : String)
  | discard (fence : RunFence) (workspaceRef : String)
  | observeBase (runId root : String)
  | observe (runId root : String)
  | observeArtifacts (runId : String) (paths : List String)
  | runGate (fence : RunFence) (gateId : String) (spec : GateEntry) (sessionRef : String)
  | invoke (invocation : AdapterInvocation)

@[reducible] def Answer : Call → Type
  | .claim .. => LeaseClaim
  | .abandon .. => Unit
  | .renew .. => Bool
  | .release .. => Unit
  | .read .. => AuthorityBytes
  | .append .. => FenceOutcome
  | .emit .. => FenceOutcome
  | .write .. => FenceOutcome
  | .commit .. => CommitOutcome
  | .prepare .. => Acquisition SessionHandle
  | .start .. => SessionStart
  | .interrupt .. => FenceOutcome
  | .close .. => SessionClosure
  | .provision .. => Acquisition WorkspaceHandle
  | .applyBack .. => ApplyBackOutcome
  | .discard .. => FenceOutcome
  | .observeBase .. => BaseObservation
  | .observe .. => WorkspaceObservation
  | .observeArtifacts .. => ArtifactObservation
  | .runGate .. => GateReport
  | .invoke .. => AdapterReport

inductive EffectClass where
  | discardableRead
  | acknowledgedEffect
  | acquisition
  | finalization
  | cleanup
  deriving DecidableEq, Repr

/-- The effect-semantics table. -/
def portEffects : Call → EffectClass
  | .claim .. => .acquisition
  | .abandon .. => .cleanup
  | .renew .. => .discardableRead
  | .release .. => .cleanup
  | .read .. => .discardableRead
  | .append .. => .acknowledgedEffect
  | .emit .. => .acknowledgedEffect
  | .write .. => .acknowledgedEffect
  | .commit .. => .finalization
  | .prepare .. => .acquisition
  | .start .. => .acknowledgedEffect
  | .interrupt .. => .cleanup
  | .close .. => .cleanup
  | .provision .. => .acquisition
  | .applyBack .. => .acknowledgedEffect
  | .discard .. => .cleanup
  | .observeBase .. => .discardableRead
  | .observe .. => .discardableRead
  | .observeArtifacts .. => .discardableRead
  | .runGate .. => .discardableRead
  | .invoke .. => .acknowledgedEffect

/-- What a timer or the caller's poll does while a call is in flight. -/
inductive Signal where
  | cancelled
  | wallClock
  | ceiling
  deriving DecidableEq, Repr

/-- How a flight ends: the port settled, the port threw, or the boundary's abort
came first and the port's own end is never seen. -/
inductive Ending (Value : Type) where
  | settled (value : Value)
  | threw (message : String)
  | unanswered

structure Flight (Value : Type) where
  signals : List Signal := []
  ending : Ending Value

/-- What the caller's probe does when it is consulted. -/
inductive Probe where
  | quiet
  | cancel
  | throws
  deriving DecidableEq, Repr

/-- Everything outside an attempt, over worlds `World`. A port may do anything to
the world at any call, whether or not the attempt hears of it. -/
structure Surroundings (World : Type) where
  perform : (call : Call) → World → Flight (Answer call) × World
  clockNow : String → World → Except String String × World
  dateNow : World → Nat × World
  interrupt : Option (World → Probe × World)
  randomUUID : World → String × World
  /-- How many occupied identities an emission can walk past before the boundary that
  guards its calls is spent. -/
  patience : Nat

end SecureHome.Ports
