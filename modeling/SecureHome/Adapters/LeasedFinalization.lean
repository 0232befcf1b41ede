import SecureHome.Adapters.Finalization

/-! The coordinator under a lease. The lease may expire at any step and be granted
again; it computes a renewal's answer when it is asked, and the operation reads that
answer in a later step. -/

namespace SecureHome.RunState
open Ports

/-- Who holds each run, and every generation that was ever granted. -/
structure RunLease where
  held : String → Option Nat := fun _ => none
  granted : List RunFence := []

namespace RunLease

/-- A free run is granted to a generation later than every earlier one of it. -/
def grant (lease : RunLease) (fence : RunFence) : RunLease :=
  if (lease.held fence.runId).isNone ∧ ∀ earlier ∈ lease.granted, earlier.runId = fence.runId →
      earlier.generation < fence.generation then
    { held := Function.update lease.held fence.runId (some fence.generation), granted := fence :: lease.granted }
  else lease

/-- A release, an abandoned attempt or an expiry: the run is free again. -/
def expire (lease : RunLease) (runId : String) : RunLease :=
  { lease with held := Function.update lease.held runId none }

def renew (lease : RunLease) (fence : RunFence) : Bool := lease.held fence.runId == some fence.generation

end RunLease

end SecureHome.RunState

namespace SecureHome.Adapters
open Ports RunState TransactionalFinalization

structure LeasedFinalization (Event Bundle Early : Type) where
  lease : RunLease := {}
  system : TransactionalFinalization Event Bundle Early := {}

inductive LeasedStep (Event Bundle Early : Type) where
  | grant (fence : RunFence)
  | expire (runId : String)
  /-- The lease answers a renewal from what it holds now. -/
  | renews (operation : Nat)
  | renewFails (operation : Nat) (detail : String)
  /-- A holder's own step, or the continuation of one of its commits. -/
  | system (step : Step Event Bundle Early)

namespace LeasedFinalization

variable {Event Bundle Early : Type} [DecidableEq Event] [Sequenced Event] [DecidableEq Bundle] [DecidableEq Early]

/-- The generation a step presents when it enters the system. -/
def presents : Step Event Bundle Early → Option RunFence
  | .commit commit _ _ => some commit.fence
  | .append fence _ _ | .emit fence _ | .write fence _ _ => some fence
  | .resume _ _ _ | .leaseAnswers _ _ => none

def serve (state : LeasedFinalization Event Bundle Early) :
    LeasedStep Event Bundle Early → LeasedFinalization Event Bundle Early
  | .grant fence => { state with lease := state.lease.grant fence }
  | .expire runId => { state with lease := state.lease.expire runId }
  | .renews operation =>
    match state.system.operations[operation]? with
    | none => state
    | some asked =>
      let answer := if state.lease.renew asked.commit.fence then LeaseAnswer.owned else .lost
      { state with system := state.system.leaseAnswers operation answer }
  | .renewFails operation detail => { state with system := state.system.leaseAnswers operation (.failed detail) }
  | .system (.leaseAnswers _ _) => state
  | .system step =>
    if (presents step).all fun fence => fence ∈ state.lease.granted then
      { state with system := state.system.step step }
    else state

end LeasedFinalization

end SecureHome.Adapters
