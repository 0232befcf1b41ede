/-! The closed lifecycle vocabulary and the declared transition table. -/

namespace SecureHome.Lifecycle

inductive LifecycleState where
  | requested
  | profileResolved
  | eligible
  | sandboxStarted
  | running
  | verifying
  | evidenceSealed
  | completed
  | refused
  | operationalFailure
  | cancelled
  | timedOut
  | indeterminate
  deriving DecidableEq, Repr

namespace LifecycleState

/-- The text the source writes for a state. -/
def label : LifecycleState → String
  | requested => "REQUESTED"
  | profileResolved => "PROFILE_RESOLVED"
  | eligible => "ELIGIBLE"
  | sandboxStarted => "SANDBOX_STARTED"
  | running => "RUNNING"
  | verifying => "VERIFYING"
  | evidenceSealed => "EVIDENCE_SEALED"
  | completed => "COMPLETED"
  | refused => "REFUSED"
  | operationalFailure => "OPERATIONAL_FAILURE"
  | cancelled => "CANCELLED"
  | timedOut => "TIMED_OUT"
  | indeterminate => "INDETERMINATE"

end LifecycleState

def isTerminal : LifecycleState → Bool
  | .completed | .refused | .operationalFailure | .cancelled | .timedOut | .indeterminate => true
  | _ => false

/-- Every state from PROFILE_RESOLVED on has the identities a bundle needs. -/
def canConstructEvidence (state : LifecycleState) : Bool := state ≠ .requested

inductive TransitionKind where
  | resolveProfile
  | decideEligibility
  | commitSpend
  | beginExecution
  | beginVerification
  | sealEvidence
  | complete
  | refuse
  | operationalFault
  | cancel
  | timeout
  | indeterminate
  deriving DecidableEq, Repr

namespace TransitionKind

def label : TransitionKind → String
  | resolveProfile => "resolve_profile"
  | decideEligibility => "decide_eligibility"
  | commitSpend => "commit_spend"
  | beginExecution => "begin_execution"
  | beginVerification => "begin_verification"
  | sealEvidence => "seal_evidence"
  | complete => "complete"
  | refuse => "refuse"
  | operationalFault => "operational_fault"
  | cancel => "cancel"
  | timeout => "timeout"
  | indeterminate => "indeterminate"

end TransitionKind

/-- A table gives the declared next state, or nothing for an undeclared pair. -/
abbrev TransitionTable := LifecycleState → TransitionKind → Option LifecycleState

/-- The branches available from every non-terminal state. -/
def terminalBranches : TransitionKind → Option LifecycleState
  | .refuse => some .refused
  | .operationalFault => some .operationalFailure
  | .cancel => some .cancelled
  | .timeout => some .timedOut
  | .indeterminate => some .indeterminate
  | _ => none

def withTerminals (kind : TransitionKind) (target : LifecycleState) : TransitionKind → Option LifecycleState :=
  fun attempted => if attempted = kind then some target else terminalBranches attempted

/-- The canonical table. COMPLETED is a progress state with an empty row, and
the other terminals have no row at all. -/
def transitions : TransitionTable
  | .requested => withTerminals .resolveProfile .profileResolved
  | .profileResolved => withTerminals .decideEligibility .eligible
  | .eligible => withTerminals .commitSpend .sandboxStarted
  | .sandboxStarted => withTerminals .beginExecution .running
  | .running => withTerminals .beginVerification .verifying
  | .verifying => withTerminals .sealEvidence .evidenceSealed
  | .evidenceSealed => withTerminals .complete .completed
  | _ => fun _ => none

def declaredNext (table : TransitionTable) (state : LifecycleState) (kind : TransitionKind) : Option LifecycleState :=
  table state kind

/-- A supplied table may remove declared pairs; it may add and redirect none. -/
def Narrows (table : TransitionTable) : Prop :=
  ∀ state kind next, table state kind = some next → transitions state kind = some next

theorem Narrows.canonical : Narrows transitions := fun _ _ _ declared => declared

theorem transitions_terminal {state : LifecycleState} (terminal : isTerminal state = true) (kind : TransitionKind) :
    transitions state kind = none := by
  cases state <;> first | rfl | cases terminal

/-- A narrowing leaves no terminal state. -/
theorem Narrows.source {table : TransitionTable} (narrows : Narrows table) {state next : LifecycleState}
    {kind : TransitionKind} (declared : table state kind = some next) : isTerminal state = false := by
  cases terminal : isTerminal state with
  | false => rfl
  | true =>
    have canonical := narrows state kind next declared
    rw [transitions_terminal terminal kind] at canonical
    cases canonical

end SecureHome.Lifecycle
