import SecureHome.Lifecycle.Transitions

/-! The run's single writer. Every attempt either takes a declared transition or
leaves a recorded rejection. Each operation reads the clock at most once per
entry it records, so the instant is an argument. -/

namespace SecureHome.Lifecycle

structure TransitionEntry where
  runId : String
  source : LifecycleState
  target : LifecycleState
  kind : TransitionKind
  cause : String
  instant : String
  deriving DecidableEq, Repr

inductive RejectionReason where
  | undeclaredTransition
  | terminalState
  | staleWriter
  | preconditionUnmet
  | foreignClaim
  deriving DecidableEq, Repr

structure RejectionEntry where
  runId : String
  state : LifecycleState
  attempted : TransitionKind
  reason : RejectionReason
  detail : String
  instant : String
  deriving DecidableEq, Repr

/-- A projection some machine minted. `owner` and `serial` stand for the object's
identity, which is what the minting machine remembers. -/
structure CommitCapability where
  owner : Nat
  serial : Nat
  entries : List TransitionEntry
  fromVersion : Nat
  deriving DecidableEq, Repr

structure WriteClaim where
  runId : String
  version : Nat
  deriving DecidableEq, Repr

inductive TransitionResult where
  | advanced (state : LifecycleState) (entry : TransitionEntry)
  | rejected (state : LifecycleState) (entry : RejectionEntry)
  deriving DecidableEq, Repr

structure RunMachine where
  identity : Nat := 0
  runId : String
  table : TransitionTable := transitions
  transitionRecord : List TransitionEntry := []
  rejections : List RejectionEntry := []
  state : LifecycleState := .requested
  version : Nat := 0
  journaledTransitions : Nat := 0
  journaledRejections : Nat := 0
  minted : Nat := 0
  projections : List Nat := []

/-- One step of a projection: the transition asked for and its cause. -/
structure ProjectedStep where
  kind : TransitionKind
  cause : String

inductive Projection where
  | projected (capability : CommitCapability)
  | refused (kind : TransitionKind) (source : LifecycleState)

namespace RunMachine

def permits (machine : RunMachine) (kind : TransitionKind) : Bool :=
  !isTerminal machine.state && (declaredNext machine.table machine.state kind).isSome

def pendingTransitions (machine : RunMachine) : List TransitionEntry :=
  machine.transitionRecord.drop machine.journaledTransitions

def pendingRejections (machine : RunMachine) : List RejectionEntry :=
  machine.rejections.drop machine.journaledRejections

def confirmJournaled (machine : RunMachine) (transitions rejections : Nat) : RunMachine :=
  { machine with
    journaledTransitions := machine.journaledTransitions + transitions
    journaledRejections := machine.journaledRejections + rejections }

def claim (machine : RunMachine) : WriteClaim := ⟨machine.runId, machine.version⟩

def reject (machine : RunMachine) (attempted : TransitionKind) (reason : RejectionReason) (detail instant : String) :
    TransitionResult × RunMachine :=
  let entry : RejectionEntry := ⟨machine.runId, machine.state, attempted, reason, detail, instant⟩
  (.rejected machine.state entry, { machine with rejections := machine.rejections ++ [entry] })

def apply (machine : RunMachine) (claim : WriteClaim) (kind : TransitionKind) (cause instant : String) :
    TransitionResult × RunMachine :=
  if claim.runId ≠ machine.runId then
    machine.reject kind .foreignClaim
      s!"the claim was taken for run {claim.runId}; this machine advances run {machine.runId}" instant
  else if claim.version ≠ machine.version then
    machine.reject kind .staleWriter
      s!"the run advanced to version {machine.version} after this claim was taken at {claim.version}" instant
  else if isTerminal machine.state then
    machine.reject kind .terminalState
      s!"{machine.state.label} is terminal and accepts no further transition" instant
  else
    match declaredNext machine.table machine.state kind with
    | none =>
      machine.reject kind .undeclaredTransition
        s!"the machine declares no {kind.label} transition for {machine.state.label}" instant
    | some next =>
      let entry : TransitionEntry := ⟨machine.runId, machine.state, next, kind, cause, instant⟩
      (.advanced next entry,
        { machine with
          state := next
          version := machine.version + 1
          transitionRecord := machine.transitionRecord ++ [entry] })

def hold (machine : RunMachine) (kind : TransitionKind) (detail instant : String) : TransitionResult × RunMachine :=
  machine.reject kind .preconditionUnmet detail instant

/-- Claim and apply in one step, for the ordinary sequential path. -/
def advance (machine : RunMachine) (kind : TransitionKind) (cause instant : String) : TransitionResult × RunMachine :=
  machine.apply machine.claim kind cause instant

/-- The declared prefix of a projected sequence, and the step that stopped it. -/
def chart (table : TransitionTable) : LifecycleState → List ProjectedStep →
    List (LifecycleState × LifecycleState × ProjectedStep) × Option (TransitionKind × LifecycleState)
  | _, [] => ([], none)
  | state, step :: rest =>
    if isTerminal state then ([], some (step.kind, state))
    else
      match declaredNext table state step.kind with
      | none => ([], some (step.kind, state))
      | some next =>
        let charted := chart table next rest
        ((state, next, step) :: charted.1, charted.2)

/-- Project a sequence without applying it; entry `i` reads the clock as `instants[i]`. -/
def project (machine : RunMachine) (steps : List ProjectedStep) (instants : List String) : Projection × RunMachine :=
  match chart machine.table machine.state steps with
  | (_, some (kind, source)) => (.refused kind source, machine)
  | (charted, none) =>
    let entries := List.zipWith
      (fun (leg : LifecycleState × LifecycleState × ProjectedStep) instant =>
        (⟨machine.runId, leg.1, leg.2.1, leg.2.2.kind, leg.2.2.cause, instant⟩ : TransitionEntry))
      charted instants
    let capability : CommitCapability := ⟨machine.identity, machine.minted, entries, machine.version⟩
    (.projected capability,
      { machine with minted := machine.minted + 1, projections := machine.minted :: machine.projections })

/-- Whether the capability is one this machine minted and has not yet spent. -/
def remembers (machine : RunMachine) (capability : CommitCapability) : Bool :=
  capability.owner == machine.identity && machine.projections.contains capability.serial

/-- Adopt a projection that has been committed. The capability is spent even when
it turns out to be stale. -/
def commitProjected (machine : RunMachine) (capability : CommitCapability) : Except String Unit × RunMachine :=
  if !machine.remembers capability then
    (.error ("commitProjected requires a capability minted by project() on this machine; " ++
      "an unprojected entry list cannot advance it"), machine)
  else
    let spent := { machine with projections := machine.projections.erase capability.serial }
    if capability.fromVersion ≠ machine.version then
      (.error (s!"this capability was projected from version {capability.fromVersion} and the machine is at " ++
        s!"{machine.version}; a stale projection cannot advance it"), spent)
    else
      (.ok (),
        { spent with
          transitionRecord := machine.transitionRecord ++ capability.entries
          state := (capability.entries.getLast?.map (·.target)).getD machine.state
          version := machine.version + capability.entries.length
          journaledTransitions := machine.journaledTransitions + capability.entries.length })

end RunMachine

end SecureHome.Lifecycle
