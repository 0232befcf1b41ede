import SecureHome.Orchestration.Phases

/-! Terminal settlement after an interruption or an escaping port fault, each behind
its own bounded window. -/

namespace SecureHome.Orchestration
open Lifecycle Ports

variable {World : Type} (env : RunEnvironment World)

/-- The conclusion of an attempt whose settlement did not finish. The outbox is not
asked here. -/
def incompleteOf (scope : RunScope) (runId : String) (intended : LifecycleState) (detail : String) : RunConclusion :=
  let base : RunConclusion :=
    { runId, kind := .settlementFailed, state := scope.machine.state, produced := .none, detail
      transitions := scope.machine.transitionRecord, rejections := scope.machine.rejections }
  if scope.fenceLost.isSome then { base with kind := .ownershipLost }
  else if scope.recorded ≠ .none ∧ isTerminal scope.machine.state then
    { base with kind := .terminal, produced := scope.recorded }
  else { base with intendedTerminal := some intended }

def incomplete (intended : LifecycleState) (detail : String) : Procedure World RunConclusion := do
  let scope := (← get).scope
  tell (.incomplete scope)
  return incompleteOf scope env.request.runId intended detail

def cleanupEnvironment (ports : Boundary) : RunEnvironment World := { env with ports, commitSignal := ports }

/-- What a terminal is made of: the observations, or the facts that were already true
when the run was stopped. -/
def seenBy (scope : RunScope) : EstablishedRun → Option (Authority × Observations)
  | .requested => none
  | .authorized authority => some (authority, scope.terminalEvidence)
  | .observed authority observations => some (authority, observations)

/-- The terminal of an interrupt, unless the run belongs to another holder now. -/
def interruptTerminal (reason : InterruptReason) (detail : String) : Procedure World Unit := do
  if (← get).scope.fenceLost.isSome then return ()
  else
    let _ ← reachTerminal env.outside reason.kind detail

def interruptFallback (reason : InterruptReason) (detail : String) (failure : Failure) : Procedure World RunConclusion := do
  interruptTerminal env reason detail
  swallow (flushJournal env.outside env.ports)
  swallow (release env.outside env.ports)
  incomplete env reason.terminal s!"{detail}; terminal settlement was incomplete: {failure.describe}"

/-- Write the governed record an interrupted run owes. -/
def recordInterrupt (reason : InterruptReason) (detail : String) : Procedure World RunConclusion := do
  let scope := (← get).scope
  match seenBy scope scope.established with
  | some (authority, seen) => finish env authority seen reason.kind detail reason.terminal
  | none =>
    -- The terminal may already have been taken: then only the record is missing.
    if isTerminal scope.machine.state then writeEarlyTerminalRecord env detail
    else terminateEarly env reason.kind detail

/-- A cancellation or timeout interrupted a port call. Stopping the session and writing
the record each get a window of their own. -/
def settleInterrupt (reason : InterruptReason) : Procedure World RunConclusion := do
  let detail := s!"the run was {reason.past} while a port was in flight"
  disarm
  stopSession env (settlement env.outside) reason
  let recordWindow ← settlement env.outside
  let cleanup := cleanupEnvironment env recordWindow
  tryCatch (recordInterrupt cleanup reason detail) fun failure => interruptFallback cleanup reason detail failure

/-- The end of a recovery that threw. An interrupt passes on to its own settlement;
anything else is reported as it stands. -/
def recoveryFailed (window : Boundary) (reported : String) : Failure → Procedure World RunConclusion
  | .control (.interrupted reason) => settleInterrupt env reason
  | failure =>
    incomplete (cleanupEnvironment env window) .indeterminate
      s!"{reported}; terminal settlement was incomplete: {failure.describe}"

/-- Last-resort recovery for an escaping port fault. The record follows what the run
had established. -/
def recoverRun (detail : String) : Procedure World RunConclusion := do
  let window ← recovery env.outside
  let cleanup := cleanupEnvironment env window
  let scope := (← get).scope
  match scope.fenceLost, seenBy scope scope.established with
  | some lost, _ =>
    let reported := s!"{detail}; {lost}"
    tryCatch
      (do
        flushJournal env.outside window
        incomplete cleanup .indeterminate reported)
      (recoveryFailed env window reported)
  | none, some (authority, seen) =>
    tryCatch (finish cleanup authority seen .indeterminate detail .indeterminate) (recoveryFailed env window detail)
  | none, none =>
    let reached ← reachTerminal env.outside .indeterminate detail
    let reported := match reached with
      | .ok _ => detail
      | .error refused => s!"{detail}; {refused}"
    tryCatch
      (do
        flushJournal env.outside window
        if (← get).scope.authorityCaptured then
          incomplete cleanup .indeterminate s!"{reported}; the recovery terminal was not durably recorded"
        else writeEarlyTerminalRecord cleanup reported)
      (recoveryFailed env window reported)

end SecureHome.Orchestration
