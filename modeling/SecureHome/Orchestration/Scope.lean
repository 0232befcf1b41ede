import SecureHome.Orchestration.Deadline

/-! What a run scope does to itself: taking transitions, landing its journal, and
letting go of what it holds. -/

namespace SecureHome.Orchestration
open Lifecycle Ports RunState

variable {World : Type} (outside : Surroundings World)

/-- The timestamp used when the clock itself is what failed. -/
def unestablishedInstant : String := "1970-01-01T00:00:00.000Z"

/-- The clock, which may throw. -/
def clockNow (runId : String) : Procedure World String := do
  match ← consult (outside.clockNow runId) with
  | .ok instant => return instant
  | .error message => throw (.fault message)

/-- The clock as recording may consult it. -/
def safeNow (runId : String) : Procedure World String := do
  match ← consult (outside.clockNow runId) with
  | .ok instant => return instant
  | .error _ => return unestablishedInstant

/-- Take one transition, or have the refusal recorded. -/
def advance (kind : TransitionKind) (cause : String) : Procedure World TransitionResult := do
  let instant ← safeNow outside (← get).scope.machine.runId
  modifyGet (Attempt.advance kind cause instant)

def hold (kind : TransitionKind) (detail : String) : Procedure World Unit := do
  let instant ← safeNow outside (← get).scope.machine.runId
  modify (Attempt.hold kind detail instant)

/-- The instants a projection reads, one for each step it charts. -/
def instants (runId : String) : Nat → Procedure World (List String)
  | 0 => return []
  | steps + 1 => do
    let instant ← safeNow outside runId
    return instant :: (← instants runId steps)

/-- Project a sequence without applying it. Only charted steps read the clock. -/
def project (steps : List ProjectedStep) : Procedure World Projection := do
  let machine := (← get).scope.machine
  let charted := (RunMachine.chart machine.table machine.state steps).1.length
  let read ← instants outside machine.runId charted
  modifyGet (Attempt.project steps read)

/-- Adopt the entries a commit made durable. -/
def adoptCommitted (capability : CommitCapability) : Procedure World Unit := do
  match ← modifyGet (Attempt.adopt capability) with
  | .ok () => pure ()
  | .error message => throw (.fault message)

/-- The one owner of a terminal transition outside the walk: the declared terminal,
else INDETERMINATE, else the refusal. -/
def reachTerminal (kind : TransitionKind) (why : String) : Procedure World (Except String TransitionKind) := do
  let source := (← get).scope.machine.state
  match ← advance outside kind why with
  | .advanced _ _ => return .ok kind
  | .rejected _ _ =>
    let refused : Procedure World (Except String TransitionKind) := do
      return .error (s!"the machine granted no terminal from {(← get).scope.machine.state.label}: {kind.label} was " ++
        "refused, and so was indeterminate")
    if kind = .indeterminate then refused
    else
      match ← advance outside .indeterminate
        (s!"{why}; and the machine declares no {kind.label} from {source.label}, so the terminal state cannot be " ++
          "established") with
      | .advanced _ _ => return .ok .indeterminate
      | .rejected _ _ => refused

/-- Land pending entries from the head until one does not land. -/
def flushPending (boundary : Boundary) : Nat → Procedure World Unit
  | 0 => pure ()
  | entries + 1 => do
    let attempt ← get
    match attempt.scope.outbox.head with
    | none => pure ()
    | some entry =>
      match ← cross outside boundary (.append attempt.scope.fence entry.entryId entry.fact) with
      | .ok =>
        modifyScope RunScope.landed
        flushPending boundary entries
      -- Corrupted identity is not ownership loss: the entry stays pending.
      | .refused .conflictingReplay _ => pure ()
      | .refused .staleFence detail => modifyScope (·.loseFence detail)

/-- Land everything recorded since the last tick. A journal fault leaves the entry
pending; control flow passes through. -/
def flushJournal (boundary : Boundary) : Procedure World Unit := do
  if (← get).scope.fenceLost.isSome then pure ()
  else
    modifyScope RunScope.drain
    let entries := (← get).scope.outbox.pending.length
    tryCatch (flushPending outside boundary entries) fun failure =>
      match failure with
      | .control _ => throw failure
      | .fault _ => pure ()

/-- Start every cleanup before awaiting any; none may stop another. -/
def sweep (boundary : Boundary) : List Call → Procedure World Unit
  | [] => pure ()
  | call :: rest => do
    let flight ← tryCatch (some <$> launch outside boundary call) fun _ => pure none
    sweep boundary rest
    match flight with
    | none => pure ()
    | some flight => swallow (do let _ ← settle outside boundary call flight)

/-- The teardown calls a scope owes. -/
def RunScope.cleanup (scope : RunScope) : List Call :=
  (scope.workspaceRef.map (Call.discard scope.fence)).toList ++ (scope.sessionRef.map (Call.close scope.fence)).toList

/-- Release everything the run holds, unless it belongs to another holder now. -/
def release (boundary : Boundary) : Procedure World Unit := do
  let held := (← get).scope
  modifyScope RunScope.letGo
  if held.fenceLost.isSome then pure ()
  else sweep outside boundary held.cleanup

end SecureHome.Orchestration
