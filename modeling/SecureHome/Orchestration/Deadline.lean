import SecureHome.Orchestration.State

/-! The run's clocks and the guarded call. A boundary is checked on entry and, but
for an acknowledged publication, again when the answer arrives; in between the call
is raced against whatever spends the boundary. -/

namespace SecureHome.Orchestration
open Ports Adapters

variable {World : Type}

/-- How long settling or recovering may take. -/
def abandonGraceMs : Nat := 250

def acquisitionBudgetMs : Int := 60000

/-- The profile's grant, never more: a session may offer less, a control may only
shorten. -/
def boundedDeadlineMs (profileSeconds sessionSeconds : Int) (override : Option Int) : Int :=
  let offered := min (profileSeconds * 1000) (sessionSeconds * 1000)
  match override with
  | none => offered
  | some shortened => min offered shortened

def tell (happening : Happening) : Procedure World Unit :=
  modify fun attempt => { attempt with log := attempt.log ++ [happening] }

def modifyScope (change : RunScope → RunScope) : Procedure World Unit :=
  modify fun attempt => { attempt with scope := change attempt.scope }

def modifyDeadline (change : RunDeadline → RunDeadline) : Procedure World Unit :=
  modify fun attempt => { attempt with deadline := change attempt.deadline }

/-- Ask something synchronous of the outside. -/
def consult {Value : Type} (question : World → Value × World) : Procedure World Value :=
  modifyGet fun attempt => ((question attempt.world).1, { attempt with world := (question attempt.world).2 })

variable (outside : Surroundings World)

def raiseIfElapsed : Procedure World Unit := do
  let attempt ← get
  match attempt.deadline.reason, attempt.deadline.armedUntil with
  | none, some expiresAt =>
    let now ← consult outside.dateNow
    if expiresAt ≤ now then modifyDeadline (·.raise .timeout)
  | _, _ => pure ()

/-- The caller's probe, coerced: whatever it says or throws is a cancellation. -/
def poll : Procedure World Bool :=
  match outside.interrupt with
  | none => pure false
  | some probe => do return (← consult probe) ≠ .quiet

/-- Whether the run should stop now. -/
def interrupted : Procedure World (Option InterruptReason) := do
  raiseIfElapsed outside
  let attempt ← get
  match attempt.deadline.reason with
  | some reason => pure (some reason)
  | none =>
    if ← poll outside then modifyDeadline (·.raise .cancel)
    return (← get).deadline.reason

def setWallClock (expiresAt : Nat) : Procedure World Unit := do
  let attempt ← get
  if attempt.deadline.armedUntil = some expiresAt ∧ attempt.deadline.wallClock then pure ()
  else
    let now ← consult outside.dateNow
    modifyDeadline fun deadline => { deadline with armedUntil := some expiresAt, wallClock := now < expiresAt }
    if expiresAt ≤ now then modifyDeadline (·.raise .timeout)

def armAcquisition (deadlineMs : Int) : Procedure World Unit := do
  setWallClock outside ((← get).deadline.startedAt + deadlineMs.toNat)

def armProfile (deadlineMs : Int) (cancelAfterMs : Option Int) : Procedure World Unit := do
  setWallClock outside ((← get).deadline.startedAt + deadlineMs.toNat)
  let attempt ← get
  match cancelAfterMs with
  | none => pure ()
  | some afterMs =>
    if attempt.deadline.cancelClock then pure ()
    else
      let now ← consult outside.dateNow
      if attempt.deadline.startedAt + afterMs.toNat ≤ now then modifyDeadline (·.raise .cancel)
      else modifyDeadline ({ · with cancelClock := true })

/-- Narrow the established clock without restarting it. -/
def narrowProfile (deadlineMs : Int) : Procedure World Unit := do
  let attempt ← get
  let proposed := attempt.deadline.startedAt + deadlineMs.toNat
  setWallClock outside (match attempt.deadline.armedUntil with
    | none => proposed
    | some armed => min armed proposed)

def disarm : Procedure World Unit := modifyDeadline (·.disarm)

def openWindow : Procedure World Window := do
  let now ← consult outside.dateNow
  let attempt ← get
  set { attempt with windows := attempt.windows + 1 }
  return ⟨attempt.windows, now + abandonGraceMs⟩

/-- A fresh boundary for governed terminal settlement. -/
def settlement : Procedure World Boundary := .settlement <$> openWindow outside

/-- A finite boundary under which the governed deadline stays live. -/
def recovery : Procedure World Boundary := .recovery <$> openWindow outside

/-- The deadline that wins at a boundary, and whose bound it is. -/
def expiryAt (deadline : RunDeadline) : Boundary → Option (Nat × ExpiryBound)
  | .run => deadline.armedUntil.map (·, .governed)
  | .settlement window => some (window.expiresAt, .attempt)
  | .recovery window =>
    match deadline.armedUntil with
    | none => some (window.expiresAt, .attempt)
    | some governed => some (if governed ≤ window.expiresAt then (governed, .governed) else (window.expiresAt, .attempt))

def windowElapsed (window : Window) : Procedure World Bool := do
  if window.id ∈ (← get).elapsed then return true
  else return window.expiresAt ≤ (← consult outside.dateNow)

/-- The check a boundary makes before a call starts and again when it returns. -/
def admission : Boundary → Procedure World Unit
  | .run => do
    raiseIfElapsed outside
    match (← get).deadline.reason with
    | some reason => throw (.control (.interrupted reason))
    | none => pure ()
  | .settlement window => do
    if ← windowElapsed outside window then throw (.control .settlementExpired)
  | .recovery window => do
    match ← interrupted outside with
    | some reason => throw (.control (.interrupted reason))
    | none => if ← windowElapsed outside window then throw (.control .settlementExpired)

/-- What a signal changes: a clock only if it is armed, a poll only where there is one. -/
def notice (boundary : Boundary) (attempt : Attempt World) : Signal → Attempt World
  | .cancelled =>
    if attempt.deadline.cancelClock || (boundary.polls && outside.interrupt.isSome) then
      { attempt with deadline := attempt.deadline.raise .cancel }
    else attempt
  | .wallClock =>
    if attempt.deadline.wallClock then { attempt with deadline := attempt.deadline.raise .timeout } else attempt
  | .ceiling =>
    match boundary.ceiling with
    | none => attempt
    | some window => { attempt with elapsed := window.id :: attempt.elapsed }

/-- What the boundary rejects a pending call with, once it is spent. -/
def rejection (attempt : Attempt World) : Boundary → Option ControlError
  | .run => attempt.deadline.reason.map .interrupted
  | .settlement window => if window.id ∈ attempt.elapsed then some .settlementExpired else none
  | .recovery window =>
    match attempt.deadline.reason with
    | some reason => some (.interrupted reason)
    | none => if window.id ∈ attempt.elapsed then some .settlementExpired else none

/-- A call nothing answers lasts until a signal spends its boundary. -/
def expire (boundary : Boundary) (attempt : Attempt World) : List Signal → ControlError × Attempt World
  | [] =>
    match boundary.ceiling with
    | none => (.interrupted ((attempt.deadline.raise .timeout).reason.getD .timeout),
        { attempt with deadline := attempt.deadline.raise .timeout })
    | some window => (.settlementExpired, { attempt with elapsed := window.id :: attempt.elapsed })
  | signal :: rest =>
    let noticed := notice outside boundary attempt signal
    match rejection noticed boundary with
    | some error => (error, noticed)
    | none => expire boundary noticed rest

/-- Start one call: refused at a spent boundary, otherwise made. -/
def launch (boundary : Boundary) (call : Call) : Procedure World (Flight (Answer call)) := do
  try admission outside boundary
  catch error =>
    tell (.barred call)
    throw error
  modifyGet fun attempt => ((outside.perform call attempt.world).1, attempt.issue outside call)

/-- Await a started call. An acknowledged publication is never discarded. -/
def settle (boundary : Boundary) (call : Call) (flight : Flight (Answer call)) : Procedure World (Answer call) := do
  match flight.ending with
  | .unanswered =>
    let error ← modifyGet fun attempt => expire outside boundary attempt flight.signals
    throw (.control error)
  | .threw message =>
    modify fun attempt => flight.signals.foldl (notice outside boundary) attempt
    throw (.fault message)
  | .settled answer =>
    modify fun attempt => flight.signals.foldl (notice outside boundary) attempt
    if portEffects call ≠ .finalization then admission outside boundary
    tell (.answered call answer)
    return answer

/-- One awaited call through a boundary. -/
def cross (boundary : Boundary) (call : Call) : Procedure World (Answer call) := do
  settle outside boundary call (← launch outside boundary call)

/-- The boundary alone stamps the expiry and whose it is. -/
def stamp (deadline : RunDeadline) (boundary : Boundary)
    (commit : FinalizationCommit Contracts.RunEvent Contracts.EvidenceBundle) :
    FinalizationCommit Contracts.RunEvent Contracts.EvidenceBundle :=
  let winning := expiryAt deadline boundary
  { commit with expiresAt := winning.map (·.1), bound := winning.map (·.2) }

def crossCommit (boundary signal : Boundary) (commit : FinalizationCommit Contracts.RunEvent Contracts.EvidenceBundle) :
    Procedure World CommitOutcome := do
  cross outside boundary (.commit (stamp (← get).deadline boundary commit) signal)

/-- Run a procedure and forget how it ended. -/
def swallow (procedure : Procedure World Unit) : Procedure World Unit :=
  tryCatch procedure fun _ => pure ()

end SecureHome.Orchestration
