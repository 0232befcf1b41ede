import SecureHome.Lib.Program
import SecureHome.Orchestration.Runner

/-! What an attempt can do, one act at a time. Every guard is what the source has
checked, or heard, by the time it acts. -/

namespace SecureHome.Orchestration
open Relation Lib Lifecycle Ports RunState Contracts Core Adapters

variable {World : Type}

/-- A synchronous question moves the world. -/
inductive Consults (outside : Surroundings World) : World → World → Prop where
  | clock (runId : String) (world : World) : Consults outside world (outside.clockNow runId world).2
  | date (world : World) : Consults outside world (outside.dateNow world).2
  | uuid (world : World) : Consults outside world (outside.randomUUID world).2
  | probe {probe : World → Probe × World} (supplied : outside.interrupt = some probe) (world : World) :
      Consults outside world (probe world).2

/-- Clocks and counters moved; what the attempt owns and what it did are untouched.
A raised reason stands, and a window stays elapsed. -/
structure Passes (outside : Surroundings World) (before after : Attempt World) : Prop where
  world : ReflTransGen (Consults outside) before.world after.world
  scope : after.scope = before.scope
  log : after.log = before.log
  made : after.made = before.made
  reason : ∀ reason, before.deadline.reason = some reason → after.deadline.reason = some reason
  elapsed : before.elapsed ⊆ after.elapsed

/-- The traffic of guarded calls the attempt is permitted to make. -/
inductive Traffic (outside : Surroundings World) (permitted : Attempt World → Call → Prop) :
    Attempt World → Attempt World → Prop where
  | passes {before after : Attempt World} (passed : Passes outside before after) : Traffic outside permitted before after
  | issues {before : Attempt World} {call : Call} (allowed : permitted before call) :
      Traffic outside permitted before (before.issue outside call)
  | bars {before : Attempt World} (call : Call) :
      Traffic outside permitted before { before with log := before.log ++ [.barred call] }
  | hears {before : Attempt World} {call : Call} {answer : Answer call}
      (issued : ∃ lost, .issued call lost (.settled answer) ∈ before.log) :
      Traffic outside permitted before { before with log := before.log ++ [.answered call answer] }

/-- The attempt knows of no loss, and presents its own fence. -/
def Owns (attempt : Attempt World) (fence : RunFence) : Prop :=
  attempt.scope.fenceLost = none ∧ fence = attempt.scope.fence

/-- The calls of a walk: everything but acquisitions, teardown and the commit. -/
def Ordinary (attempt : Attempt World) : Call → Prop
  | .claim .. | .abandon .. | .release .. | .prepare .. | .provision .. | .close .. | .discard .. | .commit .. => False
  | .append fence entryId fact => Owns attempt fence ∧ attempt.scope.outbox.head = some ⟨entryId, fact⟩
  | .write fence _ record => Owns attempt fence ∧
      ∃ early, record = .earlyTerminationRecord early ∧ attempt.scope.earlyRecord = some early
  | .emit _ event => attempt.scope.fenceLost = none ∧ ∀ outcome, event.body ≠ .runTerminated outcome
  | _ => attempt.scope.fenceLost = none

/-- The identity is in the scope before the call that may create the resource. -/
def Acquiring (attempt : Attempt World) : Call → Prop
  | .provision fence workspaceRef _ =>
    Owns attempt fence ∧ attempt.scope.workspaceAttempt = some workspaceRef ∧ attempt.scope.workspace = none ∧
      ∀ fence workspaceRef root lost ending, .issued (.provision fence workspaceRef root) lost ending ∉ attempt.log
  | .prepare fence sessionRef _ _ =>
    Owns attempt fence ∧ attempt.scope.sessionAttempt = some sessionRef ∧ attempt.scope.session = none ∧
      ∀ fence sessionRef profile limits lost ending,
        .issued (.prepare fence sessionRef profile limits) lost ending ∉ attempt.log
  | _ => False

/-- Acts that neither take a transition nor touch a resource or a record. -/
inductive Quiet (outside : Surroundings World) : Attempt World → Attempt World → Prop where
  | traffic {before after : Attempt World} (step : Traffic outside Ordinary before after) : Quiet outside before after
  | drains {before : Attempt World} (owned : before.scope.fenceLost = none) :
      Quiet outside before { before with scope := before.scope.drain }
  | lands {before : Attempt World} {entry : OutboxEntry} (head : before.scope.outbox.head = some entry)
      (landed : ∃ fence, .answered (.append fence entry.entryId entry.fact) .ok ∈ before.log) :
      Quiet outside before { before with scope := before.scope.landed }
  | loses {before : Attempt World} (detail : String) :
      Quiet outside before { before with scope := before.scope.loseFence detail }
  | records {before : Attempt World} (fact : JournalFact) (other : ∀ entry, fact ≠ .transition entry) :
      Quiet outside before { before with scope := before.scope.record fact }
  | gathers {before : Attempt World} (terminalEvidence : Observations) :
      Quiet outside before { before with scope := { before.scope with terminalEvidence } }
  | captures {before : Attempt World} :
      Quiet outside before { before with scope := { before.scope with authorityCaptured := true } }

/-- The terminal a finish projects is the one its record says. -/
def Intends (kind : TransitionKind) (terminal : LifecycleState) : Prop :=
  terminalBranches kind = some terminal ∨ kind = .complete ∧ terminal = .completed

instance (kind : TransitionKind) (terminal : LifecycleState) : Decidable (Intends kind terminal) :=
  inferInstanceAs (Decidable (_ ∨ _))

/-- What holds of a commit when it is asked for: the walk is durable, and the tail,
the event and the bundle say one terminal. -/
structure Sealing (before : Attempt World) (capability : CommitCapability)
    (commit : FinalizationCommit Contracts.RunEvent EvidenceBundle) : Prop where
  owned : Owns before commit.fence
  durable : before.scope.outbox.pending = []
  drained : before.scope.machine.pendingTransitions = []
  remembered : before.scope.machine.remembers capability = true
  current : capability.fromVersion = before.scope.machine.version
  transitions : commit.intent.transitions = capability.entries
  projected : ∃ kind detail, Intends kind commit.intent.terminal ∧
    ∃ legs instants, RunMachine.chart before.scope.machine.table before.scope.machine.state
        (terminalSequence kind detail) = (legs, none) ∧ instants.length = legs.length ∧
      capability.entries = List.zipWith
        (fun (leg : LifecycleState × LifecycleState × ProjectedStep) instant =>
          (⟨before.scope.machine.runId, leg.1, leg.2.1, leg.2.2.kind, leg.2.2.cause, instant⟩ : TransitionEntry))
        legs instants
  outcome : ∃ detail, commit.intent.event.body = .runTerminated (outcomeFor commit.intent.terminal detail) ∧
    commit.intent.bundle.outcome = outcomeFor commit.intent.terminal detail

/-- The attempt ends in a terminal state, or under a table that grants none. -/
def Terminated (scope : RunScope) : Prop :=
  Narrows scope.machine.table → isTerminal scope.machine.state = true ∨
    scope.machine.table scope.machine.state .indeterminate = none

/-- A call was made, or its boundary was spent before it could be. -/
def Attended (call : Call) (log : List Happening) : Prop :=
  .barred call ∈ log ∨ ∃ lost ending, .issued call lost ending ∈ log

/-- Writes of the scope outside the walk's ordinary business. -/
inductive Alters (log : List Happening) : RunScope → RunScope → Prop where
  | waits (scope : RunScope) (detail : String) : Alters log scope { scope with held := some detail }
  | establishes (scope : RunScope) (established : EstablishedRun) : Alters log scope { scope with established }
  | asksWorkspace {scope : RunScope} (workspaceRef : String) (free : scope.workspaceRef = none) :
      Alters log scope { scope with workspaceAttempt := some workspaceRef }
  | gainsWorkspace {scope : RunScope} {fence : RunFence} {workspaceRef root : String} {handle : WorkspaceHandle}
      (asked : scope.workspaceAttempt = some workspaceRef)
      (answered : .answered (.provision fence workspaceRef root) (.ok handle) ∈ log) :
      Alters log scope { scope with workspace := some handle, workspaceAttempt := none }
  | lacksWorkspace {scope : RunScope} {fence : RunFence} {workspaceRef root : String} {stale : Bool} {detail : String}
      (asked : scope.workspaceAttempt = some workspaceRef)
      (answered : .answered (.provision fence workspaceRef root) (.refused stale detail) ∈ log) :
      Alters log scope { scope with workspaceAttempt := none }
  | asksSession {scope : RunScope} (sessionRef : String) (free : scope.sessionRef = none) :
      Alters log scope { scope with sessionAttempt := some sessionRef }
  | gainsSession {scope : RunScope} {fence : RunFence} {sessionRef : String} {profile : ProfileIdentity}
      {limits : SessionLimits} {handle : SessionHandle} (asked : scope.sessionAttempt = some sessionRef)
      (answered : .answered (.prepare fence sessionRef profile limits) (.ok handle) ∈ log) :
      Alters log scope { scope with session := some handle, sessionAttempt := none }
  | lacksSession {scope : RunScope} {fence : RunFence} {sessionRef : String} {profile : ProfileIdentity}
      {limits : SessionLimits} {stale : Bool} {detail : String} (asked : scope.sessionAttempt = some sessionRef)
      (answered : .answered (.prepare fence sessionRef profile limits) (.refused stale detail) ∈ log) :
      Alters log scope { scope with sessionAttempt := none }
  | keeps {scope : RunScope} {record : EarlyTerminationRecord} (absent : scope.earlyRecord = none)
      (said : ∃ detail, record.outcome = outcomeFor scope.machine.state detail)
      (terminated : Terminated scope) :
      Alters log scope { scope with earlyRecord := some record }
  | recordsEarly {scope : RunScope} {record : EarlyTerminationRecord} {fence : RunFence} {recordId : String}
      (kept : scope.earlyRecord = some record)
      (answered : .answered (.write fence recordId (.earlyTerminationRecord record)) .ok ∈ log) :
      Alters log scope { scope with recorded := .earlyTerminationRecord }
  | recordsBundle {scope : RunScope} {commit : FinalizationCommit Contracts.RunEvent EvidenceBundle}
      {signal : Boundary} (answered : .answered (.commit commit signal) .ok ∈ log) :
      Alters log scope { scope with recorded := .evidenceBundle }
  | letsGo {scope : RunScope} (lost : scope.fenceLost.isSome = true) : Alters log scope scope.letGo

/-- One act of an attempt that owns its run, or knows it no longer does. -/
inductive Act (outside : Surroundings World) : Attempt World → Attempt World → Prop where
  | quiet {before after : Attempt World} (step : Quiet outside before after) : Act outside before after
  | acquires {before after : Attempt World} (step : Traffic outside Acquiring before after) : Act outside before after
  | alters {before : Attempt World} {scope : RunScope} (change : Alters before.log before.scope scope) :
      Act outside before { before with scope }
  | advances {before : Attempt World} (kind : TransitionKind) (cause instant : String)
      (owned : before.scope.fenceLost = none ∨ .gated true ∈ before.log) :
      Act outside before (before.advance kind cause instant).2
  | holds {before : Attempt World} (kind : TransitionKind) (detail instant : String) :
      Act outside before (before.hold kind detail instant)
  | projects {before : Attempt World} (steps : List ProjectedStep) (instants : List String) :
      Act outside before (before.project steps instants).2
  | gates {before : Attempt World} :
      Act outside before { before with log := before.log ++ [.gated before.scope.fenceLost.isSome] }
  /-- A commit that does not come back acknowledged. -/
  | tries {before : Attempt World} {commit : FinalizationCommit Contracts.RunEvent EvidenceBundle} {signal : Boundary}
      {capability : CommitCapability} (ready : Sealing before capability commit)
      (unacknowledged : (outside.perform (.commit commit signal) before.world).1.ending ≠ .settled .ok) :
      Act outside before (before.issue outside (.commit commit signal))
  /-- A commit with its acknowledgement, up to the adoption of its entries. -/
  | commits {before heard : Attempt World} {commit : FinalizationCommit Contracts.RunEvent EvidenceBundle}
      {signal : Boundary} {capability : CommitCapability} (ready : Sealing before capability commit)
      (acknowledged : (outside.perform (.commit commit signal) before.world).1.ending = .settled .ok)
      (passed : Passes outside
        { before.issue outside (.commit commit signal) with
          log := (before.issue outside (.commit commit signal)).log ++ [.answered (.commit commit signal) .ok] } heard) :
      Act outside before (heard.adopt capability).2
  /-- The scope lets go, and every cleanup call it owes is made or barred. -/
  | tearsDown {before after : Attempt World} (owned : before.scope.fenceLost = none)
      (calls : ReflTransGen (Traffic outside fun _ call => call ∈ before.scope.cleanup)
        { before with scope := before.scope.letGo } after)
      (done : ∃ more, after.log = before.log ++ more ∧ ∀ call ∈ before.scope.cleanup, Attended call more) :
      Act outside before after
  /-- The attempt is reported as it stands. -/
  | reports {before : Attempt World} :
      Act outside before { before with log := before.log ++ [.incomplete before.scope] }

end SecureHome.Orchestration
