import SecureHome.Orchestration.Terminate

/-! Acquire-once: single-use tokens in a declared epoch role, each consumption
journaled as it happens, and the bytes handed to the core unread. -/

namespace SecureHome.Orchestration
open Lifecycle Ports RunState Core

variable {World : Type} (env : RunEnvironment World)

inductive AcquisitionErrorKind where
  | tokenAlreadyConsumed
  | sourceNotDeclared
  deriving DecidableEq, Repr

def AcquisitionErrorKind.label : AcquisitionErrorKind → String
  | tokenAlreadyConsumed => "token_already_consumed"
  | sourceNotDeclared => "source_not_declared"

structure AcquisitionError where
  kind : AcquisitionErrorKind
  source : String
  epoch : AcquisitionEpoch
  detail : String
  deriving DecidableEq, Repr

inductive EpochFailure where
  | operational (failure : OperationalFailure)
  | acquisition (error : AcquisitionError)
  | captureRefused (source : String) (refusal : Refusal)

def describeEpochFailure : EpochFailure → String
  | .captureRefused source refusal => s!"{source} is not valid authority: {refusal.code.label} — {refusal.detail}"
  | .acquisition error => s!"{error.kind.label} for {error.source} in the {error.epoch.label} epoch: {error.detail}"
  | .operational failure => s!"acquisition failed for {failure.source}: {failure.detail}"

/-- One epoch's tokens: the sources not yet read, and those already spent. -/
structure AcquisitionSet where
  runId : String
  epoch : AcquisitionEpoch
  remaining : List AuthoritySourceName
  consumed : List AuthoritySourceName := []

/-- The sources a run acquires, in order. -/
def sources : List AuthoritySourceName := [.profile, .pathPolicy, .gateRegistry]

/-- Spend one token. The token is gone before the read, so a read that throws is a
failed acquisition and never a second chance. -/
def consume (set : AcquisitionSet) (source : AuthoritySourceName) :
    Procedure World (Except AcquisitionError AuthorityBytes × AcquisitionSet) := do
  if source ∈ set.consumed then
    return (.error ⟨.tokenAlreadyConsumed, source.label, set.epoch,
      s!"the {set.epoch.label} token for {source.label} was already consumed; no host read is performed"⟩, set)
  else if source ∉ set.remaining then
    return (.error ⟨.sourceNotDeclared, source.label, set.epoch,
      s!"{source.label} is not a declared source of this run's {set.epoch.label} epoch"⟩, set)
  else
    let spent := { set with remaining := set.remaining.erase source, consumed := set.consumed ++ [source] }
    let bytes ← tryCatch (cross env.outside env.ports (.read set.runId set.epoch source.label)) fun failure =>
      match failure with
      | .control _ => throw failure
      | .fault message => return AuthorityBytes.failed source.label s!"the authority source threw: {message}"
    return (.ok bytes, spent)

/-- Journal one acquisition, noticing a refusal. -/
def journalAcquisition (acquisition : JournaledAcquisition) : Procedure World Unit := do
  modifyScope (·.record (.acquisition acquisition))
  flushJournal env.outside env.ports

structure EpochResult where
  snapshots : AuthoritySnapshots := {}
  values : List (AuthoritySourceName × AuthorityBytes) := []

/-- Consume every required token once and capture what came back. An attempt that
knows it lost the run reads no further source. -/
def runEpoch (set : AcquisitionSet) (result : EpochResult) :
    List AuthoritySourceName → Procedure World (Except EpochFailure EpochResult)
  | [] => do
    match (← get).scope.fenceLost with
    | some lost => return .error (.operational ⟨"epoch", lost⟩)
    | none => return .ok result
  | source :: rest => do
    match (← get).scope.fenceLost with
    | some lost => return .error (.operational ⟨source.label, lost⟩)
    | none =>
      match ← consume env set source with
      | (.error error, _) =>
        journalAcquisition env ⟨set.epoch, source.label, .refusedToken, some error.detail⟩
        return .error (.acquisition error)
      | (.ok bytes, set) =>
        journalAcquisition env (match bytes with
          | .ok _ _ => ⟨set.epoch, source.label, .acquired, none⟩
          | .failed _ failure => ⟨set.epoch, source.label, .failed, some failure⟩)
        match env.core.captureAuthority source bytes with
        | .faulted failure => return .error (.operational failure)
        | .refused refusal => return .error (.captureRefused source.label refusal)
        | .captured snapshot =>
          runEpoch set ⟨result.snapshots.set source snapshot, result.values ++ [(source, bytes)]⟩ rest

def acquire (epoch : AcquisitionEpoch) : Procedure World (Except EpochFailure EpochResult) :=
  runEpoch env ⟨env.request.runId, epoch, sources, []⟩ {} sources

/-- The bytes one epoch acquired for a source. -/
def EpochResult.valueOf (result : EpochResult) (source : AuthoritySourceName) : AuthorityBytes :=
  match result.values.find? (·.1 = source) with
  | some value => value.2
  | none => .failed source.label s!"the verification epoch produced no {source.label}"

end SecureHome.Orchestration
