import SecureHome.Core.Decisions

/-! Whether a provider's terminal observations contradict one another. What they say
about the run is the lifecycle's to decide. -/

namespace SecureHome.Core

/-- The closed vocabulary of ways terminal observations can disagree. -/
inductive TerminalConflict where
  | cleanExitWithSignal
  | successClaimWithFailureExit
  | transcriptContradictsExit
  deriving DecidableEq, Repr

def TerminalConflict.label : TerminalConflict → String
  | cleanExitWithSignal => "clean_exit_with_signal"
  | successClaimWithFailureExit => "success_claim_with_failure_exit"
  | transcriptContradictsExit => "transcript_contradicts_exit"

/-- The first disagreement found, with its detail. An exit code that was not told
disagrees with nothing. -/
def terminalConflict (observations : TerminalObservations) : Option (TerminalConflict × String) :=
  let exit := (observations.exitCode.map toString).getD "undefined"
  let signal := observations.signalled.getD "undefined"
  let terminal := observations.transcriptTerminal.getD "undefined"
  if observations.exitCode = some 0 ∧ observations.signalled ≠ none then
    some (.cleanExitWithSignal,
      s!"the provider reported exit {exit} but was signalled {signal}; the terminal state cannot be established")
  else if observations.exitCode ≠ none ∧ observations.exitCode ≠ some 0 ∧
      observations.reportedOutcome = some "success" then
    some (.successClaimWithFailureExit,
      s!"the provider reported success but exited {exit}; the terminal state cannot be established")
  else if observations.transcriptTerminal ≠ none ∧ observations.exitCode = some 0 ∧
      observations.transcriptTerminal ≠ some "success" then
    some (.transcriptContradictsExit,
      s!"the provider reported exit {exit} but its transcript terminated {terminal}; " ++
        "the terminal state cannot be established")
  else none

def classifyTerminalObservations (observations : TerminalObservations) : TerminalClassification :=
  match terminalConflict observations with
  | some (_, detail) => .unestablished detail
  | none => .established

theorem established_iff {observations : TerminalObservations} :
    classifyTerminalObservations observations = .established ↔ terminalConflict observations = none := by
  unfold classifyTerminalObservations
  cases terminalConflict observations <;> simp

end SecureHome.Core
