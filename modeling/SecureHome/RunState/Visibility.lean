import Mathlib.Data.List.Basic

/-! The commit-visibility authority: publication is one set insertion. -/

namespace SecureHome.RunState

structure CommitLedger where
  published : List String := []

namespace CommitLedger

def publish (ledger : CommitLedger) (commitId : String) : CommitLedger :=
  if commitId ∈ ledger.published then ledger else ⟨commitId :: ledger.published⟩

def isPublished (ledger : CommitLedger) (commitId : String) : Bool := commitId ∈ ledger.published

/-- A record that was never part of a commit is visible on its own account. -/
def isVisible (ledger : CommitLedger) : Option String → Bool
  | none => true
  | some commitId => ledger.isPublished commitId

@[simp] theorem isVisible_none (ledger : CommitLedger) : ledger.isVisible none = true := rfl

@[simp] theorem isVisible_some (ledger : CommitLedger) (commitId : String) :
    ledger.isVisible (some commitId) = ledger.isPublished commitId := rfl

@[simp] theorem isPublished_publish (ledger : CommitLedger) (commitId other : String) :
    (ledger.publish commitId).isPublished other = (decide (other = commitId) || ledger.isPublished other) := by
  by_cases known : commitId ∈ ledger.published
  · by_cases same : other = commitId
    · subst same; simp [publish, isPublished, known]
    · simp [publish, isPublished, known, same]
  · simp [publish, isPublished, known]

theorem isVisible_publish {ledger : CommitLedger} (commitId : String) {tag : Option String}
    (visible : ledger.isVisible tag = true) : (ledger.publish commitId).isVisible tag = true := by
  cases tag with
  | none => rfl
  | some other => simp_all

end CommitLedger

end SecureHome.RunState
