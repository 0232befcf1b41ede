import SecureHome.Ports.Calls
import Mathlib.Logic.Function.Basic

/-! The in-memory run lease: who holds each run, and what became of every attempt to
claim one. -/

namespace SecureHome.RunState
open Ports

/-- Why a claim is declined. -/
inductive ClaimRefusal where
  | abandoned
  | resolved
  | aborted
  | alreadyLeased (holder : Nat)
  deriving DecidableEq, Repr

inductive ClaimReason where
  | alreadyLeased
  | claimAborted
  deriving DecidableEq, Repr

namespace ClaimRefusal

def reason : ClaimRefusal → ClaimReason
  | alreadyLeased _ => .alreadyLeased
  | _ => .claimAborted

def detail (runId attemptId : String) : ClaimRefusal → String
  | abandoned => s!"claim attempt {attemptId} was abandoned before ownership was granted"
  | resolved => s!"claim attempt {attemptId} was already resolved; its grant is no longer current"
  | aborted => s!"claim attempt {attemptId} was aborted before ownership was granted"
  | alreadyLeased holder => s!"run {runId} is already leased at generation {holder}"

end ClaimRefusal

inductive ClaimAnswer where
  | ok (generation : Nat)
  | refused (refusal : ClaimRefusal)
  deriving DecidableEq, Repr

/-- What the port says of an answer. -/
def ClaimAnswer.told (runId attemptId : String) : ClaimAnswer → LeaseClaim
  | ok generation => .ok generation
  | refused refusal => .refused (refusal.detail runId attemptId)

/-- What the lease knows about one claim attempt. -/
inductive AttemptRecord where
  | granted (generation : Nat)
  | abandoned (generation : Option Nat)
  deriving DecidableEq, Repr

structure InMemoryRunLease where
  held : String → Option Nat := fun _ => none
  attempts : String → Option AttemptRecord := fun _ => none
  generation : Nat := 0

namespace InMemoryRunLease

/-- Attempt state is per attempt, not per run. -/
def attemptKey (runId attemptId : String) : String := runId ++ "\x00" ++ attemptId

def claim (lease : InMemoryRunLease) (runId attemptId : String) (aborted : Bool) : ClaimAnswer × InMemoryRunLease :=
  match lease.attempts (attemptKey runId attemptId) with
  | some (.abandoned _) => (.refused .abandoned, lease)
  | some (.granted generation) =>
    -- The same attempt asking again is answered the same while its grant stands.
    if lease.held runId = some generation then (.ok generation, lease) else (.refused .resolved, lease)
  | none =>
    if aborted then (.refused .aborted, lease)
    else
      match lease.held runId with
      | some holder => (.refused (.alreadyLeased holder), lease)
      | none =>
        let generation := lease.generation + 1
        (.ok generation,
          { generation
            held := Function.update lease.held runId (some generation)
            attempts := Function.update lease.attempts (attemptKey runId attemptId) (some (.granted generation)) })

def abandon (lease : InMemoryRunLease) (runId attemptId : String) : InMemoryRunLease :=
  let key := attemptKey runId attemptId
  match lease.attempts key with
  | some (.granted generation) =>
    { lease with
      held := if lease.held runId = some generation then Function.update lease.held runId none else lease.held
      attempts := Function.update lease.attempts key (some (.abandoned (some generation))) }
  | some (.abandoned generation) =>
    { lease with attempts := Function.update lease.attempts key (some (.abandoned generation)) }
  | none => { lease with attempts := Function.update lease.attempts key (some (.abandoned none)) }

def renew (lease : InMemoryRunLease) (runId : String) (generation : Nat) : Bool := lease.held runId = some generation

def release (lease : InMemoryRunLease) (runId : String) (generation : Nat) : InMemoryRunLease :=
  if lease.held runId = some generation then { lease with held := Function.update lease.held runId none } else lease

/-- A claim is declined, answered again, or grants the next generation of a free run. -/
theorem claim_cases (lease : InMemoryRunLease) (runId attemptId : String) (aborted : Bool) :
    (∃ refusal, lease.claim runId attemptId aborted = (.refused refusal, lease)) ∨
    (∃ generation, lease.attempts (attemptKey runId attemptId) = some (.granted generation) ∧
      lease.held runId = some generation ∧ lease.claim runId attemptId aborted = (.ok generation, lease)) ∨
    lease.attempts (attemptKey runId attemptId) = none ∧ lease.held runId = none ∧
      lease.claim runId attemptId aborted = (.ok (lease.generation + 1),
        { generation := lease.generation + 1
          held := Function.update lease.held runId (some (lease.generation + 1))
          attempts := Function.update lease.attempts (attemptKey runId attemptId)
            (some (.granted (lease.generation + 1))) }) := by
  unfold claim
  split
  · exact .inl ⟨_, rfl⟩
  next generation known =>
    split
    next current => exact .inr (.inl ⟨generation, known, current, rfl⟩)
    · exact .inl ⟨_, rfl⟩
  next fresh =>
    split
    · exact .inl ⟨_, rfl⟩
    · split
      · exact .inl ⟨_, rfl⟩
      next free => exact .inr (.inr ⟨fresh, free, rfl⟩)

/-- Abandoning marks the attempt, whatever was known of it, and nothing else. -/
theorem abandon_attempts (lease : InMemoryRunLease) (runId attemptId : String) :
    ∃ generation, (lease.abandon runId attemptId).attempts =
      Function.update lease.attempts (attemptKey runId attemptId) (some (.abandoned generation)) := by
  simp only [abandon]
  split
  · exact ⟨_, rfl⟩
  · exact ⟨_, rfl⟩
  · exact ⟨_, rfl⟩

theorem abandon_held (lease : InMemoryRunLease) (runId attemptId : String) :
    (∃ generation, lease.attempts (attemptKey runId attemptId) = some (.granted generation) ∧
      lease.held runId = some generation ∧
      (lease.abandon runId attemptId).held = Function.update lease.held runId none) ∨
    ((∀ generation, lease.attempts (attemptKey runId attemptId) = some (.granted generation) →
        lease.held runId ≠ some generation) ∧
      (lease.abandon runId attemptId).held = lease.held) := by
  simp only [abandon]
  split
  next generation known =>
    by_cases current : lease.held runId = some generation
    · exact .inl ⟨generation, known, current, by simp [current]⟩
    · refine .inr ⟨?_, by simp [current]⟩
      intro other same
      cases known.symm.trans same
      exact current
  next known => exact .inr ⟨fun _ same => by simp [known] at same, rfl⟩
  next known => exact .inr ⟨fun _ same => by simp [known] at same, rfl⟩

@[simp] theorem abandon_generation (lease : InMemoryRunLease) (runId attemptId : String) :
    (lease.abandon runId attemptId).generation = lease.generation := by
  simp only [abandon]
  split <;> rfl

end InMemoryRunLease

end SecureHome.RunState
