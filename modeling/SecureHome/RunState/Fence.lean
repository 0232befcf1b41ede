import SecureHome.Ports.Values
import Mathlib.Logic.Function.Basic

/-! A resource remembers the highest generation it has served for a run and
refuses anything lower. -/

namespace SecureHome.RunState
open Ports

structure FenceLedger where
  high : String → Option Nat := fun _ => none

namespace FenceLedger

/-- Refuse a superseded generation, or admit the request and remember it. -/
def refuse (ledger : FenceLedger) (fence : RunFence) : Option String × FenceLedger :=
  match ledger.high fence.runId with
  | none => (none, ⟨Function.update ledger.high fence.runId (some fence.generation)⟩)
  | some high =>
    if fence.generation < high then
      (some (s!"run {fence.runId} moved on: this caller holds generation {fence.generation} " ++
        s!"and the run is at {high}"), ledger)
    else (none, ⟨Function.update ledger.high fence.runId (some (max high fence.generation))⟩)

def currentFor (ledger : FenceLedger) (runId : String) : Option Nat := ledger.high runId

/-- The ledger has served the run at this generation or a later one. -/
def Served (ledger : FenceLedger) (runId : String) (generation : Nat) : Prop :=
  ∃ high, ledger.high runId = some high ∧ generation ≤ high

theorem refuse_served {ledger : FenceLedger} {fence : RunFence}
    (admitted : (ledger.refuse fence).1 = none) :
    (ledger.refuse fence).2.Served fence.runId fence.generation := by
  unfold refuse at admitted ⊢
  split
  · exact ⟨fence.generation, by simp, Nat.le_refl _⟩
  next high found =>
    simp only [found] at admitted
    split at admitted
    · cases admitted
    next current => exact ⟨max high fence.generation, by simp [current], Nat.le_max_right _ _⟩

/-- The high-water mark of every run only ever moves forward. -/
theorem refuse_forward (ledger : FenceLedger) (fence : RunFence) {runId : String} {generation : Nat}
    (served : ledger.Served runId generation) : (ledger.refuse fence).2.Served runId generation := by
  obtain ⟨high, found, below⟩ := served
  unfold refuse
  split
  next absent =>
    by_cases same : runId = fence.runId
    · rw [same, absent] at found; cases found
    · exact ⟨high, by simp [same, found], below⟩
  next current seen =>
    split
    · exact ⟨high, found, below⟩
    · by_cases same : runId = fence.runId
      · subst same
        obtain rfl : high = current := Option.some.inj (found.symm.trans seen)
        exact ⟨max high fence.generation, by simp, Nat.le_trans below (Nat.le_max_left _ _)⟩
      · exact ⟨high, by simp [same, found], below⟩

/-- A superseded generation is refused and changes nothing. -/
theorem refuse_superseded {ledger : FenceLedger} {fence : RunFence} {generation : Nat}
    (served : ledger.Served fence.runId generation) (behind : fence.generation < generation) :
    (ledger.refuse fence).1.isSome ∧ (ledger.refuse fence).2 = ledger := by
  obtain ⟨high, found, below⟩ := served
  have lower : fence.generation < high := Nat.lt_of_lt_of_le behind below
  simp [refuse, found, lower]

end FenceLedger

end SecureHome.RunState
