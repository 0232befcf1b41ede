import SecureHome.RunState.Journal

/-! The one journal outbox: every fact of every category, pending under an identity
minted when it was recorded. -/

namespace SecureHome.RunState
open Lifecycle Ports

structure OutboxEntry where
  entryId : String
  fact : JournalFact
  deriving DecidableEq, Repr

structure JournalOutbox where
  identityPrefix : String
  pending : List OutboxEntry := []
  minted : Nat := 0
  deriving DecidableEq, Repr

namespace JournalOutbox

/-- Enqueue one fact under a fresh identity. -/
def record (outbox : JournalOutbox) (fact : JournalFact) : JournalOutbox :=
  { outbox with
    pending := outbox.pending ++ [⟨s!"{outbox.identityPrefix}#j{outbox.minted + 1}", fact⟩]
    minted := outbox.minted + 1 }

/-- Pull everything the machine recorded since the last drain; from here the outbox
tracks durability. -/
def drainMachine (outbox : JournalOutbox) (machine : RunMachine) : JournalOutbox × RunMachine :=
  let transitions := machine.pendingTransitions
  let rejections := machine.pendingRejections
  ((transitions.map JournalFact.transition ++ rejections.map JournalFact.rejection).foldl record outbox,
    machine.confirmJournaled transitions.length rejections.length)

def head (outbox : JournalOutbox) : Option OutboxEntry := outbox.pending.head?

def landed (outbox : JournalOutbox) : JournalOutbox := { outbox with pending := outbox.pending.tail }

def isEmpty (outbox : JournalOutbox) : Bool := outbox.pending.isEmpty

end JournalOutbox

end SecureHome.RunState
