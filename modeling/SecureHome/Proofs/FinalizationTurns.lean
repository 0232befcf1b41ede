import SecureHome.Adapters.Finalization

/-! What one step of the coordinator can do, said once. Every invariant of the
coordinator and of its stores is a case analysis of this list. -/

namespace SecureHome.Adapters
open Lifecycle Ports RunState

/-- The attempt is still under way: it has no outcome yet. -/
def Await.attempting {Event : Type} : Await Event → Bool
  | preparing _ _ | renewing _ => true
  | returned _ | settled _ => false

/-- The attempt published nothing, and its claims are not retired yet. -/
def Await.withheld {Event : Type} : Await Event → Bool
  | preparing _ _ | renewing _ => true
  | returned outcome => outcome ≠ .ok
  | settled _ => false

/-- The writes an operation is answerable for, the one being handed to it included. -/
def Operation.writes {Event Bundle : Type} (operation : Operation Event Bundle) : List (StagedWrite Event) :=
  match operation.await with
  | .preparing _ (.ok write) => operation.staged ++ [write]
  | _ => operation.staged

namespace TransactionalFinalization

variable {Event Bundle Early : Type}

/-- How far the writes of a commit have come, and what it prepares next. -/
inductive Progress (commit : FinalizationCommit Event Bundle) :
    List (StagedWrite Event) → Option Preparation → Prop where
  | start : Progress commit [] (some .journalTail)
  | tail : Progress commit [.journal commit.fence.runId commit.commitId] (some .terminalEvent)
  | event (handle : StagedEvent Event) :
    Progress commit [.journal commit.fence.runId commit.commitId, .event handle] (some .sealedBundle)
  | sealed (handle : StagedEvent Event) :
    Progress commit
      [.journal commit.fence.runId commit.commitId, .event handle, .evidence commit.commitId] none

/-- What an operation waits for agrees with what it has staged. -/
def Shaped (operation : Operation Event Bundle) : Prop :=
  match operation.await with
  | .preparing preparation staging => Progress operation.commit operation.staged (some preparation) ∧
      ∀ write, staging = .ok write → Progress operation.commit (operation.staged ++ [write]) preparation.next
  | .renewing _ => Progress operation.commit operation.staged none
  | .returned _ | .settled _ => True

theorem abandon_visibility (stores : CommitParticipants Event Bundle Early) (write : StagedWrite Event) :
    (stores.abandon write).visibility = stores.visibility := by
  cases write <;> rfl

theorem withdraw_visibility (stores : CommitParticipants Event Bundle Early) (writes : List (StagedWrite Event)) :
    (stores.withdraw writes).visibility = stores.visibility := by
  unfold CommitParticipants.withdraw
  induction writes.reverse generalizing stores with
  | nil => rfl
  | cons write rest ih => exact (ih (stores.abandon write)).trans (abandon_visibility stores write)

variable [DecidableEq Event] [Sequenced Event]

/-- Where an attempt goes from its writes: it gives them up, hands one more
participant its part, or asks the lease. -/
inductive Continues (stores : CommitParticipants Event Bundle Early) (commit : FinalizationCommit Event Bundle)
    (writes : List (StagedWrite Event)) : Suspension Event Bundle Early → Prop where
  | refused (reason : Option CommitReason) (detail : String) :
    Continues stores commit writes (⟨commit, writes, .returned (.refused reason detail)⟩, stores.withdraw writes)
  | preparing (preparation : Preparation) (ready : Progress commit writes (some preparation)) :
    Continues stores commit writes
      (⟨commit, writes, .preparing preparation (stores.prepare commit preparation).1⟩,
        (stores.prepare commit preparation).2)
  | renewing (answer : Option LeaseAnswer) (ready : Progress commit writes none) :
    Continues stores commit writes (⟨commit, writes, .renewing answer⟩, stores)

variable {stores : CommitParticipants Event Bundle Early}

theorem enter_continues (operation : Operation Event Bundle) (preparation : Preparation) (aborted : Bool) (now : Nat)
    (ready : Progress operation.commit operation.staged (some preparation)) :
    Continues stores operation.commit operation.staged (enter stores operation preparation aborted now) := by
  unfold enter
  split
  · exact .refused _ _
  split
  · exact .refused _ _
  · exact .preparing preparation ready

theorem prepared_continues {operation : Operation Event Bundle} {preparation : Preparation}
    {staging : Staging (StagedWrite Event)} (aborted : Bool) (now : Nat) (shaped : Shaped operation)
    (waiting : operation.await = .preparing preparation staging) :
    Continues stores operation.commit operation.writes (prepared stores operation preparation staging aborted now) := by
  simp only [Shaped, waiting] at shaped
  unfold prepared Operation.writes
  rw [waiting]
  cases staging with
  | refused reason detail => exact .refused _ _
  | ok write =>
    have further := shaped.2 write rfl
    dsimp only
    split
    · exact .refused _ _
    cases next : preparation.next with
    | some next' =>
      rw [next] at further
      exact enter_continues { operation with staged := operation.staged ++ [write] } next' aborted now further
    | none =>
      rw [next] at further
      dsimp only
      split
      · exact .refused _ _
      · exact .renewing none further

theorem prepare_progress {commit : FinalizationCommit Event Bundle} {writes : List (StagedWrite Event)}
    {preparation : Preparation} (ready : Progress commit writes (some preparation)) (write : StagedWrite Event)
    (answered : (stores.prepare commit preparation).1 = .ok write) :
    Progress commit (writes ++ [write]) preparation.next := by
  have staged : ∀ {Handle : Type} {wrap : Handle → StagedWrite Event} {staging : Staging Handle},
      Staging.map wrap staging = .ok write → ∃ handle, write = wrap handle := by
    intro Handle wrap staging same
    cases staging with
    | ok handle => exact ⟨handle, (Staging.ok.inj same).symm⟩
    | refused reason detail => cases same
  cases ready with
  | start => obtain ⟨_, rfl⟩ := staged answered; exact .tail
  | tail => obtain ⟨handle, rfl⟩ := staged answered; exact .event handle
  | event handle => obtain ⟨_, rfl⟩ := staged answered; exact .sealed handle

theorem Continues.shaped {commit : FinalizationCommit Event Bundle} {writes : List (StagedWrite Event)}
    {suspension : Suspension Event Bundle Early} (continues : Continues stores commit writes suspension) :
    Shaped suspension.1 := by
  cases continues with
  | refused => trivial
  | preparing preparation ready => exact ⟨ready, prepare_progress ready⟩
  | renewing answer ready => exact ready

/-- No continuation publishes anything or changes the request it is for. -/
theorem Continues.steady {commit : FinalizationCommit Event Bundle} {writes : List (StagedWrite Event)}
    {suspension : Suspension Event Bundle Early} (continues : Continues stores commit writes suspension) :
    suspension.1.commit = commit ∧ suspension.2.visibility = stores.visibility ∧
      suspension.1.await.outcome ≠ some .ok ∧ ∀ outcome, suspension.1.await ≠ .settled outcome := by
  cases continues with
  | refused reason detail => exact ⟨rfl, withdraw_visibility stores writes, by simp [Await.outcome], by simp⟩
  | preparing preparation =>
    refine ⟨rfl, ?_, by simp [Await.outcome], by simp⟩
    cases preparation <;> rfl
  | renewing => exact ⟨rfl, rfl, by simp [Await.outcome], by simp⟩

variable [DecidableEq Bundle] [DecidableEq Early]

/-- One step of the system. -/
inductive Turn (state : TransactionalFinalization Event Bundle Early) :
    Step Event Bundle Early → TransactionalFinalization Event Bundle Early → Prop where
  | still (action) : Turn state action state
  | answered (commit aborted now outcome)
    (told : outcome = .ok → state.stores.visibility.isPublished commit.commitId = true ∧
      state.intents commit.commitId = some commit.intent) :
    Turn state (.commit commit aborted now) (state.recordCall commit (.answered outcome))
  | joined (commit aborted now index) (flying : state.inFlightByCommit commit.commitId = some (commit.intent, index)) :
    Turn state (.commit commit aborted now) (state.recordCall commit (.joined index))
  | started (commit aborted now) (fresh : state.stores.visibility.isPublished commit.commitId = false)
    (free : state.inFlightByCommit commit.commitId = none)
    (continues : Continues state.stores commit []
      (enter state.stores { commit, await := .renewing none } .journalTail aborted now)) :
    Turn state (.commit commit aborted now)
      ((state.start commit aborted now).recordCall commit (.joined state.operations.length))
  | continued (action index operation suspension claims)
    (acting : action = .leaseAnswers index .owned ∨ action = .leaseAnswers index .lost ∨
      (∃ detail, action = .leaseAnswers index (.failed detail)) ∨ ∃ aborted now, action = .resume index aborted now)
    (found : state.operations[index]? = some operation) (attempting : operation.await.attempting = true)
    (continues : Continues state.stores operation.commit operation.writes suspension) :
    Turn state action (store { state with inFlightByGeneration := claims } index suspension)
  | published (index operation now claims) (found : state.operations[index]? = some operation)
    (waiting : operation.await = .renewing (some .owned)) (vacant : state.finalized operation.commit.fence = none)
    (claimed : ∀ owner, state.inFlightByGeneration operation.commit.fence = some owner →
      owner = operation.commit.commitId)
    (timely : operation.commit.expired now = false) :
    Turn state (.resume index false now)
      (publish { state with inFlightByGeneration := claims } index operation false now)
  | retired (index aborted now operation outcome) (found : state.operations[index]? = some operation)
    (waiting : operation.await = .returned outcome) :
    Turn state (.resume index aborted now) (state.retire index operation outcome)
  | appended (fence entryId fact) : Turn state (.append fence entryId fact) (state.step (.append fence entryId fact))
  | emitted (fence event) : Turn state (.emit fence event) (state.step (.emit fence event))
  | wrote (fence recordId record) :
    Turn state (.write fence recordId record) (state.step (.write fence recordId record))

variable {state : TransactionalFinalization Event Bundle Early}

theorem commit_turn (request : FinalizationCommit Event Bundle) (aborted : Bool) (now : Nat) :
    Turn state (.commit request aborted now) (state.commit request aborted now) := by
  unfold commit
  cases known : state.stores.visibility.isPublished request.commitId with
  | true =>
    simp only [if_true]
    split
    next same => exact .answered request aborted now .ok fun _ => ⟨known, same⟩
    · exact .answered request aborted now _ fun equal => by cases equal
  | false =>
    simp only [Bool.false_eq_true, if_false]
    cases state.finalized request.fence with
    | some published => exact .answered request aborted now _ fun equal => by cases equal
    | none =>
      cases flying : state.inFlightByCommit request.commitId with
      | none =>
        exact .started request aborted now known flying
          (enter_continues { commit := request, await := .renewing none } .journalTail aborted now .start)
      | some entry =>
        obtain ⟨canonical, index⟩ := entry
        dsimp only
        split
        next same => exact .joined request aborted now index (same ▸ flying)
        · exact .answered request aborted now _ fun equal => by cases equal

theorem leaseAnswers_turn (shaped : ∀ (index : Nat) operation, state.operations[index]? = some operation → Shaped operation)
    (index : Nat) (answer : LeaseAnswer) :
    Turn state (.leaseAnswers index answer) (state.leaseAnswers index answer) := by
  unfold leaseAnswers
  cases found : state.operations[index]? with
  | none => exact .still _
  | some operation =>
    dsimp only
    split
    next waiting =>
      have ready := shaped index operation found
      simp only [Shaped, waiting] at ready
      have writes : operation.writes = operation.staged := by simp [Operation.writes, waiting]
      refine .continued _ index operation (⟨operation.commit, operation.staged, .renewing (some answer)⟩, state.stores)
        state.inFlightByGeneration ?_ found (by simp [waiting, Await.attempting]) ?_
      · cases answer with
        | owned => exact .inl rfl
        | lost => exact .inr (.inl rfl)
        | failed detail => exact .inr (.inr (.inl ⟨detail, rfl⟩))
      · rw [writes]
        exact .renewing (some answer) ready
    · exact .still _

theorem resume_turn (shaped : ∀ (index : Nat) operation, state.operations[index]? = some operation → Shaped operation)
    (index : Nat) (aborted : Bool) (now : Nat) :
    Turn state (.resume index aborted now) (state.resume index aborted now) := by
  unfold resume
  cases found : state.operations[index]? with
  | none => exact .still _
  | some operation =>
    have acting : ∀ claims suspension, operation.await.attempting = true →
        Continues state.stores operation.commit operation.writes suspension →
        Turn state (.resume index aborted now) (store { state with inFlightByGeneration := claims } index suspension) :=
      fun claims suspension attempting continues =>
        .continued _ index operation suspension claims (.inr (.inr (.inr ⟨aborted, now, rfl⟩))) found attempting continues
    have refusal : operation.await.attempting = true → operation.writes = operation.staged → ∀ claims reason detail,
        Turn state (.resume index aborted now) (store { state with inFlightByGeneration := claims } index
          (refuse state.stores operation (.refused reason detail))) := by
      intro attempting same claims reason detail
      refine acting claims _ attempting ?_
      rw [same]
      exact .refused reason detail
    dsimp only
    cases waiting : operation.await with
    | preparing preparation staging =>
      exact acting state.inFlightByGeneration _ (by simp [waiting, Await.attempting])
        (prepared_continues aborted now (shaped index operation found) waiting)
    | returned outcome => exact .retired index aborted now operation outcome found waiting
    | settled outcome => exact .still _
    | renewing answer =>
      have refusal := refusal (by simp [waiting, Await.attempting]) (by simp [Operation.writes, waiting])
      cases answer with
      | none => exact .still _
      | some answer =>
        cases answer with
        | failed detail => exact refusal state.inFlightByGeneration _ _
        | lost => exact refusal state.inFlightByGeneration _ _
        | owned =>
          simp only [gate]
          cases aborted with
          | true => exact refusal state.inFlightByGeneration _ _
          | false =>
            simp only [Bool.false_eq_true, if_false]
            cases vacant : state.finalized operation.commit.fence with
            | some published => exact refusal state.inFlightByGeneration _ _
            | none =>
              cases owner : state.inFlightByGeneration operation.commit.fence with
              | none =>
                dsimp only
                cases late : operation.commit.expired now with
                | true => exact refusal _ _ _
                | false => exact .published index operation now _ found waiting vacant (by simp [owner]) late
              | some owner =>
                dsimp only
                split
                · exact refusal state.inFlightByGeneration _ _
                next same =>
                  cases late : operation.commit.expired now with
                  | true => exact refusal state.inFlightByGeneration _ _
                  | false =>
                    refine .published index operation now state.inFlightByGeneration found waiting vacant ?_ late
                    intro other held
                    rw [← Option.some.inj (owner.symm.trans held)]
                    exact not_not.mp same

/-- Every step is one of these. -/
theorem step_turn (shaped : ∀ (index : Nat) operation, state.operations[index]? = some operation → Shaped operation)
    (action : Step Event Bundle Early) : Turn state action (state.step action) := by
  cases action with
  | commit request aborted now => exact commit_turn request aborted now
  | resume index aborted now => exact resume_turn shaped index aborted now
  | leaseAnswers index answer => exact leaseAnswers_turn shaped index answer
  | append fence entryId fact => exact .appended fence entryId fact
  | emit fence event => exact .emitted fence event
  | write fence recordId record => exact .wrote fence recordId record

end TransactionalFinalization

end SecureHome.Adapters
