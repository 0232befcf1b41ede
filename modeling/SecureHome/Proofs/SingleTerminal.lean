import SecureHome.Lib.Execution
import SecureHome.Proofs.FinalizationTurns

/-! One terminal transaction for each generation, over every interleaving. -/

namespace SecureHome.Adapters.TransactionalFinalization
open Lib Ports RunState

variable {Event Bundle Early : Type}

/-- The maps of the coordinator agree with its operations and with what it published. -/
structure Coordinated (state : TransactionalFinalization Event Bundle Early) : Prop where
  shaped : ∀ (index : Nat) operation, state.operations[index]? = some operation → Shaped operation
  flying : ∀ (index : Nat) operation, state.operations[index]? = some operation →
    (∀ outcome, operation.await ≠ .settled outcome) →
    state.inFlightByCommit operation.commit.commitId = some (operation.commit.intent, index)
  tracked : ∀ commitId intent index, state.inFlightByCommit commitId = some (intent, index) →
    ∃ operation, state.operations[index]? = some operation ∧ operation.commit.commitId = commitId ∧
      operation.commit.intent = intent
  hidden : ∀ (index : Nat) operation, state.operations[index]? = some operation →
    operation.await.withheld = true → state.stores.visibility.isPublished operation.commit.commitId = false
  finalized : ∀ publication ∈ state.publications,
    state.finalized publication.commit.fence = some publication.commit.commitId
  intents : ∀ publication ∈ state.publications,
    state.intents publication.commit.commitId = some publication.commit.intent
  published : ∀ commitId, state.stores.visibility.isPublished commitId = true ↔
    ∃ publication ∈ state.publications, publication.commit.commitId = commitId
  acknowledged : ∀ (index : Nat) operation, state.operations[index]? = some operation →
    operation.await.outcome = some .ok → ∃ publication ∈ state.publications, publication.commit = operation.commit
  joined : ∀ commit index, (commit, CallAnswer.joined index) ∈ state.calls →
    ∃ operation, state.operations[index]? = some operation ∧ operation.commit.commitId = commit.commitId ∧
      operation.commit.intent = commit.intent
  answered : ∀ commit, (commit, CallAnswer.answered .ok) ∈ state.calls →
    ∃ publication ∈ state.publications, publication.commit.commitId = commit.commitId ∧
      publication.commit.intent = commit.intent

theorem Coordinated.initial : Coordinated ({} : TransactionalFinalization Event Bundle Early) := by
  constructor <;> simp [CommitLedger.isPublished]

theorem attempting_unsettled {operation : Operation Event Bundle} (attempting : operation.await.attempting = true) :
    (∀ outcome, operation.await ≠ .settled outcome) ∧ operation.await.withheld = true := by
  cases waiting : operation.await <;> simp_all [Await.attempting, Await.withheld]

theorem withheld_unsettled {operation : Operation Event Bundle} (withheld : operation.await.withheld = true)
    (outcome : CommitOutcome) : operation.await ≠ .settled outcome := by
  cases waiting : operation.await <;> simp_all [Await.withheld]

/-- The list of operations after one of them moved. -/
theorem get_set {operations : List (Operation Event Bundle)} {index other : Nat} {moved operation : Operation Event Bundle}
    (found : (operations.set index moved)[other]? = some operation) :
    (other = index ∧ operation = moved) ∨ (other ≠ index ∧ operations[other]? = some operation) := by
  rw [List.getElem?_set] at found
  split at found
  next same =>
    split at found
    · exact .inl ⟨same.symm, (Option.some.inj found).symm⟩
    · cases found
  next different => exact .inr ⟨fun same => different same.symm, found⟩

theorem set_self {operations : List (Operation Event Bundle)} {index : Nat} {operation : Operation Event Bundle}
    (found : operations[index]? = some operation) (moved : Operation Event Bundle) :
    (operations.set index moved)[index]? = some moved := by
  obtain ⟨bound, _⟩ := List.getElem?_eq_some_iff.mp found
  simp [bound]

/-- Replacing an operation by one for the same request keeps what calls joined it for. -/
theorem set_request {operations : List (Operation Event Bundle)} {index : Nat} {operation : Operation Event Bundle}
    (found : operations[index]? = some operation) (moved : Operation Event Bundle)
    (same : moved.commit = operation.commit) {other : Nat} {commitId : String}
    {intent : FinalizationIntent Event Bundle}
    (held : ∃ current, operations[other]? = some current ∧ current.commit.commitId = commitId ∧
      current.commit.intent = intent) :
    ∃ current, (operations.set index moved)[other]? = some current ∧ current.commit.commitId = commitId ∧
      current.commit.intent = intent := by
  obtain ⟨current, at_, named, meant⟩ := held
  by_cases here : other = index
  · subst here
    obtain rfl := Option.some.inj (at_.symm.trans found)
    exact ⟨moved, set_self found moved, by rw [same, named], by rw [same, meant]⟩
  · exact ⟨current, by rw [List.getElem?_set_ne (fun equal => here equal.symm), at_], named, meant⟩

variable {state : TransactionalFinalization Event Bundle Early}

/-- Two unsettled operations never share a commit identity. -/
theorem Coordinated.exclusive (coordinated : Coordinated state) {index other : Nat}
    {operation current : Operation Event Bundle} (found : state.operations[index]? = some operation)
    (unsettled : ∀ outcome, operation.await ≠ .settled outcome) (at_ : state.operations[other]? = some current)
    (unsettled' : ∀ outcome, current.await ≠ .settled outcome)
    (same : current.commit.commitId = operation.commit.commitId) : other = index := by
  have mine := coordinated.flying index operation found unsettled
  have theirs := coordinated.flying other current at_ unsettled'
  rw [same, mine] at theirs
  exact (Prod.mk.inj (Option.some.inj theirs)).2.symm

private theorem recorded (coordinated : Coordinated state) (commit : FinalizationCommit Event Bundle)
    (answer : CallAnswer)
    (joins : ∀ index, answer = .joined index → ∃ operation, state.operations[index]? = some operation ∧
      operation.commit.commitId = commit.commitId ∧ operation.commit.intent = commit.intent)
    (tells : answer = .answered .ok → ∃ publication ∈ state.publications,
      publication.commit.commitId = commit.commitId ∧ publication.commit.intent = commit.intent) :
    Coordinated (state.recordCall commit answer) := by
  obtain ⟨shaped, flying, tracked, hidden, finalized, intents, published, acknowledged, joined, answered⟩ := coordinated
  refine ⟨shaped, flying, tracked, hidden, finalized, intents, published, acknowledged, ?_, ?_⟩
  · intro request index member
    rcases List.mem_append.mp member with member | last
    · exact joined request index member
    · obtain ⟨rfl, same⟩ := Prod.mk.inj (List.mem_singleton.mp last)
      exact joins index same.symm
  · intro request member
    rcases List.mem_append.mp member with member | last
    · exact answered request member
    · obtain ⟨rfl, same⟩ := Prod.mk.inj (List.mem_singleton.mp last)
      exact tells same.symm

/-- A store that published nothing new leaves the coordinator as it was. -/
private theorem framed (coordinated : Coordinated state) (stores : CommitParticipants Event Bundle Early)
    (same : stores.visibility = state.stores.visibility) : Coordinated { state with stores } := by
  obtain ⟨shaped, flying, tracked, hidden, finalized, intents, published, acknowledged, joined, answered⟩ := coordinated
  refine ⟨shaped, flying, tracked, ?_, finalized, intents, ?_, acknowledged, joined, answered⟩
  · simpa only [same] using hidden
  · simpa only [same] using published

private theorem marked (coordinated : Coordinated state) {index now : Nat} {operation : Operation Event Bundle}
    (claims : RunFence → Option String) (found : state.operations[index]? = some operation)
    (waiting : operation.await = .renewing (some .owned)) (vacant : state.finalized operation.commit.fence = none) :
    Coordinated (publish { state with inFlightByGeneration := claims } index operation false now) := by
  have attempting : operation.await.attempting = true := by simp [waiting, Await.attempting]
  obtain ⟨awake, withheld⟩ := attempting_unsettled attempting
  have fresh := coordinated.hidden index operation found withheld
  have unpublished : ∀ publication ∈ state.publications, publication.commit.commitId ≠ operation.commit.commitId := by
    intro publication member same
    rw [(coordinated.published _).mpr ⟨publication, member, same⟩] at fresh
    cases fresh
  refine ⟨?_, ?_, ?_, ?_, ?_, ?_, ?_, ?_, ?_, ?_⟩
  · intro other current at_
    rcases get_set at_ with ⟨_, rfl⟩ | ⟨_, before⟩
    · trivial
    · exact coordinated.shaped other current before
  · intro other current at_ unsettled
    rcases get_set at_ with ⟨rfl, rfl⟩ | ⟨_, before⟩
    · exact coordinated.flying other operation found awake
    · exact coordinated.flying other current before unsettled
  · intro commitId intent other tracked
    exact set_request found { operation with await := .returned .ok } rfl (coordinated.tracked commitId intent other tracked)
  · intro other current at_ attempts
    rcases get_set at_ with ⟨rfl, rfl⟩ | ⟨different, before⟩
    · simp [Await.withheld] at attempts
    · have apart : current.commit.commitId ≠ operation.commit.commitId := fun same =>
        different (coordinated.exclusive found awake before (withheld_unsettled attempts) same)
      simpa [publish, apart] using coordinated.hidden other current before attempts
  · intro publication member
    simp only [publish]
    rcases List.mem_append.mp member with member | last
    · have apart : publication.commit.fence ≠ operation.commit.fence := fun same => by
        have := coordinated.finalized publication member
        rw [same, vacant] at this
        cases this
      simpa [apart] using coordinated.finalized publication member
    · rw [List.mem_singleton.mp last]; simp
  · intro publication member
    simp only [publish]
    rcases List.mem_append.mp member with member | last
    · simpa [unpublished publication member] using coordinated.intents publication member
    · rw [List.mem_singleton.mp last]; simp
  · intro commitId
    have before := coordinated.published commitId
    simp only [publish, CommitLedger.isPublished_publish, Bool.or_eq_true, decide_eq_true_eq, before,
      List.mem_append, List.mem_singleton]
    constructor
    · rintro (rfl | ⟨publication, member, same⟩)
      · exact ⟨_, .inr rfl, rfl⟩
      · exact ⟨publication, .inl member, same⟩
    · rintro ⟨publication, member | rfl, rfl⟩
      · exact .inr ⟨publication, member, rfl⟩
      · exact .inl rfl
  · intro other current at_ told
    rcases get_set at_ with ⟨rfl, rfl⟩ | ⟨_, before⟩
    · exact ⟨_, List.mem_append_right _ List.mem_cons_self, rfl⟩
    · obtain ⟨publication, member, same⟩ := coordinated.acknowledged other current before told
      exact ⟨publication, List.mem_append_left _ member, same⟩
  · intro request other member
    exact set_request found { operation with await := .returned .ok } rfl (coordinated.joined request other member)
  · intro request member
    obtain ⟨publication, member, same⟩ := coordinated.answered request member
    exact ⟨publication, List.mem_append_left _ member, same⟩

private theorem settled (coordinated : Coordinated state) {index : Nat} {operation : Operation Event Bundle}
    {outcome : CommitOutcome} (found : state.operations[index]? = some operation)
    (waiting : operation.await = .returned outcome) : Coordinated (state.retire index operation outcome) := by
  have awake : ∀ outcome, operation.await ≠ .settled outcome := by simp [waiting]
  refine ⟨?_, ?_, ?_, ?_, coordinated.finalized, coordinated.intents, coordinated.published, ?_, ?_,
    coordinated.answered⟩
  · intro other current at_
    rcases get_set at_ with ⟨_, rfl⟩ | ⟨_, before⟩
    · trivial
    · exact coordinated.shaped other current before
  · intro other current at_ unsettled
    rcases get_set at_ with ⟨rfl, rfl⟩ | ⟨different, before⟩
    · exact absurd rfl (unsettled outcome)
    · have apart : current.commit.commitId ≠ operation.commit.commitId := fun same =>
        different (coordinated.exclusive found awake before unsettled same)
      simpa [retire, apart] using coordinated.flying other current before unsettled
  · intro commitId intent other tracked
    by_cases same : commitId = operation.commit.commitId
    · simp [retire, same] at tracked
    · simp only [retire, Function.update_of_ne same] at tracked
      exact set_request found { operation with await := .settled outcome } rfl (coordinated.tracked commitId intent other tracked)
  · intro other current at_ attempts
    rcases get_set at_ with ⟨rfl, rfl⟩ | ⟨_, before⟩
    · simp [Await.withheld] at attempts
    · exact coordinated.hidden other current before attempts
  · intro other current at_ told
    rcases get_set at_ with ⟨rfl, rfl⟩ | ⟨_, before⟩
    · exact coordinated.acknowledged other operation found (by simpa [waiting, Await.outcome] using told)
    · exact coordinated.acknowledged other current before told
  · intro request other member
    exact set_request found { operation with await := .settled outcome } rfl (coordinated.joined request other member)

section
variable [DecidableEq Event] [Sequenced Event]

private theorem started (coordinated : Coordinated state) (commit : FinalizationCommit Event Bundle) (aborted : Bool)
    (now : Nat) (fresh : state.stores.visibility.isPublished commit.commitId = false)
    (free : state.inFlightByCommit commit.commitId = none)
    (continues : Continues state.stores commit []
      (enter state.stores { commit, await := .renewing none } .journalTail aborted now)) :
    Coordinated ((state.start commit aborted now).recordCall commit (.joined state.operations.length)) := by
  obtain ⟨same, visibility, unpublished, unsettled⟩ := continues.steady
  have appended : ∀ {other : Nat} {current : Operation Event Bundle},
      (state.start commit aborted now).operations[other]? = some current →
      state.operations[other]? = some current ∨ (other = state.operations.length ∧
        current = (enter state.stores { commit, await := .renewing none } .journalTail aborted now).1) := by
    intro other current at_
    rcases Nat.lt_or_ge other state.operations.length with within | beyond
    · rw [start, List.getElem?_append_left within] at at_
      exact .inl at_
    · rw [start, List.getElem?_append_right beyond] at at_
      obtain ⟨bound, rfl⟩ := List.getElem?_eq_some_iff.mp at_
      have last : other - state.operations.length = 0 := by simpa using bound
      exact .inr ⟨by omega, by simp [last]⟩
  have kept : ∀ {other : Nat} {current : Operation Event Bundle}, state.operations[other]? = some current →
      (state.start commit aborted now).operations[other]? = some current := by
    intro other current at_
    obtain ⟨bound, _⟩ := List.getElem?_eq_some_iff.mp at_
    rw [start, List.getElem?_append_left bound, at_]
  have fresh_id : ∀ {other : Nat} {current : Operation Event Bundle}, state.operations[other]? = some current →
      (∀ outcome, current.await ≠ .settled outcome) → current.commit.commitId ≠ commit.commitId := by
    intro other current at_ awake same
    have := coordinated.flying other current at_ awake
    rw [same, free] at this
    cases this
  have last : (state.start commit aborted now).operations[state.operations.length]? =
      some (enter state.stores { commit, await := .renewing none } .journalTail aborted now).1 := by
    simp [start]
  have begun : Coordinated (state.start commit aborted now) := by
    refine ⟨?_, ?_, ?_, ?_, coordinated.finalized, coordinated.intents, ?_, ?_, ?_, coordinated.answered⟩
    · intro other current at_
      rcases appended at_ with before | ⟨_, rfl⟩
      · exact coordinated.shaped other current before
      · exact continues.shaped
    · intro other current at_ awake
      rcases appended at_ with before | ⟨rfl, rfl⟩
      · simpa [start, fresh_id before awake] using coordinated.flying other current before awake
      · simp [start, same]
    · intro commitId intent other tracked
      by_cases here : commitId = commit.commitId
      · subst here
        simp only [start, Function.update_self, Option.some.injEq, Prod.mk.injEq] at tracked
        obtain ⟨rfl, rfl⟩ := tracked
        exact ⟨_, last, by rw [same], by rw [same]⟩
      · simp only [start, Function.update_of_ne here] at tracked
        obtain ⟨operation, at_, named, meant⟩ := coordinated.tracked commitId intent other tracked
        exact ⟨operation, kept at_, named, meant⟩
    · intro other current at_ attempts
      simp only [start, visibility]
      rcases appended at_ with before | ⟨_, rfl⟩
      · exact coordinated.hidden other current before attempts
      · rw [same]; exact fresh
    · simpa only [start, visibility] using coordinated.published
    · intro other current at_ told
      rcases appended at_ with before | ⟨_, rfl⟩
      · exact coordinated.acknowledged other current before told
      · exact absurd told unpublished
    · intro request other member
      obtain ⟨operation, at_, named, meant⟩ := coordinated.joined request other member
      exact ⟨operation, kept at_, named, meant⟩
  refine recorded begun commit _ ?_ ?_
  · intro index joins
    obtain rfl := CallAnswer.joined.inj joins
    exact ⟨_, last, by rw [same], by rw [same]⟩
  · intro tells
    cases tells

private theorem moved (coordinated : Coordinated state) {index : Nat} {operation : Operation Event Bundle}
    {suspension : Suspension Event Bundle Early} (claims : RunFence → Option String)
    (found : state.operations[index]? = some operation) (attempting : operation.await.attempting = true)
    (continues : Continues state.stores operation.commit operation.writes suspension) :
    Coordinated (store { state with inFlightByGeneration := claims } index suspension) := by
  obtain ⟨same, visibility, unpublished, unsettled⟩ := continues.steady
  obtain ⟨awake, withheld⟩ := attempting_unsettled attempting
  refine ⟨?_, ?_, ?_, ?_, coordinated.finalized, coordinated.intents, ?_, ?_, ?_, coordinated.answered⟩
  · intro other current at_
    rcases get_set at_ with ⟨_, rfl⟩ | ⟨_, before⟩
    · exact continues.shaped
    · exact coordinated.shaped other current before
  · intro other current at_ waiting
    rcases get_set at_ with ⟨rfl, rfl⟩ | ⟨_, before⟩
    · rw [same]; exact coordinated.flying other operation found awake
    · exact coordinated.flying other current before waiting
  · intro commitId intent other tracked
    exact set_request found suspension.1 same (coordinated.tracked commitId intent other tracked)
  · intro other current at_ waiting
    simp only [store, visibility]
    rcases get_set at_ with ⟨rfl, rfl⟩ | ⟨_, before⟩
    · rw [same]; exact coordinated.hidden other operation found withheld
    · exact coordinated.hidden other current before waiting
  · simpa only [store, visibility] using coordinated.published
  · intro other current at_ told
    rcases get_set at_ with ⟨rfl, rfl⟩ | ⟨_, before⟩
    · exact absurd told unpublished
    · exact coordinated.acknowledged other current before told
  · intro request other member
    exact set_request found suspension.1 same (coordinated.joined request other member)

end

variable [DecidableEq Event] [Sequenced Event] [DecidableEq Bundle] [DecidableEq Early]

/-- Every step keeps the coordinator's maps in agreement. -/
theorem step_coordinated (coordinated : Coordinated state) (action : Step Event Bundle Early) :
    Coordinated (state.step action) := by
  have turn := step_turn coordinated.shaped action
  generalize state.step action = next at turn
  cases turn with
  | still => exact coordinated
  | answered commit aborted now outcome told =>
    refine recorded coordinated commit _ (fun index same => by cases same) fun same => ?_
    obtain ⟨shown, meant⟩ := told (CallAnswer.answered.inj same)
    obtain ⟨publication, member, named⟩ := (coordinated.published _).mp shown
    have intent := coordinated.intents publication member
    rw [named, meant] at intent
    exact ⟨publication, member, named, (Option.some.inj intent).symm⟩
  | joined commit aborted now index flying =>
    refine recorded coordinated commit _ (fun other same => ?_) fun same => by cases same
    obtain rfl := CallAnswer.joined.inj same
    exact coordinated.tracked _ _ _ flying
  | started commit aborted now fresh free continues =>
    exact started coordinated commit aborted now fresh free continues
  | continued action index operation suspension claims _ found attempting continues =>
    exact moved coordinated claims found attempting continues
  | published index operation now claims found waiting vacant claimed timely =>
    exact marked coordinated claims found waiting vacant
  | retired index aborted now operation outcome found waiting => exact settled coordinated found waiting
  | appended fence entryId fact => exact framed coordinated _ rfl
  | emitted fence event => exact framed coordinated _ rfl
  | wrote fence recordId record => exact framed coordinated _ rfl

theorem coordinated_after (steps : List (Step Event Bundle Early)) :
    Coordinated (after step ({} : TransactionalFinalization Event Bundle Early) steps) :=
  invariant_after Coordinated (fun _ action coordinated => step_coordinated coordinated action) .initial steps

/-- What the coordinator may have published and acknowledged by now. -/
structure OneTerminal (state : TransactionalFinalization Event Bundle Early) : Prop where
  /-- A marker is published exactly when the coordinator wrote it. -/
  markers : ∀ commitId, state.stores.visibility.isPublished commitId = true ↔
    ∃ publication ∈ state.publications, publication.commit.commitId = commitId
  generation : ∀ first ∈ state.publications, ∀ second ∈ state.publications,
    first.commit.fence = second.commit.fence → first.commit.commitId = second.commit.commitId
  intent : ∀ first ∈ state.publications, ∀ second ∈ state.publications,
    first.commit.commitId = second.commit.commitId → first.commit.intent = second.commit.intent
  acknowledged : ∀ commit answer, (commit, answer) ∈ state.calls → state.answerOf answer = some .ok →
    ∃ publication ∈ state.publications, publication.commit.commitId = commit.commitId ∧
      publication.commit.intent = commit.intent
  /-- A step that writes a marker read its signal unaborted and its clock in time. -/
  timely : ∀ action commitId, state.stores.visibility.isPublished commitId = false →
    (state.step action).stores.visibility.isPublished commitId = true →
    ∃ index now operation, action = .resume index false now ∧ state.operations[index]? = some operation ∧
      operation.commit.commitId = commitId ∧ operation.commit.expired now = false

theorem Coordinated.oneTerminal (coordinated : Coordinated state) : OneTerminal state := by
  refine ⟨coordinated.published, ?_, ?_, ?_, ?_⟩
  · intro first member second member' same
    have left := coordinated.finalized first member
    rw [same, coordinated.finalized second member'] at left
    exact (Option.some.inj left).symm
  · intro first member second member' same
    have left := coordinated.intents first member
    rw [same, coordinated.intents second member'] at left
    exact (Option.some.inj left).symm
  · intro commit answer member told
    cases answer with
    | answered outcome =>
      obtain rfl : outcome = .ok := Option.some.inj told
      exact coordinated.answered commit member
    | joined index =>
      obtain ⟨operation, found, named, meant⟩ := coordinated.joined commit index member
      simp only [answerOf, found, Option.bind_some] at told
      obtain ⟨publication, written, same⟩ := coordinated.acknowledged index operation found told
      exact ⟨publication, written, by rw [same, named], by rw [same, meant]⟩
  · intro action commitId hidden shown
    have turn := step_turn coordinated.shaped action
    generalize state.step action = next at turn shown
    cases turn with
    | published index operation now claims found waiting vacant claimed timely =>
      refine ⟨index, now, operation, rfl, found, ?_, timely⟩
      by_contra different
      simp [publish, hidden, Ne.symm different] at shown
    | started commit aborted now fresh free continues =>
      have same := continues.steady.2.1
      simp only [recordCall, start, same, hidden] at shown
      cases shown
    | continued action index operation suspension claims _ found attempting continues =>
      have same := continues.steady.2.1
      simp only [store, same, hidden] at shown
      cases shown
    | still | answered | joined | retired | appended | emitted | wrote => exact absurd shown (by simp_all [recordCall, retire, step])

/-- Single terminal transaction for each generation, in every reachable state. -/
theorem one_terminal (steps : List (Step Event Bundle Early)) :
    OneTerminal (after step ({} : TransactionalFinalization Event Bundle Early) steps) :=
  (coordinated_after steps).oneTerminal

end SecureHome.Adapters.TransactionalFinalization
