import SecureHome.Orchestration.Fixtures
import SecureHome.Proofs.AfterLoss

/-! What a conclusion claims is durable: a transition is pending until its journal or
its commit acknowledged it, and a record is kept only once it was written. -/

namespace SecureHome.Orchestration
open Relation Lib Lifecycle Ports RunState Contracts Core Adapters

variable {World : Type} {outside : Surroundings World} {env : RunEnvironment World} {before after : Attempt World}

/-- The journal acknowledged a fact. -/
def Journaled (log : List Happening) (fact : JournalFact) : Prop :=
  ∃ fence entryId, .answered (.append fence entryId fact) .ok ∈ log

/-- A commit that carries a transition was acknowledged. -/
def Committed (log : List Happening) (entry : TransitionEntry) : Prop :=
  ∃ commit signal, .answered (.commit commit signal) .ok ∈ log ∧ entry ∈ commit.intent.transitions

/-- The governed record a conclusion names was acknowledged, and says its terminal. -/
def Governed (log : List Happening) (state : LifecycleState) : Produced → Prop
  | .none => False
  | .evidenceBundle => ∃ commit signal, .answered (.commit commit signal) .ok ∈ log ∧
      commit.intent.bundle.outcome.terminalState = state
  | .earlyTerminationRecord => ∃ fence recordId record,
      .answered (.write fence recordId (.earlyTerminationRecord record)) .ok ∈ log ∧ record.outcome.terminalState = state

/-- Nothing of the walk waits for the journal. -/
def RunScope.Landed (scope : RunScope) : Prop :=
  scope.outbox.pending = [] ∧ scope.machine.pendingTransitions = []

/-- The composed table lets every state end in INDETERMINATE. -/
def EndsAnywhere (table : TransitionTable) : Prop :=
  ∀ state, isTerminal state = false → table state .indeterminate ≠ none

theorem outcomeFor_terminal {state : LifecycleState} {detail : String} (terminated : isTerminal state = true) :
    (outcomeFor state detail).terminalState = state := by
  cases state <;> first | rfl | cases terminated

/-- A recorded transition is on its way to the journal, or acknowledged. -/
structure Filed (attempt : Attempt World) : Prop where
  counted : attempt.scope.machine.journaledTransitions ≤ attempt.scope.machine.transitionRecord.length
  filed : ∀ entry ∈ attempt.scope.machine.transitionRecord, Noted attempt (.transition entry) ∨
    Committed attempt.log entry ∨ entry ∈ attempt.scope.machine.pendingTransitions

theorem record_adds (outbox : JournalOutbox) {facts : List JournalFact} {fact : JournalFact} (listed : fact ∈ facts) :
    ∃ entry ∈ (facts.foldl JournalOutbox.record outbox).pending, entry.fact = fact := by
  induction facts generalizing outbox with
  | nil => cases listed
  | cons first rest ih =>
    rcases List.mem_cons.mp listed with rfl | later
    · exact ⟨_, record_keeps _ rest (List.mem_append_right _ (.head _)), rfl⟩
    · exact ih _ later

theorem Noted.grown {fact : JournalFact} (noted : Noted before fact) (outbox : after.scope.outbox = before.scope.outbox)
    (grown : before.log <+: after.log) : Noted after fact := by
  refine noted.imp (fun pending => by rw [outbox]; exact pending) ?_
  exact fun ⟨fence, entryId, answered⟩ => ⟨fence, entryId, grown.subset answered⟩

theorem Committed.mono {log more : List Happening} {entry : TransitionEntry} (committed : Committed log entry)
    (grown : log <+: more) : Committed more entry := by
  obtain ⟨commit, signal, answered, listed⟩ := committed
  exact ⟨commit, signal, grown.subset answered, listed⟩

/-- What leaves machine and outbox alone leaves everything filed. -/
theorem Filed.still (filed : Filed before) (record : after.scope.machine.transitionRecord = before.scope.machine.transitionRecord)
    (journaled : after.scope.machine.journaledTransitions = before.scope.machine.journaledTransitions)
    (outbox : after.scope.outbox = before.scope.outbox) (grown : before.log <+: after.log) : Filed after := by
  refine ⟨by rw [record, journaled]; exact filed.counted, fun entry recorded => ?_⟩
  unfold RunMachine.pendingTransitions
  rw [record, journaled]
  exact (filed.filed entry (record ▸ recorded)).imp (fun noted => noted.grown outbox grown)
    (Or.imp (fun committed => committed.mono grown) id)

theorem Filed.quiet (filed : Filed before) (step : Quiet outside before after) : Filed after := by
  have taken := step
  cases step with
  | traffic step => exact filed.still (by rw [step.scope]) (by rw [step.scope]) (by rw [step.scope]) step.log
  | loses | gathers | captures => exact filed.still rfl rfl rfl List.prefix_rfl
  | records | lands =>
    exact ⟨filed.counted, fun entry recorded => (filed.filed entry recorded).imp (fun noted => noted.quiet taken) id⟩
  | drains owned =>
    have counted := filed.counted
    refine ⟨?_, fun entry recorded => ?_⟩
    · simp only [RunScope.drain, JournalOutbox.drainMachine, RunMachine.confirmJournaled, RunMachine.pendingTransitions,
        List.length_drop]
      omega
    · rcases filed.filed entry recorded with noted | committed | pending
      · exact .inl (noted.quiet taken)
      · exact .inr (.inl committed)
      · exact .inl (.inl (record_adds _ (List.mem_append_left _ (List.mem_map_of_mem pending))))

/-- A transition that is taken waits for the journal; entries a commit made durable do not. -/
theorem Act.filed (step : Act outside before after) (filed : Filed before) : Filed after := by
  have grown := step.logs
  cases step with
  | quiet step => exact filed.quiet step
  | acquires step => exact filed.still (by rw [step.scope]) (by rw [step.scope]) (by rw [step.scope]) grown
  | alters change =>
    exact filed.still (by simp [change.frame.2.1]) (by simp [change.frame.2.1]) change.frame.2.2.2 grown
  | advances kind cause instant =>
    rcases RunMachine.advance_cases before.scope.machine kind cause instant with ⟨next, _, _, taken⟩ | ⟨_, entry, refused⟩
    · have machine : (before.advance kind cause instant).2.scope.machine = before.scope.machine.taken
          ⟨before.scope.machine.runId, before.scope.machine.state, next, kind, cause, instant⟩ := by
        simp [Attempt.advance, taken]
      have counted := filed.counted
      refine ⟨?_, fun entry recorded => ?_⟩
      · simp only [machine, RunMachine.taken, List.length_append]
        omega
      · have pending : ∀ earlier ∈ before.scope.machine.pendingTransitions,
            earlier ∈ (before.advance kind cause instant).2.scope.machine.pendingTransitions := by
          intro earlier waiting
          simp only [machine, RunMachine.taken, RunMachine.pendingTransitions, List.drop_append_of_le_length counted]
          exact List.mem_append_left _ waiting
        simp only [machine, RunMachine.taken, List.mem_append, List.mem_singleton] at recorded
        rcases recorded with earlier | rfl
        · exact (filed.filed entry earlier).imp (fun noted => noted.grown rfl grown)
            (Or.imp (fun committed => committed.mono grown) (pending entry))
        · refine .inr (.inr ?_)
          simp only [machine, RunMachine.taken, RunMachine.pendingTransitions, List.drop_append_of_le_length counted]
          exact List.mem_append_right _ (.head _)
    · exact filed.still (by simp [Attempt.advance, refused]) (by simp [Attempt.advance, refused]) rfl grown
  | holds | gates | tries | reports => exact filed.still rfl rfl rfl grown
  | projects steps instants =>
    rcases RunMachine.project_cases before.scope.machine steps instants with ⟨_, _, refused⟩ | ⟨_, _, projected⟩
    · exact filed.still (by simp [Attempt.project, refused]) (by simp [Attempt.project, refused]) rfl grown
    · exact filed.still (by simp [Attempt.project, projected]) (by simp [Attempt.project, projected]) rfl grown
  | @commits heard commit signal capability ready _ passed =>
    have same : heard.scope = before.scope := passed.scope
    have log : heard.log = _ := passed.log
    have drained := ready.drained
    have counted := filed.counted
    rw [Attempt.adopt_adopts (same ▸ ready.remembered) (by rw [same]; exact ready.current)] at grown ⊢
    refine ⟨?_, fun entry recorded => ?_⟩
    · simp only [same, List.length_append]
      omega
    · simp only [same, List.mem_append] at recorded
      rcases recorded with earlier | adopted
      · refine (filed.filed entry earlier).imp (fun noted => noted.grown (by rw [same]) grown)
          fun rest => .inl ((rest.resolve_right fun pending => ?_).mono grown)
        rw [drained] at pending
        cases pending
      · refine .inr (.inl ⟨commit, signal, ?_, by rw [ready.transitions]; exact adopted⟩)
        simp [log]
  | tearsDown _ calls =>
    have same := Traffic.scopes calls
    exact filed.still (by rw [same]; rfl) (by rw [same]; rfl) (by rw [same]; rfl) grown

/-- What was written says the terminal the machine is in, and is what the scope keeps. -/
structure Documented (attempt : Attempt World) : Prop where
  narrows : Narrows attempt.scope.machine.table
  ends : EndsAnywhere attempt.scope.machine.table
  kept : ∀ record, attempt.scope.earlyRecord = some record →
    isTerminal attempt.scope.machine.state = true ∧ record.outcome.terminalState = attempt.scope.machine.state
  heard : ∀ commit signal, .answered (.commit commit signal) .ok ∈ attempt.log →
    ∃ lost, .issued (.commit commit signal) lost (.settled .ok) ∈ attempt.log
  committed : ∀ commit signal lost, .issued (.commit commit signal) lost (.settled .ok) ∈ attempt.log →
    isTerminal attempt.scope.machine.state = true ∧
      commit.intent.bundle.outcome.terminalState = attempt.scope.machine.state
  recorded : attempt.scope.recorded ≠ .none →
    isTerminal attempt.scope.machine.state = true ∧
      Governed attempt.log attempt.scope.machine.state attempt.scope.recorded

theorem Governed.mono {log more : List Happening} {state : LifecycleState} {produced : Produced}
    (governed : Governed log state produced) (grown : log <+: more) : Governed more state produced := by
  cases produced with
  | none => exact governed
  | evidenceBundle =>
    obtain ⟨commit, signal, answered, same⟩ := governed
    exact ⟨commit, signal, grown.subset answered, same⟩
  | earlyTerminationRecord =>
    obtain ⟨fence, recordId, record, answered, same⟩ := governed
    exact ⟨fence, recordId, record, grown.subset answered, same⟩

/-- A terminal scope is one whose machine is concluded, under a table that ends anywhere. -/
theorem Terminated.concluded {scope : RunScope} (terminated : Terminated scope) (narrows : Narrows scope.machine.table)
    (ends : EndsAnywhere scope.machine.table) : isTerminal scope.machine.state = true := by
  cases concluded : isTerminal scope.machine.state with
  | true => rfl
  | false =>
    rcases terminated narrows with terminal | stuck
    · rw [concluded] at terminal
      cases terminal
    · exact absurd stuck (ends _ concluded)

/-- An acknowledged commit leaves the machine in the terminal its bundle says. -/
theorem Sealing.adopted {capability : CommitCapability} {commit : FinalizationCommit Contracts.RunEvent EvidenceBundle}
    (ready : Sealing before capability commit) (narrows : Narrows before.scope.machine.table) (state : LifecycleState) :
    isTerminal ((capability.entries.getLast?.map (·.target)).getD state) = true ∧
      commit.intent.bundle.outcome.terminalState = (capability.entries.getLast?.map (·.target)).getD state := by
  obtain ⟨_, front, last, entries, target, terminated, _⟩ := ready.entries narrows
  obtain ⟨detail, _, outcome⟩ := ready.outcome
  have final : (capability.entries.getLast?.map (·.target)).getD state = commit.intent.terminal := by
    simp [entries, target]
  rw [final, outcome]
  exact ⟨terminated, outcomeFor_terminal terminated⟩

theorem Act.documented (step : Act outside before after) (documented : Documented before) : Documented after := by
  have table := step.table
  have narrows : Narrows after.scope.machine.table := by rw [table]; exact documented.narrows
  have ends : EndsAnywhere after.scope.machine.table := by rw [table]; exact documented.ends
  have settled {terminal : LifecycleState} (concluded : isTerminal before.scope.machine.state = true)
      (same : terminal = before.scope.machine.state) :
      isTerminal after.scope.machine.state = true ∧ terminal = after.scope.machine.state := by
    rw [step.settled documented.narrows concluded]
    exact ⟨concluded, same⟩
  refine ⟨narrows, ends, fun record kept => ?_, fun commit signal answered => ?_, fun commit signal lost made => ?_,
    fun recorded => ?_⟩
  · rcases step.writes with ⟨scope, change, rfl⟩ | ⟨_, _, _, early⟩
    · cases change with
      | keeps absent said terminated =>
        cases kept
        have concluded := terminated.concluded documented.narrows documented.ends
        obtain ⟨detail, outcome⟩ := said
        exact ⟨concluded, by rw [outcome]; exact outcomeFor_terminal concluded⟩
      | waits | establishes | asksWorkspace | gainsWorkspace | lacksWorkspace | asksSession | gainsSession | lacksSession
      | recordsEarly | recordsBundle | letsGo => exact documented.kept record kept
    · obtain ⟨concluded, same⟩ := documented.kept record (early ▸ kept)
      exact settled concluded same
  · rcases step.heard answered with earlier | made
    · exact (documented.heard commit signal earlier).imp fun _ made => step.logs.subset made
    · exact made
  · rcases step.commit_made made with earlier | ⟨capability, ready, state⟩
    · obtain ⟨concluded, same⟩ := documented.committed commit signal lost earlier
      exact settled concluded same
    · rw [state]
      exact ready.adopted documented.narrows _
  · rcases step.writes with ⟨scope, change, rfl⟩ | ⟨_, _, same, _⟩
    · cases change with
      | recordsEarly kept answered =>
        obtain ⟨concluded, same⟩ := documented.kept _ kept
        exact ⟨concluded, _, _, _, answered, same⟩
      | recordsBundle answered =>
        obtain ⟨lost, made⟩ := documented.heard _ _ answered
        obtain ⟨concluded, same⟩ := documented.committed _ _ _ made
        exact ⟨concluded, _, _, answered, same⟩
      | waits | establishes | asksWorkspace | gainsWorkspace | lacksWorkspace | asksSession | gainsSession | lacksSession
      | keeps | letsGo => exact documented.recorded recorded
    · rw [same] at recorded ⊢
      obtain ⟨concluded, governed⟩ := documented.recorded recorded
      rw [step.settled documented.narrows concluded]
      exact ⟨concluded, governed.mono step.logs⟩

/-- The table a run's machine is given. -/
def composedTable (controls : RunControls) : TransitionTable :=
  match narrowingOnly controls.transitions with
  | .ok table => table
  | .error _ => transitions

theorem canonical_endsAnywhere : EndsAnywhere transitions := by
  intro state going
  cases state <;> first | exact Option.some_ne_none _ | cases going

theorem walked_documented {request : RunRequest} {controls : RunControls} {generation : Nat} {startedAt : String}
    {walked : Attempt World} (ends : EndsAnywhere (composedTable controls))
    (unwalked : ∀ happening ∈ before.log, Unwalked happening)
    (acts : ReflTransGen (Act outside) { before with scope := beginning request controls generation startedAt } walked) :
    Filed walked ∧ Documented walked := by
  induction acts with
  | refl =>
    refine ⟨⟨Nat.le_refl _, fun _ absent => nomatch absent⟩, beginning_narrows, ends, (fun _ absent => nomatch absent),
      fun commit signal answered => ?_, fun commit signal lost made => ?_, fun recorded => absurd rfl recorded⟩
    · cases (unwalked _ answered : aboutClaim (.commit commit signal) = true)
    · cases (unwalked _ made).2
  | tail _ step ih => exact ⟨step.filed ih.1, step.documented ih.2⟩

/-- A transition the journal or a commit acknowledged. -/
def Durable (log : List Happening) (entry : TransitionEntry) : Prop :=
  Journaled log (.transition entry) ∨ Committed log entry

/-- Where nothing waits for the journal, the whole walk is durable. -/
theorem Filed.durable {attempt : Attempt World} (filed : Filed attempt) (landed : attempt.scope.Landed) :
    ∀ entry ∈ attempt.scope.machine.transitionRecord, Durable attempt.log entry := by
  intro entry recorded
  rcases filed.filed entry recorded with (⟨waiting, listed, _⟩ | journaled) | committed | pending
  · rw [landed.1] at listed
    cases listed
  · exact .inl journaled
  · exact .inr committed
  · rw [landed.2] at pending
    cases pending

theorem Durable.mono {log more : List Happening} {entry : TransitionEntry} (durable : Durable log entry)
    (grown : log <+: more) : Durable more entry :=
  durable.imp (fun ⟨fence, entryId, answered⟩ => ⟨fence, entryId, grown.subset answered⟩) fun committed => committed.mono grown

/-- A terminal conclusion was read off an empty outbox, and names its record. -/
theorem conclusionOf_terminal {scope : RunScope} {runId detail : String} {produced : Produced}
    (kind : (conclusionOf scope runId produced detail).kind = .terminal) :
    scope.fenceLost = none ∧ scope.outbox.pending = [] ∧ produced ≠ .none ∧
      (conclusionOf scope runId produced detail).produced = produced := by
  unfold conclusionOf at kind ⊢
  dsimp only at kind ⊢
  split at kind
  · cases kind
  next owned =>
    split at kind
    · split at kind <;> cases kind
    next landed =>
      split at kind
      next terminated =>
        split at kind
        · cases kind
        next named =>
          have empty : scope.outbox.pending = [] := by simpa [JournalOutbox.isEmpty] using landed
          exact ⟨owned, empty, named, by simp [JournalOutbox.isEmpty, empty, terminated, named]⟩
      · split at kind <;> cases kind

/-- A held conclusion was read off an empty outbox, of a run that waits. -/
theorem conclusionOf_held {scope : RunScope} {runId detail : String} {produced : Produced}
    (kind : (conclusionOf scope runId produced detail).kind = .held) :
    scope.fenceLost = none ∧ scope.outbox.pending = [] ∧ isTerminal scope.machine.state = false ∧ scope.held ≠ none := by
  unfold conclusionOf at kind
  dsimp only at kind
  split at kind
  · cases kind
  next owned =>
    split at kind
    · split at kind <;> cases kind
    next landed =>
      split at kind
      · split at kind <;> cases kind
      next going =>
        have empty : scope.outbox.pending = [] := by simpa [JournalOutbox.isEmpty] using landed
        refine ⟨owned, empty, by simpa using going, fun free => ?_⟩
        simp [free] at kind

/-- An unfinished settlement that claims a terminal names the record its scope keeps. -/
theorem incompleteOf_claims (scope : RunScope) (runId : String) (intended : LifecycleState) (detail : String) :
    (incompleteOf scope runId intended detail).kind ≠ .held ∧
      ((incompleteOf scope runId intended detail).kind = .terminal →
        scope.recorded ≠ .none ∧ (incompleteOf scope runId intended detail).produced = scope.recorded) := by
  unfold incompleteOf
  dsimp only
  split
  · exact ⟨by simp, by simp⟩
  · split
    next claims => exact ⟨by simp, fun _ => ⟨claims.1, rfl⟩⟩
    · exact ⟨by simp, by simp⟩

/-- What a conclusion claims is durable. -/
def Claims (log : List Happening) (scope : RunScope) (conclusion : RunConclusion) : Prop :=
  match conclusion.kind with
  | .terminal => scope.outbox.pending = [] ∧ (∀ entry ∈ conclusion.transitions, Durable log entry) ∧
      Governed log conclusion.state conclusion.produced
  | .held => (∃ hold, Journaled log (.hold hold)) ∧ ∀ entry ∈ conclusion.transitions, Durable log entry
  | _ => True

/-- A journal that never answers an append. -/
def silentJournal : Surroundings Unit := portsWith fun
  | .append .., world => some (.unanswered, world)
  | _, _ => none

/-- A request that names no profile. -/
def unprofiledRequest : RunRequest := { fixtureRequest with profileRef := none }

/-- A terminal with a transition that is pending, and no answer of the journal or of finalization. -/
def silentEnded : Ended (environment silentJournal fixtureCore unprofiledRequest {}) () (fun conclusion last =>
    conclusion.kind == .terminal && !last.scope.outbox.pending.isEmpty && !conclusion.transitions.isEmpty &&
      last.log.all fun
        | .answered (.append ..) _ | .answered (.commit ..) _ => false
        | _ => true) :=
  ⟨by decide +kernel⟩

end SecureHome.Orchestration
