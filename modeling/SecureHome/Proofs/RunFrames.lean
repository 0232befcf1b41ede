import SecureHome.Proofs.RunEnds

/-! What one act can put on the log and what it leaves alone, said once. Every
invariant of a run is read off these. -/

namespace SecureHome.Orchestration
open Relation Lib Lifecycle Ports RunState Contracts Core Adapters

variable {World : Type} {outside : Surroundings World} {before after : Attempt World}

/-- What traffic can tell: calls made with leave, calls barred, and answers of calls made. -/
inductive Passing (permitted : Call → Prop) (lost : Bool) (log : List Happening) : Happening → Prop where
  | made {call : Call} (ending : Ending (Answer call)) (allowed : permitted call) :
      Passing permitted lost log (.issued call lost ending)
  | barred (call : Call) : Passing permitted lost log (.barred call)
  | heard {call : Call} {answer : Answer call} (issued : ∃ known, .issued call known (.settled answer) ∈ log) :
      Passing permitted lost log (.answered call answer)

theorem Passing.mono {permitted wider : Call → Prop} {lost : Bool} {log more : List Happening} {happening : Happening}
    (passing : Passing permitted lost log happening) (wide : ∀ call, permitted call → wider call) (grown : log <+: more) :
    Passing wider lost more happening := by
  cases passing with
  | made ending allowed => exact .made ending (wide _ allowed)
  | barred call => exact .barred call
  | heard issued => exact .heard (issued.imp fun _ made => grown.subset made)

section Traffic

variable {permitted : Attempt World → Call → Prop}

theorem Traffic.told (step : Traffic outside permitted before after) {happening : Happening}
    (listed : happening ∈ after.log) :
    happening ∈ before.log ∨ Passing (permitted before) before.scope.fenceLost.isSome after.log happening := by
  cases step with
  | passes passed => exact .inl (passed.log ▸ listed)
  | issues allowed =>
    simp only [Attempt.issue, List.mem_append, List.mem_singleton] at listed
    rcases listed with listed | rfl
    · exact .inl listed
    · exact .inr (.made _ allowed)
  | bars call =>
    simp only [List.mem_append, List.mem_singleton] at listed
    rcases listed with listed | rfl
    · exact .inl listed
    · exact .inr (.barred call)
  | hears issued =>
    simp only [List.mem_append, List.mem_singleton] at listed
    rcases listed with listed | rfl
    · exact .inl listed
    · exact .inr (.heard (issued.imp fun _ made => List.mem_append_left _ made))

theorem Traffic.tolds (steps : ReflTransGen (Traffic outside permitted) before after) {happening : Happening}
    (listed : happening ∈ after.log) :
    happening ∈ before.log ∨
      Passing (fun call => ∃ ready, permitted ready call) before.scope.fenceLost.isSome after.log happening := by
  induction steps with
  | refl => exact .inl listed
  | tail earlier step ih =>
    rcases step.told listed with listed | passing
    · exact (ih listed).imp id fun passing => passing.mono (fun _ allowed => allowed) step.log
    · rw [Traffic.scopes earlier] at passing
      exact .inr (passing.mono (fun _ allowed => ⟨_, allowed⟩) List.prefix_rfl)

end Traffic

/-- What an attempt that knows of no loss may call. -/
def Granted (before : Attempt World) (call : Call) : Prop :=
  before.scope.fenceLost = none ∧ (Ordinary before call ∨ Acquiring before call ∨ call ∈ before.scope.cleanup ∨
    ∃ commit signal capability, call = .commit commit signal ∧ Sealing before capability commit)

theorem Ordinary.granted {call : Call} (ordinary : Ordinary before call) : Granted before call := by
  refine ⟨?_, .inl ordinary⟩
  cases call <;> first | exact ordinary.elim | exact ordinary | exact ordinary.1 | exact ordinary.1.1

theorem Acquiring.granted {call : Call} (acquiring : Acquiring before call) : Granted before call := by
  refine ⟨?_, .inr (.inl acquiring)⟩
  cases call <;> first | exact acquiring.elim | exact acquiring.1.1

/-- What an act can tell, of where it began and of the log it leaves. -/
inductive Told (before : Attempt World) (log : List Happening) : Happening → Prop where
  | passing {happening : Happening} (passing : Passing (Granted before) false log happening) : Told before log happening
  | took {entry : TransitionEntry} (going : isTerminal before.scope.machine.state = false)
      (source : entry.source = before.scope.machine.state)
      (declared : before.scope.machine.table entry.source entry.kind = some entry.target)
      (owned : before.scope.fenceLost = none ∨ .gated true ∈ before.log) :
      Told before log (.entered entry before.scope.fenceLost.isSome)
  | adopted {commit : FinalizationCommit Contracts.RunEvent EvidenceBundle} (signal : Boundary)
      {capability : CommitCapability} {entry : TransitionEntry} (ready : Sealing before capability commit)
      (acknowledged : .answered (.commit commit signal) .ok ∈ log) (listed : entry ∈ capability.entries) :
      Told before log (.entered entry false)
  | gated : Told before log (.gated before.scope.fenceLost.isSome)
  | incomplete : Told before log (.incomplete before.scope)

theorem Traffic.tells {permitted : Attempt World → Call → Prop} (step : Traffic outside permitted before after)
    (granted : ∀ call, permitted before call → Granted before call) {happening : Happening}
    (listed : happening ∈ after.log) : happening ∈ before.log ∨ Told before after.log happening := by
  refine (step.told listed).imp id fun passing => .passing ?_
  cases passing with
  | made ending allowed =>
    have owned := (granted _ allowed).1
    simp only [owned]
    exact .made ending (granted _ allowed)
  | barred call => exact .barred call
  | heard issued => exact .heard issued

/-- Everything on the log after an act was there, or is what the act can tell. -/
theorem Act.told (step : Act outside before after) {happening : Happening} (listed : happening ∈ after.log) :
    happening ∈ before.log ∨ Told before after.log happening := by
  cases step with
  | quiet step =>
    cases step with
    | traffic step => exact step.tells (fun _ ordinary => ordinary.granted) listed
    | drains | lands | loses | records | gathers | captures => exact .inl listed
  | acquires step => exact step.tells (fun _ acquiring => acquiring.granted) listed
  | alters | holds | projects => exact .inl listed
  | advances kind cause instant owned =>
    rcases RunMachine.advance_cases before.scope.machine kind cause instant with
      ⟨next, going, declared, taken⟩ | ⟨_, entry, refused⟩
    · simp only [Attempt.advance, taken, List.mem_append, List.mem_singleton] at listed
      rcases listed with listed | rfl
      · exact .inl listed
      · exact .inr (.took going rfl declared owned)
    · simp only [Attempt.advance, refused] at listed
      exact .inl listed
  | gates =>
    simp only [List.mem_append, List.mem_singleton] at listed
    rcases listed with listed | rfl
    · exact .inl listed
    · exact .inr .gated
  | reports =>
    simp only [List.mem_append, List.mem_singleton] at listed
    rcases listed with listed | rfl
    · exact .inl listed
    · exact .inr .incomplete
  | @tries commit signal capability ready =>
    simp only [Attempt.issue, List.mem_append, List.mem_singleton, ready.owned.1] at listed
    rcases listed with listed | rfl
    · exact .inl listed
    · exact .inr (.passing (.made _ ⟨ready.owned.1, .inr (.inr (.inr ⟨commit, signal, capability, rfl, ready⟩))⟩))
  | @commits heard commit signal capability ready acknowledged passed =>
    have same : heard.scope = before.scope := passed.scope
    have log : heard.log = _ := passed.log
    rw [Attempt.adopt_adopts (same ▸ ready.remembered) (by rw [same]; exact ready.current)] at listed ⊢
    simp only [log, same, Attempt.issue, ready.owned.1, List.append_assoc, List.mem_append, List.mem_singleton,
      List.mem_map] at listed
    rcases listed with listed | rfl | rfl | ⟨entry, adopted, rfl⟩
    · exact .inl listed
    · exact .inr (.passing (.made _ ⟨ready.owned.1, .inr (.inr (.inr ⟨commit, signal, capability, rfl, ready⟩))⟩))
    · exact .inr (.passing (.heard ⟨false, by simp [log, Attempt.issue, ready.owned.1, acknowledged]⟩))
    · exact .inr (.adopted signal ready (by simp [log]) adopted)
  | tearsDown owned calls =>
    rcases Traffic.tolds calls listed with listed | passing
    · exact .inl listed
    · refine .inr (.passing ?_)
      have known : before.scope.letGo.fenceLost.isSome = false := by simp [RunScope.letGo, owned]
      simp only [known] at passing
      refine passing.mono (fun call cleaning => ?_) List.prefix_rfl
      obtain ⟨_, cleans⟩ := cleaning
      exact ⟨owned, .inr (.inr (.inl cleans))⟩

/-- Traffic adds nothing but calls. -/
theorem Traffic.uncalled {permitted : Attempt World → Call → Prop}
    (steps : ReflTransGen (Traffic outside permitted) before after) {happening : Happening} (listed : happening ∈ after.log)
    (other : ∀ permitted lost log, ¬ Passing permitted lost log happening) : happening ∈ before.log :=
  (Traffic.tolds steps listed).resolve_right (other _ _ _)

theorem Traffic.heards {permitted : Attempt World → Call → Prop}
    (steps : ReflTransGen (Traffic outside permitted) before after) {call : Call} {answer : Answer call}
    (listed : .answered call answer ∈ after.log) :
    .answered call answer ∈ before.log ∨ ∃ lost, .issued call lost (.settled answer) ∈ after.log := by
  refine (Traffic.tolds steps listed).imp id fun passing => ?_
  cases passing with
  | heard issued => exact issued

theorem Act.issued (step : Act outside before after) {call : Call} {lost : Bool} {ending : Ending (Answer call)}
    (listed : .issued call lost ending ∈ after.log) :
    .issued call lost ending ∈ before.log ∨ lost = false ∧ Granted before call := by
  refine (step.told listed).imp id fun told => ?_
  cases told with
  | passing passing =>
    cases passing with
    | made _ allowed => exact ⟨rfl, allowed⟩

/-- An answer on record is the answer of a call that was made. -/
theorem Act.heard (step : Act outside before after) {call : Call} {answer : Answer call}
    (listed : .answered call answer ∈ after.log) :
    .answered call answer ∈ before.log ∨ ∃ lost, .issued call lost (.settled answer) ∈ after.log := by
  refine (step.told listed).imp id fun told => ?_
  cases told with
  | passing passing =>
    cases passing with
    | heard issued => exact issued

/-- The machine stands where the transitions the attempt entered have led it. -/
structure Traced (attempt : Attempt World) : Prop where
  entered : ∀ entry ∈ attempt.scope.machine.transitionRecord, ∃ lost, .entered entry lost ∈ attempt.log
  stands : attempt.scope.machine.state =
    (attempt.scope.machine.transitionRecord.getLast?.map (·.target)).getD .requested

/-- What leaves record and state alone leaves the machine traced. -/
theorem Traced.still (traced : Traced before)
    (record : after.scope.machine.transitionRecord = before.scope.machine.transitionRecord)
    (state : after.scope.machine.state = before.scope.machine.state) (grown : before.log <+: after.log) : Traced after := by
  refine ⟨fun entry recorded => ?_, by rw [state, record]; exact traced.stands⟩
  obtain ⟨lost, entered⟩ := traced.entered entry (record ▸ recorded)
  exact ⟨lost, grown.subset entered⟩

theorem Alters.frame {log : List Happening} {scope changed : RunScope} (change : Alters log scope changed) :
    changed.fence = scope.fence ∧ changed.machine = scope.machine ∧ changed.fenceLost = scope.fenceLost ∧
      changed.outbox = scope.outbox := by
  cases change <;> exact ⟨rfl, rfl, rfl, rfl⟩

theorem Act.fence (step : Act outside before after) : after.scope.fence = before.scope.fence := by
  cases step with
  | quiet step => exact step.undisturbed.fence
  | acquires step => rw [step.scope]
  | alters change => exact change.frame.1
  | advances | holds | projects | gates | tries | reports => rfl
  | @commits heard _ _ _ _ _ passed =>
    have same : heard.scope = before.scope := passed.scope
    change heard.scope.fence = before.scope.fence
    rw [same]
  | tearsDown _ calls => rw [Traffic.scopes calls]; rfl

/-- Only a write of the scope touches what it holds for, established, and recorded. -/
theorem Act.writes (step : Act outside before after) :
    (∃ scope, Alters before.log before.scope scope ∧ after = { before with scope }) ∨
      after.scope.held = before.scope.held ∧ after.scope.established = before.scope.established ∧
        after.scope.recorded = before.scope.recorded ∧ after.scope.earlyRecord = before.scope.earlyRecord := by
  cases step with
  | quiet step =>
    have undisturbed := step.undisturbed
    exact .inr ⟨undisturbed.held, undisturbed.established, undisturbed.recorded, undisturbed.earlyRecord⟩
  | acquires step => exact .inr (by simp [step.scope])
  | alters change => exact .inl ⟨_, change, rfl⟩
  | advances | holds | projects | gates | tries | reports => exact .inr ⟨rfl, rfl, rfl, rfl⟩
  | @commits heard _ _ _ ready _ passed =>
    have same : heard.scope = before.scope := passed.scope
    rw [Attempt.adopt_adopts (same ▸ ready.remembered) (by rw [same]; exact ready.current)]
    exact .inr (by simp [same])
  | tearsDown _ calls =>
    rw [Traffic.scopes calls]
    exact .inr ⟨rfl, rfl, rfl, rfl⟩

/-- A commit the log keeps as acknowledged is the one act that makes it so. -/
theorem Act.commit_made (step : Act outside before after)
    {commit : FinalizationCommit Contracts.RunEvent EvidenceBundle} {signal : Boundary} {lost : Bool}
    (listed : .issued (.commit commit signal) lost (.settled .ok) ∈ after.log) :
    .issued (.commit commit signal) lost (.settled .ok) ∈ before.log ∨
      ∃ capability, Sealing before capability commit ∧
        after.scope.machine.state = (capability.entries.getLast?.map (·.target)).getD before.scope.machine.state := by
  cases step with
  | quiet step =>
    cases step with
    | traffic step => exact (step.issued listed).imp id False.elim
    | drains | lands | loses | records | gathers | captures => exact .inl listed
  | acquires step => exact (step.issued listed).imp id False.elim
  | alters | holds | projects => exact .inl listed
  | advances kind cause instant =>
    simp only [Attempt.advance] at listed
    split at listed
    · simp only [List.mem_append, List.mem_singleton] at listed
      exact .inl (listed.resolve_right fun same => by cases same)
    · exact .inl listed
  | gates | reports =>
    simp only [List.mem_append, List.mem_singleton] at listed
    exact .inl (listed.resolve_right fun same => by cases same)
  | tries ready unacknowledged =>
    simp only [Attempt.issue, List.mem_append, List.mem_singleton] at listed
    refine .inl (listed.resolve_right fun same => ?_)
    simp only [Happening.issued.injEq, Call.commit.injEq] at same
    obtain ⟨⟨rfl, rfl⟩, _, ended⟩ := same
    exact unacknowledged (eq_of_heq ended).symm
  | @commits heard made _ capability ready acknowledged passed =>
    have same : heard.scope = before.scope := passed.scope
    have log : heard.log = _ := passed.log
    rw [Attempt.adopt_adopts (same ▸ ready.remembered) (by rw [same]; exact ready.current)] at listed ⊢
    simp only [log, Attempt.issue, List.append_assoc, List.mem_append, List.mem_singleton, List.mem_map] at listed
    rcases listed with earlier | now | answer | ⟨_, _, entry⟩
    · exact .inl earlier
    · simp only [Happening.issued.injEq, Call.commit.injEq] at now
      obtain ⟨⟨rfl, _⟩, _⟩ := now
      exact .inr ⟨capability, ready, by rw [same]⟩
    · cases answer
    · cases entry
  | tearsDown _ calls =>
    refine (Traffic.issueds calls listed).imp id fun cleaning => ?_
    obtain ⟨_, cleans⟩ := cleaning
    simp [RunScope.cleanup] at cleans

theorem Act.table (step : Act outside before after) : after.scope.machine.table = before.scope.machine.table := by
  cases step with
  | quiet step => exact step.undisturbed.table
  | acquires step => rw [step.scope]
  | alters change => simp [change.frame.2.1]
  | advances kind cause instant => exact (before.advanced kind cause instant).table
  | holds | gates | tries | reports => rfl
  | projects steps instants =>
    rcases RunMachine.project_cases before.scope.machine steps instants with ⟨_, _, refused⟩ | ⟨_, _, projected⟩
    · simp [Attempt.project, refused]
    · simp [Attempt.project, projected]
  | @commits heard _ _ _ ready _ passed =>
    have same : heard.scope = before.scope := passed.scope
    rw [Attempt.adopt_adopts (same ▸ ready.remembered) (by rw [same]; exact ready.current)]
    simp [same]
  | tearsDown _ calls => rw [Traffic.scopes calls]; rfl

/-- A machine that is over stays where it is. -/
theorem Act.settled (step : Act outside before after) (narrows : Narrows before.scope.machine.table)
    (terminated : isTerminal before.scope.machine.state = true) :
    after.scope.machine.state = before.scope.machine.state := by
  cases step with
  | quiet step => exact step.undisturbed.state
  | acquires step => rw [step.scope]
  | alters change => simp [change.frame.2.1]
  | advances kind cause instant => exact (before.advanced kind cause instant).settled terminated
  | holds | gates | tries | reports => rfl
  | projects steps instants =>
    rcases RunMachine.project_cases before.scope.machine steps instants with ⟨_, _, refused⟩ | ⟨_, _, projected⟩
    · simp [Attempt.project, refused]
    · simp [Attempt.project, projected]
  | commits ready =>
    rw [(ready.entries narrows).1] at terminated
    cases terminated
  | tearsDown _ calls => rw [Traffic.scopes calls]; rfl

/-- An attempt that knows of no loss knew of none before. -/
theorem Act.owned (step : Act outside before after) (owned : after.scope.fenceLost = none) :
    before.scope.fenceLost = none := by
  cases step with
  | quiet step => exact step.undisturbed.owned owned
  | acquires step => rw [← step.scope]; exact owned
  | alters change => rw [← change.frame.2.2.1]; exact owned
  | advances | holds | projects | gates | tries | reports => exact owned
  | commits ready => exact ready.owned.1
  | tearsDown owned => exact owned

/-- A record that goes on is entered as it goes. -/
theorem Traced.onward (traced : Traced before) (entries : List TransitionEntry) (lost : Bool)
    (record : after.scope.machine.transitionRecord = before.scope.machine.transitionRecord ++ entries)
    (state : after.scope.machine.state = (entries.getLast?.map (·.target)).getD before.scope.machine.state)
    (log : after.log = before.log ++ entries.map (.entered · lost)) : Traced after := by
  refine ⟨fun entry recorded => ?_, ?_⟩
  · rw [record] at recorded
    rw [log]
    rcases List.mem_append.mp recorded with earlier | added
    · obtain ⟨known, entered⟩ := traced.entered entry earlier
      exact ⟨known, List.mem_append_left _ entered⟩
    · exact ⟨lost, List.mem_append_right _ (List.mem_map_of_mem added)⟩
  · rw [state, record, traced.stands]
    cases last : entries.getLast? with
    | none =>
      rw [List.getLast?_eq_none_iff] at last
      simp [last]
    | some final => simp [List.getLast?_append, last]

theorem Act.traced (step : Act outside before after) (traced : Traced before) : Traced after := by
  have grown := step.logs
  cases step with
  | quiet step => exact traced.still step.undisturbed.transitionRecord step.undisturbed.state grown
  | acquires step => exact traced.still (by rw [step.scope]) (by rw [step.scope]) grown
  | alters change => exact traced.still (by simp [change.frame.2.1]) (by simp [change.frame.2.1]) grown
  | advances kind cause instant =>
    rcases RunMachine.advance_cases before.scope.machine kind cause instant with ⟨next, _, _, taken⟩ | ⟨_, entry, refused⟩
    · refine traced.onward [⟨before.scope.machine.runId, before.scope.machine.state, next, kind, cause, instant⟩]
        before.scope.fenceLost.isSome ?_ ?_ ?_
      · simp [Attempt.advance, taken, RunMachine.taken]
      · simp [Attempt.advance, taken, RunMachine.taken]
      · simp [Attempt.advance, taken]
    · exact traced.still (by simp [Attempt.advance, refused]) (by simp [Attempt.advance, refused]) grown
  | holds => exact traced.still rfl rfl grown
  | projects steps instants =>
    rcases RunMachine.project_cases before.scope.machine steps instants with ⟨_, _, refused⟩ | ⟨_, _, projected⟩
    · exact traced.still (by simp [Attempt.project, refused]) (by simp [Attempt.project, refused]) grown
    · exact traced.still (by simp [Attempt.project, projected]) (by simp [Attempt.project, projected]) grown
  | gates | tries | reports => exact traced.still rfl rfl grown
  | @commits heard commit signal capability ready acknowledged passed =>
    have same : heard.scope = before.scope := passed.scope
    have known : Traced heard := by
      refine traced.still (by rw [same]) (by rw [same]) ?_
      rw [passed.log, Attempt.issue, List.append_assoc]
      exact List.prefix_append _ _
    rw [Attempt.adopt_adopts (same ▸ ready.remembered) (by rw [same]; exact ready.current)]
    exact known.onward capability.entries heard.scope.fenceLost.isSome rfl rfl rfl
  | tearsDown _ calls =>
    exact traced.still (by rw [Traffic.scopes calls]; rfl) (by rw [Traffic.scopes calls]; rfl) grown

/-- What a run reports of its machine is what its machine says. -/
theorem Reported.machine {runId : String} {conclusion : RunConclusion} {attempt : Attempt World}
    (reported : Reported runId conclusion attempt) :
    conclusion.transitions = attempt.scope.machine.transitionRecord ∧ conclusion.state = attempt.scope.machine.state := by
  cases reported with
  | concluded concluded =>
    obtain ⟨produced, detail, rfl, _⟩ := concluded.said
    unfold conclusionOf
    dsimp only
    repeat' split
    all_goals exact ⟨rfl, rfl⟩
  | incomplete intended detail said =>
    rw [said]
    unfold incompleteOf
    dsimp only
    repeat' split
    all_goals exact ⟨rfl, rfl⟩
  | lost _ _ state transitions => exact ⟨transitions, state⟩

end SecureHome.Orchestration
