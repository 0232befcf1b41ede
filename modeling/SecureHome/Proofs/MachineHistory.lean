import SecureHome.Lib.Execution
import SecureHome.Orchestration.Runner

/-! What any sequence of operations leaves of a run machine: a chain of declared
transitions, advanced at most once from any version. -/

namespace SecureHome.Lifecycle
open Lib Orchestration

/-- One operation on a machine. A projection reads the clock as it goes. -/
inductive MachineOperation where
  | apply (claim : WriteClaim) (kind : TransitionKind) (cause instant : String)
  | hold (kind : TransitionKind) (detail instant : String)
  | advance (kind : TransitionKind) (cause instant : String)
  | project (steps : List ProjectedStep) (clock : Nat → String)
  | commitProjected (capability : CommitCapability)

def TransitionResult.moved : TransitionResult → Bool
  | advanced _ _ => true
  | rejected _ _ => false

/-- A machine and the capabilities it has minted so far, spent ones included. -/
structure MachineHistory where
  machine : RunMachine
  minted : List CommitCapability := []

namespace MachineHistory

def projection (history : MachineHistory) (steps : List ProjectedStep) (clock : Nat → String) : Projection × RunMachine :=
  history.machine.project steps ((List.range steps.length).map clock)

/-- A capability says who minted it. One that names this machine without being among
those it minted is not a value anyone can hold. -/
def Presentable (history : MachineHistory) (capability : CommitCapability) : Prop :=
  capability.owner = history.machine.identity → capability ∈ history.minted

instance (history : MachineHistory) (capability : CommitCapability) : Decidable (history.Presentable capability) :=
  inferInstanceAs (Decidable (_ → _))

def operate (history : MachineHistory) : MachineOperation → MachineHistory
  | .apply claim kind cause instant => { history with machine := (history.machine.apply claim kind cause instant).2 }
  | .hold kind detail instant => { history with machine := (history.machine.hold kind detail instant).2 }
  | .advance kind cause instant => { history with machine := (history.machine.advance kind cause instant).2 }
  | .project steps clock =>
    match history.projection steps clock with
    | (.projected capability, machine) => ⟨machine, history.minted ++ [capability]⟩
    | (.refused _ _, machine) => { history with machine }
  | .commitProjected capability =>
    if history.Presentable capability then
      { history with machine := (history.machine.commitProjected capability).2 }
    else history

/-- The version a claim or a capability was taken at. -/
def takenAt (history : MachineHistory) : MachineOperation → Option Nat
  | .apply claim _ _ _ => some claim.version
  | .advance _ _ _ => some history.machine.version
  | .commitProjected capability => some capability.fromVersion
  | _ => none

/-- Whether an operation's answer says the machine moved. -/
def advances (history : MachineHistory) : MachineOperation → Bool
  | .apply claim kind cause instant => (history.machine.apply claim kind cause instant).1.moved
  | .advance kind cause instant => (history.machine.advance kind cause instant).1.moved
  | .commitProjected capability =>
    decide (history.Presentable capability) && (history.machine.commitProjected capability).1.isOk &&
      !capability.entries.isEmpty
  | _ => false

end MachineHistory

/-- Entries that lead from one state to another, each by a canonically declared step. -/
def Leads : LifecycleState → List TransitionEntry → LifecycleState → Prop
  | start, [], final => start = final
  | start, entry :: rest, final =>
    entry.source = start ∧ transitions entry.source entry.kind = some entry.target ∧ Leads entry.target rest final

theorem Leads.append {start middle final : LifecycleState} {first rest : List TransitionEntry}
    (before : Leads start first middle) (after : Leads middle rest final) : Leads start (first ++ rest) final := by
  induction first generalizing start with
  | nil => cases before; exact after
  | cons entry first ih => exact ⟨before.1, before.2.1, ih before.2.2⟩

theorem Leads.last {start final : LifecycleState} {entries : List TransitionEntry} (leads : Leads start entries final) :
    (entries.getLast?.map (·.target)).getD start = final := by
  induction entries generalizing start with
  | nil => exact leads
  | cons entry rest ih =>
    have onward := ih leads.2.2
    cases rest with
    | nil => simpa using onward
    | cons next rest =>
      rw [List.getLast?_cons_cons]
      simpa [List.getLast?_cons] using onward

theorem Leads.head {start final : LifecycleState} {entries : List TransitionEntry} (leads : Leads start entries final) :
    ∀ first ∈ entries.head?, first.source = start := by
  intro first found
  cases entries with
  | nil => cases found
  | cons entry rest => cases found; exact leads.1

theorem Leads.declared {start final : LifecycleState} {entries : List TransitionEntry} (leads : Leads start entries final) :
    ∀ entry ∈ entries, transitions entry.source entry.kind = some entry.target := by
  induction entries generalizing start with
  | nil => intro entry absent; cases absent
  | cons first rest ih =>
    intro entry listed
    cases listed with
    | head => exact leads.2.1
    | tail _ listed => exact ih leads.2.2 entry listed

/-- Each entry starts where the one before it ended, so a terminal one is last. -/
theorem Leads.chain {start final : LifecycleState} {entries : List TransitionEntry} (leads : Leads start entries final) :
    entries.IsChain fun entry next => entry.target = next.source ∧ isTerminal entry.target = false := by
  induction entries generalizing start with
  | nil => exact .nil
  | cons entry rest ih =>
    have onward := ih leads.2.2
    cases rest with
    | nil => exact .singleton entry
    | cons next rest =>
      obtain ⟨_, _, begins, declared, _⟩ := leads
      refine .cons_cons ⟨begins.symm, ?_⟩ onward
      rw [← begins]
      exact Narrows.canonical.source declared

theorem chart_cons {table : TransitionTable} {state : LifecycleState} {step : ProjectedStep} {rest : List ProjectedStep}
    {legs : List (LifecycleState × LifecycleState × ProjectedStep)}
    (charted : RunMachine.chart table state (step :: rest) = (legs, none)) :
    isTerminal state = false ∧ ∃ next others, table state step.kind = some next ∧
      RunMachine.chart table next rest = (others, none) ∧ legs = (state, next, step) :: others := by
  unfold RunMachine.chart at charted
  split at charted
  · cases charted
  next going =>
    split at charted
    · cases charted
    next next declared =>
      simp only [Prod.mk.injEq] at charted
      exact ⟨by simpa using going, next, _, declared, Prod.ext rfl charted.2, charted.1.symm⟩

/-- A chart leads from the state it was drawn from. -/
theorem chart_leads {table : TransitionTable} (narrows : Narrows table) {runId : String} {state : LifecycleState}
    {steps : List ProjectedStep} {legs : List (LifecycleState × LifecycleState × ProjectedStep)}
    (charted : RunMachine.chart table state steps = (legs, none)) (instants : List String) :
    ∃ final, Leads state (List.zipWith
      (fun (leg : LifecycleState × LifecycleState × ProjectedStep) instant =>
        (⟨runId, leg.1, leg.2.1, leg.2.2.kind, leg.2.2.cause, instant⟩ : TransitionEntry)) legs instants) final := by
  induction steps generalizing state legs instants with
  | nil => cases charted; exact ⟨state, by simp [Leads]⟩
  | cons step rest ih =>
    obtain ⟨_, next, others, declared, onward, rfl⟩ := chart_cons charted
    cases instants with
    | nil => exact ⟨state, rfl⟩
    | cons instant instants =>
      obtain ⟨final, leads⟩ := ih onward instants
      exact ⟨final, rfl, narrows _ _ _ declared, leads⟩

namespace RunMachine

/-- What follows from taking one declared transition. -/
def taken (machine : RunMachine) (entry : TransitionEntry) : RunMachine :=
  { machine with
    state := entry.target
    version := machine.version + 1
    transitionRecord := machine.transitionRecord ++ [entry] }

/-- A claim of this run and version takes a declared transition; every other attempt
leaves one rejection and nothing else. -/
theorem apply_cases (machine : RunMachine) (claim : WriteClaim) (kind : TransitionKind) (cause instant : String) :
    (∃ next, claim.version = machine.version ∧ isTerminal machine.state = false ∧
      machine.table machine.state kind = some next ∧
      machine.apply claim kind cause instant =
        (.advanced next ⟨machine.runId, machine.state, next, kind, cause, instant⟩,
          machine.taken ⟨machine.runId, machine.state, next, kind, cause, instant⟩)) ∨
    ((claim = machine.claim → isTerminal machine.state = true ∨ machine.table machine.state kind = none) ∧
      ∃ entry, machine.apply claim kind cause instant =
        (.rejected machine.state entry, { machine with rejections := machine.rejections ++ [entry] })) := by
  unfold apply
  split
  next foreign => exact .inr ⟨fun same => absurd (congrArg WriteClaim.runId same) foreign, _, rfl⟩
  · split
    next stale => exact .inr ⟨fun same => absurd (congrArg WriteClaim.version same) stale, _, rfl⟩
    next current =>
      split
      next terminated => exact .inr ⟨fun _ => .inl terminated, _, rfl⟩
      next going =>
        split
        next undeclared => exact .inr ⟨fun _ => .inr undeclared, _, rfl⟩
        next next declared => exact .inl ⟨next, by simpa using current, by simpa using going, declared, rfl⟩

/-- What is asked of a machine it takes, or it records one rejection and stands. -/
theorem advance_cases (machine : RunMachine) (kind : TransitionKind) (cause instant : String) :
    (∃ next, isTerminal machine.state = false ∧ machine.table machine.state kind = some next ∧
      machine.advance kind cause instant =
        (.advanced next ⟨machine.runId, machine.state, next, kind, cause, instant⟩,
          machine.taken ⟨machine.runId, machine.state, next, kind, cause, instant⟩)) ∨
    ((isTerminal machine.state = true ∨ machine.table machine.state kind = none) ∧
      ∃ entry, machine.advance kind cause instant =
        (.rejected machine.state entry, { machine with rejections := machine.rejections ++ [entry] })) := by
  rcases machine.apply_cases machine.claim kind cause instant with ⟨next, _, taken⟩ | ⟨why, refused⟩
  · exact .inl ⟨next, taken⟩
  · exact .inr ⟨why rfl, refused⟩

/-- A refused projection leaves no trace; a granted one is remembered. -/
theorem project_cases (machine : RunMachine) (steps : List ProjectedStep) (instants : List String) :
    (∃ kind source, machine.project steps instants = (.refused kind source, machine)) ∨
    ∃ legs, chart machine.table machine.state steps = (legs, none) ∧
      machine.project steps instants =
        (.projected ⟨machine.identity, machine.minted, List.zipWith
            (fun (leg : LifecycleState × LifecycleState × ProjectedStep) instant =>
              (⟨machine.runId, leg.1, leg.2.1, leg.2.2.kind, leg.2.2.cause, instant⟩ : TransitionEntry)) legs instants,
            machine.version⟩,
          { machine with minted := machine.minted + 1, projections := machine.minted :: machine.projections }) := by
  unfold project
  split
  next kind source _ => exact .inl ⟨kind, source, rfl⟩
  next legs charted => exact .inr ⟨legs, charted, rfl⟩

/-- Adopting a projection the machine remembers takes its entries and their last state. -/
theorem commitProjected_adopts {machine : RunMachine} {capability : CommitCapability}
    (remembered : machine.remembers capability = true) (current : capability.fromVersion = machine.version) :
    machine.commitProjected capability = (.ok (),
      { machine with
        projections := machine.projections.erase capability.serial
        transitionRecord := machine.transitionRecord ++ capability.entries
        state := (capability.entries.getLast?.map (·.target)).getD machine.state
        version := machine.version + capability.entries.length
        journaledTransitions := machine.journaledTransitions + capability.entries.length }) := by
  simp [commitProjected, remembered, current]

/-- What is not adopted spends the capability at most. -/
theorem commitProjected_cases (machine : RunMachine) (capability : CommitCapability) :
    (machine.remembers capability = true ∧ capability.fromVersion = machine.version) ∨
    ∃ message projections, machine.commitProjected capability = (.error message, { machine with projections }) := by
  cases remembered : machine.remembers capability with
  | false => exact .inr ⟨_, machine.projections, by simp [commitProjected, remembered]; rfl⟩
  | true =>
    by_cases current : capability.fromVersion = machine.version
    · exact .inl ⟨rfl, current⟩
    · exact .inr ⟨_, machine.projections.erase capability.serial, by simp [commitProjected, remembered, current]; rfl⟩

theorem project_table (machine : RunMachine) (steps : List ProjectedStep) (instants : List String) :
    (machine.project steps instants).2.table = machine.table := by
  rcases machine.project_cases steps instants with ⟨_, _, refused⟩ | ⟨_, _, projected⟩
  · rw [refused]
  · rw [projected]

theorem commitProjected_table (machine : RunMachine) (capability : CommitCapability) :
    (machine.commitProjected capability).2.table = machine.table := by
  rcases machine.commitProjected_cases capability with ⟨remembered, current⟩ | ⟨_, _, refused⟩
  · rw [commitProjected_adopts remembered current]
  · rw [refused]

end RunMachine

namespace MachineHistory

/-- The record leads to the state with one version for each entry, and whatever was
minted at the current version leads on from there. -/
structure Consistent (history : MachineHistory) : Prop where
  narrows : Narrows history.machine.table
  leads : Leads .requested history.machine.transitionRecord history.machine.state
  version : history.machine.version = history.machine.transitionRecord.length
  minted : ∀ capability ∈ history.minted, capability.fromVersion ≤ history.machine.version ∧
    (capability.fromVersion = history.machine.version → ∃ final, Leads history.machine.state capability.entries final)

/-- State, version and record are what they were. -/
def Unmoved (before after : MachineHistory) : Prop :=
  after.machine.state = before.machine.state ∧ after.machine.version = before.machine.version ∧
    after.machine.transitionRecord = before.machine.transitionRecord

/-- The record went on from the state, by at least one entry. -/
def Moved (before after : MachineHistory) : Prop :=
  ∃ entries final, entries ≠ [] ∧ Leads before.machine.state entries final ∧ after.machine.state = final ∧
    after.machine.version = before.machine.version + entries.length ∧
    after.machine.transitionRecord = before.machine.transitionRecord ++ entries

variable {history : MachineHistory}

private theorem apply_moves (narrows : Narrows history.machine.table) (claim : WriteClaim) (kind : TransitionKind)
    (cause instant : String) :
    ((history.machine.apply claim kind cause instant).1.moved = true → claim.version = history.machine.version ∧
      Moved history { history with machine := (history.machine.apply claim kind cause instant).2 }) ∧
    ((history.machine.apply claim kind cause instant).1.moved = false →
      Unmoved history { history with machine := (history.machine.apply claim kind cause instant).2 }) := by
  rcases history.machine.apply_cases claim kind cause instant with ⟨next, current, _, declared, taken⟩ | ⟨_, entry, refused⟩
  · rw [taken]
    refine ⟨fun _ => ⟨current, [⟨_, _, next, kind, cause, instant⟩], next, by simp,
      ⟨rfl, narrows _ _ _ declared, rfl⟩, rfl, rfl, rfl⟩, ?_⟩
    intro stands
    cases stands
  · rw [refused]
    refine ⟨?_, fun _ => ⟨rfl, rfl, rfl⟩⟩
    intro moves
    cases moves

private theorem commitProjected_moves (consistent : history.Consistent) {capability : CommitCapability}
    (known : history.Presentable capability) :
    let committed := history.machine.commitProjected capability
    (committed.1.isOk = true → capability.entries ≠ [] → capability.fromVersion = history.machine.version ∧
      Moved history { history with machine := committed.2 }) ∧
    ((committed.1.isOk && !capability.entries.isEmpty) = false → Unmoved history { history with machine := committed.2 }) := by
  intro committed
  rcases history.machine.commitProjected_cases capability with ⟨remembered, current⟩ | ⟨message, projections, refused⟩
  · have adopted := RunMachine.commitProjected_adopts remembered current
    have own : capability ∈ history.minted := known (by simp [RunMachine.remembers] at remembered; exact remembered.1)
    obtain ⟨final, leads⟩ := (consistent.minted capability own).2 current
    simp only [committed, adopted]
    refine ⟨fun _ some => ⟨current, capability.entries, final, some, leads, leads.last, rfl, rfl⟩, ?_⟩
    intro empty
    have none : capability.entries = [] := by simpa [Except.isOk, Except.toBool] using empty
    simp [Unmoved, none]
  · simp only [committed, refused]
    refine ⟨?_, fun _ => ⟨rfl, rfl, rfl⟩⟩
    intro granted
    cases granted

/-- An operation whose answer says the machine moved was taken at the current version
and extends the record; any other leaves the machine where it was. -/
theorem operate_moves (consistent : history.Consistent) (operation : MachineOperation) :
    (history.advances operation = true → history.takenAt operation = some history.machine.version ∧
      Moved history (history.operate operation)) ∧
    (history.advances operation = false → Unmoved history (history.operate operation)) := by
  cases operation with
  | apply claim kind cause instant =>
    have moves := apply_moves consistent.narrows claim kind cause instant
    exact ⟨fun moved => ⟨congrArg some (moves.1 moved).1, (moves.1 moved).2⟩, moves.2⟩
  | hold kind detail instant => exact ⟨fun never => (nomatch never), fun _ => ⟨rfl, rfl, rfl⟩⟩
  | advance kind cause instant =>
    have moves := apply_moves consistent.narrows history.machine.claim kind cause instant
    exact ⟨fun moved => ⟨rfl, (moves.1 moved).2⟩, moves.2⟩
  | project steps clock =>
    refine ⟨fun never => (nomatch never), fun _ => ?_⟩
    simp only [operate, projection]
    rcases history.machine.project_cases steps ((List.range steps.length).map clock) with
      ⟨kind, source, refused⟩ | ⟨legs, _, granted⟩
    · rw [refused]; exact ⟨rfl, rfl, rfl⟩
    · rw [granted]; exact ⟨rfl, rfl, rfl⟩
  | commitProjected capability =>
    by_cases known : history.Presentable capability
    · have moves := commitProjected_moves consistent known
      simp only [advances, operate, if_pos known, decide_eq_true known, Bool.true_and]
      refine ⟨fun moved => ?_, moves.2⟩
      simp only [Bool.and_eq_true, Bool.not_eq_true', List.isEmpty_eq_false_iff] at moved
      exact ⟨congrArg some (moves.1 moved.1 moved.2).1, (moves.1 moved.1 moved.2).2⟩
    · simp only [advances, operate, if_neg known]
      exact ⟨fun never => by simp [known] at never, fun _ => ⟨rfl, rfl, rfl⟩⟩

/-- What an operation leaves alone, and what it may mint. -/
theorem operate_minted (history : MachineHistory) (operation : MachineOperation) :
    (history.operate operation).machine.table = history.machine.table ∧
    ∀ capability ∈ (history.operate operation).minted, capability ∈ history.minted ∨
      history.advances operation = false ∧ capability.fromVersion = history.machine.version ∧
        (Narrows history.machine.table → ∃ final, Leads history.machine.state capability.entries final) := by
  cases operation with
  | apply claim kind cause instant =>
    refine ⟨?_, fun _ listed => .inl listed⟩
    rcases history.machine.apply_cases claim kind cause instant with ⟨next, _, _, _, taken⟩ | ⟨_, entry, refused⟩
    · simp [operate, taken, RunMachine.taken]
    · simp [operate, refused]
  | hold kind detail instant => exact ⟨rfl, fun _ listed => .inl listed⟩
  | advance kind cause instant =>
    refine ⟨?_, fun _ listed => .inl listed⟩
    rcases history.machine.advance_cases kind cause instant with ⟨next, _, _, taken⟩ | ⟨_, entry, refused⟩
    · simp [operate, taken, RunMachine.taken]
    · simp [operate, refused]
  | project steps clock =>
    simp only [operate, projection]
    rcases history.machine.project_cases steps ((List.range steps.length).map clock) with
      ⟨kind, source, refused⟩ | ⟨legs, charted, granted⟩
    · rw [refused]; exact ⟨rfl, fun _ listed => .inl listed⟩
    · rw [granted]
      refine ⟨rfl, fun capability listed => ?_⟩
      rcases List.mem_append.mp listed with listed | fresh
      · exact .inl listed
      · rw [List.mem_singleton.mp fresh]
        exact .inr ⟨rfl, rfl, fun narrows => chart_leads narrows charted _⟩
  | commitProjected capability =>
    simp only [operate]
    split
    · refine ⟨?_, fun _ listed => .inl listed⟩
      rcases history.machine.commitProjected_cases capability with ⟨remembered, current⟩ | ⟨message, projections, refused⟩
      · simp [RunMachine.commitProjected_adopts remembered current]
      · simp [refused]
    · exact ⟨rfl, fun _ listed => .inl listed⟩

theorem Consistent.operate (consistent : history.Consistent) (operation : MachineOperation) :
    (history.operate operation).Consistent := by
  have minting := history.operate_minted operation
  have moves := operate_moves consistent operation
  have narrows : Narrows (history.operate operation).machine.table := by rw [minting.1]; exact consistent.narrows
  cases moved : history.advances operation with
  | true =>
    obtain ⟨_, entries, final, some, leads, state, version, record⟩ := moves.1 moved
    have later : history.machine.version < (history.operate operation).machine.version := by
      rw [version]
      exact Nat.lt_add_of_pos_right (List.length_pos_iff.mpr some)
    refine ⟨narrows, ?_, ?_, ?_⟩
    · rw [record, state]; exact consistent.leads.append leads
    · rw [version, record, List.length_append, consistent.version]
    · intro capability listed
      rcases minting.2 capability listed with known | ⟨still, _⟩
      · have earlier := (consistent.minted capability known).1
        exact ⟨by omega, fun same => by omega⟩
      · rw [still] at moved; cases moved
  | false =>
    obtain ⟨state, version, record⟩ := moves.2 moved
    refine ⟨narrows, ?_, ?_, ?_⟩
    · rw [record, state]; exact consistent.leads
    · rw [version, record]; exact consistent.version
    · intro capability listed
      rw [version, state]
      rcases minting.2 capability listed with known | ⟨_, current, leads⟩
      · exact consistent.minted capability known
      · exact ⟨Nat.le_of_eq current, fun _ => leads consistent.narrows⟩

/-- Versions only go up. -/
theorem version_forward (consistent : history.Consistent) (operations : List MachineOperation) :
    history.machine.version ≤ (after operate history operations).machine.version := by
  refine growth_after Consistent (fun before after => before.machine.version ≤ after.machine.version)
    (fun _ => Nat.le_refl _) Nat.le_trans (fun _ operation kept => kept.operate operation) ?_ consistent operations
  intro state operation kept
  have moves := operate_moves kept operation
  cases moved : state.advances operation with
  | true =>
    obtain ⟨_, entries, final, _, _, _, version, _⟩ := moves.1 moved
    omega
  | false => exact Nat.le_of_eq (moves.2 moved).2.1.symm

/-- The machine under every sequence of operations: its record, its state, and what a
version can be used for. -/
theorem machine_invariant {supplied : Option SuppliedTable} {table : TransitionTable}
    (accepted : narrowingOnly supplied = .ok table) (identity : Nat) (runId : String) (operations : List MachineOperation) :
    let history := after operate ⟨{ identity, runId, table }, []⟩ operations
    let record := history.machine.transitionRecord
    (∀ first ∈ record.head?, first.source = .requested) ∧
    record.IsChain (fun entry next => entry.target = next.source ∧ isTerminal entry.target = false) ∧
    (∀ entry ∈ record, transitions entry.source entry.kind = some entry.target) ∧
    history.machine.state = (record.getLast?.map (·.target)).getD .requested ∧
    (∀ operation, history.advances operation = false → Unmoved history (history.operate operation)) ∧
    ∀ first between second, history.advances first = true →
      (after operate history (first :: between)).advances second = true →
      history.takenAt first ≠ (after operate history (first :: between)).takenAt second := by
  intro history record
  have consistent : history.Consistent := by
    refine invariant_after Consistent (fun _ operation kept => kept.operate operation) ?_ operations
    exact ⟨narrowingOnly_narrows accepted, rfl, rfl, fun _ absent => nomatch absent⟩
  refine ⟨consistent.leads.head, consistent.leads.chain, consistent.leads.declared, consistent.leads.last.symm, ?_, ?_⟩
  · intro operation
    exact (operate_moves consistent operation).2
  · intro first between second moved again
    have onward := consistent.operate first
    have later : (after operate history (first :: between)).Consistent :=
      invariant_after Consistent (fun _ operation kept => kept.operate operation) onward between
    obtain ⟨taken, entries, final, some, _, _, version, _⟩ := (operate_moves consistent first).1 moved
    have forward := version_forward onward between
    have grown := List.length_pos_iff.mpr some
    rw [taken, ((operate_moves later second).1 again).1]
    intro same
    have equal := Option.some.inj same
    rw [after_cons] at equal
    omega

/-- The canonical table is accepted, so the invariant holds of the machine a run has
by default. -/
theorem machine_invariant_canonical :
    narrowingOnly none = .ok transitions ∧
    ∀ entry ∈ (after operate ⟨{ identity := 0, runId := "run", table := transitions }, []⟩
      [.advance .resolveProfile "resolved" "now"]).machine.transitionRecord,
      transitions entry.source entry.kind = some entry.target :=
  ⟨rfl, (machine_invariant (show narrowingOnly none = .ok transitions from rfl) 0 "run" [.advance .resolveProfile "resolved" "now"]).2.2.1⟩

end MachineHistory

end SecureHome.Lifecycle
