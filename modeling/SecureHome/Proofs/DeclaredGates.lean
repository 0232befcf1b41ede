import SecureHome.Proofs.GatheredEvidence
import SecureHome.Core.Eligibility
import SecureHome.Orchestration.Fixtures

/-! Which gates a run can run. Declaredness is asked of a plain object, which answers
to names nobody declared in it. -/

namespace SecureHome.Orchestration
open Relation Lib Lifecycle Ports RunState Contracts Core Adapters

/-- The registry itself declares the gate. -/
def Declared (registry : GateRegistry) (gate : String) : Prop := (registry.gates.lookup gate).isSome

instance (registry : GateRegistry) (gate : String) : Decidable (Declared registry gate) :=
  inferInstanceAs (Decidable (_ = true))

/-- The dispositions a gate run recorded. -/
def GateRun.results : GateRun → GateResults
  | .passed results | .faulted _ results => results
  | .unknownGates _ | .staleFence _ => []

/-- Only declared gates are eligible, planned, and passed. -/
structure OnlyDeclared (snapshots : AuthoritySnapshots) (registry : GateRegistry) (requested : List String) : Prop where
  eligible : decideEligibility snapshots requested = .proceed () →
    requested.Nodup ∧ ∀ gate ∈ requested, Declared registry gate
  planned : ∀ plan, buildPlan registry requested = .ok plan →
    plan.map (·.1) = requested ∧
      ∀ entry ∈ plan, ∃ spec, registry.gates.lookup entry.1 = some spec ∧ entry.2 = .declared spec
  passed : ∀ (World : Type) (env : RunEnvironment World) (sessionRef : String) (start last : Attempt World) (ran : GateRun),
    env.request.gates = requested → runGates env registry sessionRef start = .ok ran last →
      ∀ entry ∈ ran.results, entry.2.disposition = .pass → Declared registry entry.1

/-- Every requested name is declared, or one of them is nothing the registry's object answers to. -/
def Unmistaken (registry : GateRegistry) (requested : List String) : Prop :=
  (∀ gate ∈ requested, Declared registry gate) ∨
    ∃ gate ∈ requested, ¬ Declared registry gate ∧ gate ∉ objectPrototypeNames

section Lookup

variable {registry : GateRegistry} {gate : String} {requested : List String}

theorem read_none : registry.read gate = none ↔ ¬ Declared registry gate ∧ gate ∉ objectPrototypeNames := by
  unfold GateRegistry.read Declared
  cases found : registry.gates.lookup gate with
  | some spec => simp
  | none => simp

theorem read_declared {spec : GateSpec} : registry.read gate = some (.declared spec) ↔
    registry.gates.lookup gate = some spec := by
  unfold GateRegistry.read
  cases found : registry.gates.lookup gate with
  | some other => simp
  | none =>
    simp

/-- A plan is built where the object answers to every name, with what it answers. -/
theorem buildPlan_ok {plan : List (String × GateEntry)} : buildPlan registry requested = .ok plan ↔
    (∀ gate ∈ requested, registry.read gate ≠ none) ∧
      plan = requested.filterMap fun gate => (registry.read gate).map (gate, ·) := by
  have known : (requested.filter fun gate => (registry.read gate).isNone).isEmpty = true ↔
      ∀ gate ∈ requested, registry.read gate ≠ none := by
    simp [List.isEmpty_iff, List.filter_eq_nil_iff]
  unfold buildPlan
  dsimp only
  split
  next empty => exact ⟨fun same => ⟨known.mp empty, by cases same; rfl⟩, fun built => by rw [built.2]⟩
  next full => exact ⟨(fun same => nomatch same), fun built => absurd (known.mpr built.1) full⟩

theorem decideEligibility_answers {snapshots : AuthoritySnapshots} {captured : Captured GateRegistry}
    (proceeds : decideEligibility { snapshots with gateRegistry := some captured } requested = .proceed ()) :
    ∀ gate ∈ requested, captured.value.read gate ≠ none := by
  unfold decideEligibility at proceeds
  split at proceeds
  · cases proceeds
  · cases proceeds
  · split at proceeds
    · cases proceeds
    · split at proceeds
      next none => intro gate listed; rw [none] at listed; cases listed
      · dsimp only at proceeds
        split at proceeds
        · cases proceeds
        next answered =>
          intro gate listed unanswered
          have always := List.find?_eq_none.mp answered gate listed
          rw [unanswered] at always
          exact always rfl

end Lookup

section Recorded

variable {World : Type} {env : RunEnvironment World} {start : Attempt World}

/-- What is recorded is recorded of a scheduled gate. -/
theorem record_scheduled {recorder recorded : DispositionRecorder} {gate : String} {outcome : GateOutcome}
    (done : recorder.record gate outcome = .ok recorded)
    (named : ∀ entry ∈ recorder.results, entry.1 ∈ recorder.scheduled) :
    recorded.scheduled = recorder.scheduled ∧ ∀ entry ∈ recorded.results, entry.1 ∈ recorded.scheduled := by
  unfold DispositionRecorder.record at done
  split at done
  · cases done
  next scheduled =>
    split at done
    · cases done
    · cases done
      refine ⟨rfl, fun entry listed => ?_⟩
      rcases List.mem_append.mp listed with earlier | only
      · exact named entry earlier
      · rw [List.mem_singleton.mp only]
        exact Decidable.of_not_not scheduled

theorem runPlan_scheduled (sessionRef : String) (recorder : DispositionRecorder) (plan : List (String × GateEntry))
    (named : ∀ entry ∈ recorder.results, entry.1 ∈ recorder.scheduled) :
    Runs (fun _ _ => True) (runPlan env sessionRef recorder plan) start
      (fun ran _ => ∀ entry ∈ ran.results, entry.1 ∈ recorder.scheduled) fun _ _ => True := by
  induction plan generalizing recorder start with
  | nil => exact Runs.pure named
  | cons planned rest ih =>
    refine Runs.get <| Runs.bind ((cross_ends env.ports _).weaken (fun _ _ _ _ => trivial) fun _ _ _ _ => trivial)
      fun report state _ _ => ?_
    split
    · exact Runs.pure fun _ absent => nomatch absent
    · split
      · exact Runs.pure named
      · split
        · exact Runs.pure named
        next recorded done =>
          obtain ⟨same, named⟩ := record_scheduled done named
          refine Runs.midway (fun _ _ => True) (modifyScope_runs trivial trivial) fun _ _ _ _ => ?_
          rw [← same]
          exact ih recorded named

/-- A gate run records dispositions of requested gates, and none where a name is unknown. -/
theorem runGates_scheduled (registry : GateRegistry) (sessionRef : String) :
    Runs (fun _ _ => True) (runGates env registry sessionRef) start
      (fun ran _ => ∀ entry ∈ ran.results, entry.1 ∈ env.request.gates ∧
        ∀ gate ∈ env.request.gates, registry.read gate ≠ none) fun _ _ => True := by
  unfold runGates
  split
  next => exact Runs.pure fun _ absent => nomatch absent
  next plan planned =>
    have names : plan.map (·.1) = env.request.gates := buildPlan_names planned
    refine (runPlan_scheduled sessionRef ⟨plan.map (·.1), []⟩ plan fun _ absent => nomatch absent).weaken
      (fun ran _ _ held entry listed => ?_) fun _ _ _ _ => trivial
    exact ⟨names ▸ held entry listed, (buildPlan_ok.mp planned).1⟩

end Recorded

/-- Only declared gates run exactly where no requested name is mistaken for a declared one. -/
theorem only_declared_iff (snapshots : AuthoritySnapshots) (captured : Captured GateRegistry) (requested : List String) :
    OnlyDeclared { snapshots with gateRegistry := some captured } captured.value requested ↔
      Unmistaken captured.value requested := by
  constructor
  · intro only
    by_cases unknown : ∃ gate ∈ requested, captured.value.read gate = none
    · obtain ⟨gate, listed, unanswered⟩ := unknown
      exact .inr ⟨gate, listed, read_none.mp unanswered⟩
    · refine .inl fun gate listed => ?_
      have answered : ∀ gate ∈ requested, captured.value.read gate ≠ none := by simpa using unknown
      obtain ⟨entry, read⟩ := Option.ne_none_iff_exists'.mp (answered gate listed)
      have planned := (only.planned _ (buildPlan_ok.mpr ⟨answered, rfl⟩)).2 (gate, entry)
        (List.mem_filterMap.mpr ⟨gate, listed, by rw [read]; rfl⟩)
      obtain ⟨spec, found, _⟩ := planned
      exact Option.isSome_iff_exists.mpr ⟨spec, found⟩
  · rintro (declared | ⟨gate, listed, unanswered⟩)
    · refine ⟨fun proceeds => ⟨decideEligibility_distinct proceeds, declared⟩, fun plan planned => ?_,
        fun World env sessionRef start last ran asked ended entry listed _ => ?_⟩
      · refine ⟨buildPlan_names planned, fun entry member => ?_⟩
        rw [(buildPlan_ok.mp planned).2] at member
        obtain ⟨gate, listed, read⟩ := List.mem_filterMap.mp member
        obtain ⟨spec, found⟩ := Option.isSome_iff_exists.mp (declared gate listed)
        rw [read_declared.mpr found] at read
        cases read
        exact ⟨spec, found, rfl⟩
      · have scheduled := @runGates_scheduled _ env start captured.value sessionRef
        rw [Runs, ended] at scheduled
        exact declared _ (asked ▸ (scheduled.2 entry listed).1)
    · have unknown : captured.value.read gate = none := read_none.mpr unanswered
      refine ⟨fun proceeds => absurd unknown (decideEligibility_answers proceeds gate listed),
        fun plan planned => absurd unknown ((buildPlan_ok.mp planned).1 gate listed),
        fun World env sessionRef start last ran asked ended entry recorded _ => ?_⟩
      have scheduled := @runGates_scheduled _ env start captured.value sessionRef
      rw [Runs, ended] at scheduled
      exact absurd unknown ((scheduled.2 entry recorded).2 gate (asked.symm ▸ listed))

/-- A registry that declares `lint`, beside the other fixture documents. -/
def declaredSnapshots : AuthoritySnapshots where
  profile := some (documents .profile)
  pathPolicy := some (documents .pathPolicy)
  gateRegistry := some (documents .gateRegistry)

/-- `constructor` is a gate name, and every object has a property of that name. -/
theorem constructor_gate_runs :
    decideEligibility declaredSnapshots ["constructor"] = .proceed () ∧
      buildPlan registryDocument ["constructor"] = .ok [("constructor", .inherited "constructor")] ∧
      ¬ OnlyDeclared declaredSnapshots registryDocument ["constructor"] := by
  have proceeds : decideEligibility declaredSnapshots ["constructor"] = .proceed () := rfl
  refine ⟨proceeds, by decide, fun only => ?_⟩
  have declared := (only.eligible proceeds).2 "constructor" (List.mem_singleton.mpr rfl)
  exact absurd declared (by decide)

end SecureHome.Orchestration
