import SecureHome.Orchestration.Fixtures
import SecureHome.Proofs.RunFrames

/-! What an attempt still does once it knows it lost its run: nothing but give its
own lease back, unless the seal gate let the loss through. -/

namespace SecureHome.Orchestration
open Relation Lib Lifecycle Ports RunState Contracts Core Adapters

variable {World : Type} {outside : Surroundings World} {env : RunEnvironment World} {before after : Attempt World}

/-- What a happening may say of the loss: no call is made under it, and a transition
is entered under it only past a seal gate that was told of it. -/
def Warranted (log : List Happening) : Happening → Prop
  | .issued _ lost _ => lost = false
  | .entered _ lost => lost = false ∨ .gated true ∈ log
  | _ => True

theorem Warranted.mono {log more : List Happening} {happening : Happening} (warranted : Warranted log happening)
    (grown : log <+: more) : Warranted more happening := by
  cases happening with
  | entered entry lost => exact warranted.imp id fun gated => grown.subset gated
  | issued | barred | answered | gated | incomplete => exact warranted

/-- Every act is warranted. -/
theorem Act.warranted (step : Act outside before after) {happening : Happening} (listed : happening ∈ after.log) :
    happening ∈ before.log ∨ Warranted before.log happening := by
  refine (step.told listed).imp id fun told => ?_
  cases told with
  | passing passing => cases passing <;> trivial
  | took going source declared owned => exact owned.imp (fun owned => by simp [owned]) id
  | adopted => exact .inl rfl
  | gated | incomplete => trivial

/-- A run's acts, read from where its scope began. -/
theorem walked_traced {request : RunRequest} {controls : RunControls} {generation : Nat} {startedAt : String}
    {walked : Attempt World} (unwalked : ∀ happening ∈ before.log, Unwalked happening)
    (acts : ReflTransGen (Act outside) { before with scope := beginning request controls generation startedAt } walked) :
    Traced walked ∧ walked.scope.fence = ⟨request.runId, generation⟩ ∧
      ∀ happening ∈ walked.log, Warranted walked.log happening := by
  induction acts with
  | refl =>
    refine ⟨⟨(fun _ absent => nomatch absent), rfl⟩, rfl, fun happening listed => ?_⟩
    have quiet := unwalked happening listed
    cases happening with
    | issued => exact quiet.1
    | entered => exact quiet.elim
    | barred | answered | gated | incomplete => trivial
  | tail _ step ih =>
    obtain ⟨traced, fence, warranted⟩ := ih
    refine ⟨step.traced traced, step.fence.trans fence, fun happening listed => ?_⟩
    rcases step.warranted listed with earlier | fresh
    · exact (warranted happening earlier).mono step.logs
    · exact fresh.mono step.logs

/-- Once an attempt knows it lost its run, the one call it still makes is to give its
own lease back. -/
theorem silent_after_loss (env : RunEnvironment World) (world : World) :
    ∃ conclusion last, run env (unclaimed env.request world) = .ok conclusion last ∧
      ∀ call ending, .issued call true ending ∈ last.log → call = .release last.scope.fence := by
  obtain ⟨conclusion, last, ran, ⟨_, unwalked⟩ | ⟨generation, startedAt, before, walked, unwalked, acts, _, released⟩⟩ :=
    run_resolves env world
  · refine ⟨conclusion, last, ran, fun call ending listed => ?_⟩
    have known := (unwalked _ listed).1
    cases known
  · refine ⟨conclusion, last, ran, fun call ending listed => ?_⟩
    obtain ⟨_, fence, warranted⟩ := walked_traced unwalked acts
    rw [Traffic.scopes released, fence]
    rcases Traffic.issueds released listed with earlier | ⟨_, same⟩
    · have known : true = false := warranted _ earlier
      cases known
    · exact same

/-- Unless a seal gate was told of a loss, no transition is entered once one is known:
whatever the conclusion reports was entered while the run was still owned. -/
theorem still_after_loss (env : RunEnvironment World) (world : World) :
    ∃ conclusion last, run env (unclaimed env.request world) = .ok conclusion last ∧
      (.gated true ∉ last.log →
        (∀ entry, .entered entry true ∉ last.log) ∧
        (∀ entry ∈ conclusion.transitions, .entered entry false ∈ last.log) ∧
        conclusion.state = (conclusion.transitions.getLast?.map (·.target)).getD .requested) := by
  obtain ⟨conclusion, last, ran, ⟨⟨detail, rfl⟩, unwalked⟩ |
    ⟨generation, startedAt, before, walked, unwalked, acts, reported, released⟩⟩ := run_resolves env world
  · refine ⟨_, last, ran, fun _ => ⟨fun entry entered => ?_, (fun _ absent => nomatch absent), rfl⟩⟩
    exact unwalked _ entered
  · refine ⟨conclusion, last, ran, fun ungated => ?_⟩
    obtain ⟨traced, _, warranted⟩ := walked_traced unwalked acts
    have back {entry : TransitionEntry} {lost : Bool} (entered : .entered entry lost ∈ last.log) : lost = false := by
      have known : lost = false ∨ .gated true ∈ walked.log := warranted _ (Traffic.uncalled released entered (by rintro _ _ _ ⟨⟩))
      exact known.resolve_right fun gated => ungated ((Traffic.logs released).subset gated)
    obtain ⟨transitions, state⟩ := reported.machine
    refine ⟨fun entry entered => ?_, fun entry listed => ?_, ?_⟩
    · cases back entered
    · obtain ⟨lost, entered⟩ := traced.entered entry (transitions ▸ listed)
      have entered := (Traffic.logs released).subset entered
      rwa [back entered] at entered
    · rw [state, transitions]
      exact traced.stands

/-- A journal that is out of reach for the run's first transition, and by the next
append belongs to another holder. -/
def lateFence : Surroundings Bool := portsWith fun
  | .append _ _ (.transition _), false => some (.threw "the journal is unavailable", true)
  | .append fence _ (.transition _), true =>
    some (.settled (.refused .staleFence s!"generation {fence.generation} is stale"), true)
  | _, _ => none

/-- A request the core refuses once its authority is captured. -/
def undeclaredRequest : RunRequest := { fixtureRequest with gates := ["coverage"] }

/-- Ownership is lost, and a terminal was entered behind the loss. -/
def lateEnded : Ended (environment lateFence fixtureCore undeclaredRequest {}) false (fun conclusion last =>
    conclusion.kind == .ownershipLost && last.log.any fun
      | .entered entry true => isTerminal entry.target && conclusion.state == entry.target
      | _ => false) :=
  ⟨by decide +kernel⟩

/-- `finish` lands the journal, learns there that the run is another holder's, and
still takes a terminal. -/
theorem enters_after_loss :
    ∃ conclusion last, run (environment lateFence fixtureCore undeclaredRequest {}) (unclaimed undeclaredRequest false) =
        .ok conclusion last ∧ conclusion.kind = .ownershipLost ∧
      ∃ entry, .entered entry true ∈ last.log ∧ isTerminal entry.target = true ∧ conclusion.state = entry.target := by
  obtain ⟨conclusion, last, ran, checked⟩ := endsWith_iff.mp lateEnded.ends
  simp only [Bool.and_eq_true, beq_iff_eq, List.any_eq_true] at checked
  obtain ⟨kind, happening, listed, entered⟩ := checked
  refine ⟨conclusion, last, ran, kind, ?_⟩
  split at entered
  next entry =>
    simp only [Bool.and_eq_true, beq_iff_eq] at entered
    exact ⟨entry, listed, entered⟩
  · cases entered

end SecureHome.Orchestration
