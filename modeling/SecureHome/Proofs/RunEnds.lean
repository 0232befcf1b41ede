import SecureHome.Proofs.Walk

/-! Every run resolves: what it did from its claim on is acts, and its conclusion is
read off where they led. -/

namespace SecureHome.Orchestration
open Relation Lib Lifecycle Ports RunState Contracts Core Adapters

variable {World Value : Type} {outside : Surroundings World} {env : RunEnvironment World} {start : Attempt World}

/-- What a walk's outcome says of the attempt. The last phase never earns, so a walk
only falls off its end where a loss is known. -/
def Walked (runId : String) (outcome : WalkOutcome) (state : Attempt World) : Prop :=
  match outcome with
  | .terminated conclusion => Concluded runId conclusion state
  | .walked => state.scope.fenceLost.isSome = true
  | _ => True

/-- What a phase hands on: it survives a transition and a journal tick, unless the
tick learns of a loss. -/
structure Carried (outside : Surroundings World) (holds : Attempt World → Prop) : Prop where
  owned : ∀ state, holds state → state.scope.fenceLost = none
  quiets : ∀ before after, holds before → ReflTransGen (Quiet outside) before after → after.scope.fenceLost = none →
    holds after
  advances : ∀ state kind cause instant, holds state → holds (state.advance kind cause instant).2

theorem Carried.fresh : Carried outside Fresh where
  owned _ fresh := fresh.owned
  quiets _ _ fresh steps owned := fresh.quiets steps owned
  advances state kind cause instant fresh := by
    refine ⟨fresh.owned, fresh.going, fresh.workspace, fresh.session, fun call lost ending acquiring listed => ?_⟩
    simp only [Attempt.advance] at listed
    split at listed
    · exact fresh.unasked call lost ending acquiring (by simpa using listed)
    · exact fresh.unasked call lost ending acquiring listed

theorem Carried.going : Carried outside Going where
  owned _ going := going.owned
  quiets _ _ going steps owned := going.quiets steps owned
  advances _ _ _ _ going := ⟨going.owned, going.going⟩

theorem Carried.never : Carried outside fun _ => False where
  owned _ never := never.elim
  quiets _ _ never _ _ := never
  advances _ _ _ _ never := never

/-- At a phase boundary the attempt is dispossessed, or as the next phase needs it. -/
def AtPhase (needs : Attempt World → Prop) (state : Attempt World) : Prop :=
  state.scope.fenceLost.isSome = true ∨ needs state

theorem beforePhase_runs {needs : Attempt World → Prop} (carried : Carried env.outside needs) (ready : AtPhase needs start)
    (phase : String) :
    Runs (Act env.outside) (beforePhase env phase) start
      (fun refused state => refused = none → needs state) Kept := by
  refine Runs.get ?_
  dsimp only
  split
  next => exact Runs.pure fun none => absurd none (Option.some_ne_none _)
  next owned =>
    have held : needs start := ready.resolve_left (by simp [owned])
    refine Runs.bind ((quiet_runs (ordinary_runs env.ports fun ready same => ?_)).loosen ?_)
      fun renewed state _ heard => ?_
    · simpa only [Ordinary, same] using owned
    · exact fun _ _ stopped => Kept.still stopped.2 owned
    · split
      · exact Runs.pure fun _ => carried.quiets _ _ held heard.1 (by rw [heard.2.1]; exact owned)
      · exact Runs.pure fun none => absurd none (Option.some_ne_none _)

/-- One phase, then the rest of the walk. -/
theorem walkPhases_runs {phase : Phase World} {rest : List (Phase World)} {needs earned : Attempt World → Prop}
    (carries : Carried env.outside needs) (carried : Carried env.outside earned) (ready : AtPhase needs start)
    (runs : ∀ state, needs state → Runs (Act env.outside) phase.run state
      (Phased env.request.runId earned fun state => state.scope.fenceLost = none) Kept)
    (onward : ∀ state, AtPhase earned state →
      Runs (Act env.outside) (walkPhases env rest) state (Walked env.request.runId) Kept) :
    Runs (Act env.outside) (walkPhases env (phase :: rest)) start (Walked env.request.runId) Kept := by
  refine Runs.bind (beforePhase_runs carries ready phase.name) fun refused state _ asked => ?_
  split
  next => exact Runs.pure trivial
  next =>
    refine Runs.bind (runs state (asked rfl)) fun outcome state _ phased => ?_
    split
    next conclusion => exact Runs.pure phased
    next detail =>
      refine Runs.midway (fun _ _ => True) ?_ fun _ _ _ _ => ?_
      · refine Runs.get <| Runs.bind (((safeNow_idles _).runs Passes.act).loosen fun _ _ thrown => thrown.1.elim)
          fun instant ready _ _ => Runs.modify (.holds phase.earns detail instant) trivial
      · exact Runs.bind ((quiet_runs (flushJournal_runs env.ports)).loosen fun _ _ stopped => stopped.2.2)
          fun _ _ _ _ => Runs.pure trivial
    next cause _ =>
      have owned := carried.owned _ phased
      refine Runs.bind (advance_runs phase.earns cause (.inl owned)).certain fun applied state _ advanced => ?_
      obtain ⟨instant, ready, passed, rfl, rfl⟩ := advanced
      have kept : earned ready := carried.quiets _ _ phased (.single passed.quiet) (by rw [passed.scope]; exact owned)
      refine Runs.bind ((quiet_runs (flushJournal_runs env.ports)).loosen fun _ _ stopped => stopped.2.2)
        fun _ flushed _ flush => ?_
      split
      next => exact Runs.pure trivial
      next =>
        refine onward flushed ?_
        cases lost : flushed.scope.fenceLost with
        | some detail => exact .inl (by simp [lost])
        | none => exact .inr (carried.quiets _ _ (carried.advances _ _ _ _ kept) flush.1 lost)

section Phases

variable {earned held : Attempt World → Prop} {Next : Type}

theorem establish_runs (established : EstablishedRun) {post : Attempt World → Prop}
    (holds : post { start with scope := { start.scope with established } }) :
    Runs (Act outside) (establish established) start (fun _ => post) Kept :=
  modifyScope_runs (.alters (.establishes _ established)) holds

/-- What a phase established is kept without touching what it hands on. -/
theorem establishing_runs {phase : Procedure World (PhaseOutcome Next)} {established : Next → EstablishedRun}
    (runs : Runs (Act env.outside) phase start (Phased env.request.runId earned fun _ => False) Kept)
    (keeps : ∀ (state : Attempt World) established, earned state →
      earned { state with scope := { state.scope with established } }) :
    Runs (Act env.outside) (establishing phase established) start
      (Phased env.request.runId earned fun state => state.scope.fenceLost = none) Kept := by
  refine Runs.bind runs fun outcome state _ phased => ?_
  split
  next => exact Runs.pure phased
  next => exact phased.elim
  next cause next =>
    exact Runs.bind (establish_runs (established next) (keeps state _ phased)) fun _ _ _ kept => Runs.pure kept

theorem Phased.loosen {procedure : Procedure World (PhaseOutcome Next)} {runId : String}
    (runs : Runs (Act outside) procedure start (Phased runId earned fun _ => False) Kept) :
    Runs (Act outside) procedure start (Phased runId earned held) Kept :=
  runs.weaken (fun outcome _ _ phased => match outcome, phased with
    | .terminate _, concluded => concluded
    | .earned _ _, earns => earns
    | .hold _, never => never.elim) fun _ _ _ kept => kept

theorem withAuthority_runs (phase : String) {run : Authority → Procedure World PhaseCommand}
    (runs : ∀ authority, Runs (Act env.outside) (run authority) start (Phased env.request.runId earned held) Kept) :
    Runs (Act env.outside) (withAuthority env phase run) start (Phased env.request.runId earned held) Kept := by
  refine Runs.get ?_
  split
  · exact terminates (terminateEarly_runs _ EndsRun.indeterminate)
  · exact runs _
  · exact runs _

end Phases

/-- The declared walk, from an attempt that has asked for nothing. -/
theorem phases_run (fresh : Fresh start) :
    Runs (Act env.outside) (walkPhases env (phases env)) start (Walked env.request.runId) Kept := by
  refine walkPhases_runs Carried.fresh Carried.fresh (.inr fresh) (fun state fresh => ?_) fun state ready => ?_
  · exact establishing_runs (requested_runs fresh) fun _ _ fresh =>
      ⟨fresh.owned, fresh.going, fresh.workspace, fresh.session, fresh.unasked⟩
  refine walkPhases_runs Carried.fresh Carried.fresh ready (fun state fresh => ?_) fun state ready => ?_
  · exact withAuthority_runs _ fun authority => Phased.loosen (profileResolved_runs authority fresh)
  refine walkPhases_runs Carried.fresh Carried.going ready (fun state fresh => ?_) fun state ready => ?_
  · exact withAuthority_runs _ fun authority => eligible_runs authority fresh
  refine walkPhases_runs Carried.going Carried.going ready (fun state going => ?_) fun state ready => ?_
  · exact withAuthority_runs _ fun authority => Phased.loosen (sandboxStarted_runs authority going)
  refine walkPhases_runs Carried.going Carried.going ready (fun state going => ?_) fun state ready => ?_
  · exact withAuthority_runs _ fun authority => establishing_runs (running_runs authority going) fun _ _ going =>
      ⟨going.owned, going.going⟩
  refine walkPhases_runs Carried.going Carried.never ready (fun state going => Runs.get ?_) fun state ready => ?_
  · split
    · exact Phased.loosen (verifying_runs _ _ going)
    · exact terminates (terminateEarly_runs _ EndsRun.indeterminate)
  · exact Runs.pure (ready.resolve_right id)

theorem terminateFromRejection_runs (phase : String) (rejection : RejectionEntry) :
    Runs (Act env.outside) (terminateFromRejection env phase rejection) start
      (fun conclusion state => Concluded env.request.runId conclusion state) Kept := by
  refine Runs.get ?_
  dsimp only
  split
  · split
    · exact terminateEarly_runs _ EndsRun.operationalFault
    · exact finish_runs _ _ _ (.inl rfl)
    · exact finish_runs _ _ _ (.inl rfl)
  · exact terminateEarly_runs _ EndsRun.operationalFault

/-- A hold is noted before the run is reported as waiting on it. -/
theorem concludeWalk_runs (outcome : WalkOutcome) (walked : Walked env.request.runId outcome start) :
    Runs (Act env.outside) (concludeWalk env outcome) start
      (fun conclusion state => Reported env.request.runId conclusion state) fun _ _ => True := by
  unfold concludeWalk
  split
  next conclusion => exact Runs.pure (.concluded walked)
  next detail =>
    refine Runs.bind (((clockNow_idles _).runs Passes.act).loosen fun _ _ _ => trivial) fun instant clocked _ _ => ?_
    refine Runs.midway (fun _ state => ∃ hold, Noted state (.hold hold))
      (modifyScope_runs (.quiet (.records _ fun _ same => by cases same)) ?_) fun _ recorded _ noted => ?_
    · exact ⟨_, .inl ⟨_, List.mem_append_right _ (.head _), rfl⟩⟩
    refine Runs.bind ((quiet_runs (flushJournal_runs env.ports)).loosen fun _ _ _ => trivial) fun _ flushed _ flush => ?_
    have accountable : Accountable recorded := .inr (.inr (.inr noted))
    exact (conclude_runs detail (accountable.quiets flush.1) (.inl rfl)).weaken
      (fun _ _ _ concluded => .concluded concluded) fun _ _ _ _ => trivial
  next phase reason =>
    refine Runs.midway (fun _ state => state.scope.fenceLost.isSome = true)
      (modifyScope_runs (.quiet (.loses reason)) ?_) fun _ lost _ known => ?_
    · cases start.scope.fenceLost <;> simp [RunScope.loseFence]
    refine Runs.bind (release_runs env.ports).certain fun _ released _ same => ?_
    refine Runs.bind ((disarm_idles.runs Passes.act).loosen fun _ _ _ => trivial) fun _ _ _ passed => Runs.get ?_
    exact Runs.pure (.lost (by rw [passed.scope, same]; exact known) rfl rfl rfl)
  next phase rejection =>
    exact (terminateFromRejection_runs phase rejection).weaken (fun _ _ _ concluded => .concluded concluded)
      fun _ _ _ _ => trivial
  next =>
    exact (conclude_lost _ walked).weaken (fun _ _ _ concluded => .concluded concluded) fun _ _ _ _ => trivial

theorem walk_runs (fresh : Fresh start) :
    Runs (Act env.outside) (walk env) start (fun conclusion state => Reported env.request.runId conclusion state)
      fun _ _ => True := by
  refine Runs.midway (Sum.elim (Walked env.request.runId) fun _ state => state.scope.fenceLost = none)
    (Runs.rescued (Kept) (Runs.map ((phases_run fresh).weaken (fun _ _ _ walked => walked) fun _ _ _ kept => kept))
      fun failure state _ kept => ?_) fun outcome state _ held => ?_
  · split
    · exact Runs.pure kept
    · exact Runs.throw trivial
  · split
    · exact concludeWalk_runs _ held
    · exact (settleInterrupt_runs _ held).certain

/-- The scope a run begins with. -/
def beginning (request : RunRequest) (controls : RunControls) (generation : Nat) (startedAt : String) : RunScope :=
  { fence := ⟨request.runId, generation⟩
    machine :=
      { runId := request.runId
        table := match narrowingOnly controls.transitions with | .ok table => table | .error _ => transitions }
    startedAt
    outbox := ⟨s!"{request.runId}#g{generation}", [], 0⟩ }

theorem beginning_narrows {request : RunRequest} {controls : RunControls} {generation : Nat} {startedAt : String} :
    Narrows (beginning request controls generation startedAt).machine.table := by
  simp only [beginning]
  split
  next accepted => exact narrowingOnly_narrows accepted
  · exact Narrows.canonical

/-- The two calls about a claim, before a run is owned and when it never is. -/
def aboutClaim : Call → Bool
  | .claim .. | .abandon .. => true
  | _ => false

/-- Nothing of the walk is on the log yet: only calls about the claim, and no loss known. -/
def Unwalked (happening : Happening) : Prop :=
  match happening with
  | .issued call lost _ => lost = false ∧ aboutClaim call = true
  | .barred _ => True
  | .answered call _ => aboutClaim call = true
  | _ => False

theorem unwalked_traffic {before after : Attempt World} {permitted : Attempt World → Call → Prop}
    (steps : ReflTransGen (Traffic outside permitted) before after) (owned : before.scope.fenceLost = none)
    (claims : ∀ ready call, permitted ready call → aboutClaim call = true)
    (unwalked : ∀ happening ∈ before.log, Unwalked happening) : ∀ happening ∈ after.log, Unwalked happening := by
  induction steps with
  | refl => exact unwalked
  | tail earlier step ih =>
    intro happening listed
    have known := (Traffic.scopes earlier)
    cases step with
    | passes passed => exact ih happening (by rw [← passed.log]; exact listed)
    | issues allowed =>
      simp only [Attempt.issue, List.mem_append, List.mem_singleton] at listed
      rcases listed with listed | rfl
      · exact ih happening listed
      · exact ⟨by simp [known, owned], claims _ _ allowed⟩
    | bars call =>
      simp only [List.mem_append, List.mem_singleton] at listed
      rcases listed with listed | rfl
      · exact ih happening listed
      · trivial
    | hears issued =>
      simp only [List.mem_append, List.mem_singleton] at listed
      rcases listed with listed | rfl
      · exact ih happening listed
      · obtain ⟨lost, made⟩ := issued
        exact (ih _ made).2

/-- A run that owned a generation: its scope began, its walk was acts up to what it
reported, and last it gave its own lease back. -/
def Walks (env : RunEnvironment World) (generation : Nat) (conclusion : RunConclusion) (last : Attempt World) : Prop :=
  ∃ startedAt, ∃ before walked : Attempt World, (∀ happening ∈ before.log, Unwalked happening) ∧
    ReflTransGen (Act env.outside) { before with scope := beginning env.request env.controls generation startedAt } walked ∧
    Reported env.request.runId conclusion walked ∧
    ReflTransGen (Traffic env.outside fun _ call => call = .release ⟨env.request.runId, generation⟩) walked last

theorem walkOwned_runs (generation : Nat) (unwalked : ∀ happening ∈ start.log, Unwalked happening) :
    Runs (fun _ _ => True) (walkOwned env generation) start
      (fun conclusion walked => ∃ startedAt before, Passes env.outside start before ∧
        ReflTransGen (Act env.outside) { before with scope := beginning env.request env.controls generation startedAt } walked ∧
        Reported env.request.runId conclusion walked)
      fun _ _ => False := by
  refine Runs.bind (((safeNow_idles _).runs fun _ => trivial).loosen fun _ _ thrown => thrown.1)
    fun startedAt before _ passed => ?_
  refine Runs.midway (fun _ (begun : Attempt World) => begun =
      { before with scope := beginning env.request env.controls generation startedAt })
    (modifyScope_runs trivial rfl) fun _ begun _ begins => ?_
  have fresh : Fresh begun := by
    subst begins
    refine ⟨rfl, rfl, rfl, rfl, fun call lost ending acquiring listed => ?_⟩
    have about : aboutClaim call = true := (unwalked (.issued call lost ending) (passed.log ▸ listed)).2
    cases call <;> simp [acquires, aboutClaim] at acquiring about
  have tells {procedure : Procedure World RunConclusion}
      (walks : Runs (Act env.outside) procedure begun (fun conclusion walked => Reported env.request.runId conclusion walked)
        fun _ _ => False) :
      Runs (fun _ _ => True) procedure begun (fun conclusion walked => ∃ startedAt before, Passes env.outside start before ∧
        ReflTransGen (Act env.outside) { before with scope := beginning env.request env.controls generation startedAt } walked ∧
        Reported env.request.runId conclusion walked) fun _ _ => False :=
    walks.traced.weaken (fun _ _ _ walked => ⟨startedAt, before, passed, begins ▸ walked.1, walked.2⟩)
      fun _ _ _ never => never.2
  split
  · exact tells (recoverRun_runs _)
  · exact tells (Runs.recovers (walk_runs fresh) fun failure _ _ _ => recoverRun_runs _)

theorem abandonClaim_runs (attemptId : String) :
    Runs (Traffic env.outside fun _ call => aboutClaim call = true) (abandonClaim env attemptId) start
      (fun _ _ => True) fun _ _ => False := by
  refine Runs.bind ((settlement_idles.runs .passes).loosen fun _ _ thrown => thrown.1) fun ports _ _ _ => ?_
  refine swallow_runs (Runs.midway (fun _ _ => True) ?_ fun _ _ _ _ => Runs.pure trivial)
  exact Runs.weaken (cross_runs ports fun _ _ => by rfl) (fun _ _ _ _ => trivial) fun _ _ _ _ => trivial

theorem releaseLease_runs (generation : Nat) :
    Runs (Traffic env.outside fun _ call => call = .release ⟨env.request.runId, generation⟩) (releaseLease env generation) start
      (fun _ _ => True) fun _ _ => False := by
  refine swallow_runs (Runs.bind ((settlement_idles.runs .passes).weaken (fun _ _ _ _ => trivial) fun _ _ _ _ => trivial)
    fun ports _ _ _ => Runs.midway (fun _ _ => True) ?_ fun _ _ _ _ => Runs.pure trivial)
  exact Runs.weaken (cross_runs ports fun _ _ => by rfl) (fun _ _ _ _ => trivial) fun _ _ _ _ => trivial

theorem claiming_runs (attemptId : String) :
    Runs (Traffic env.outside fun _ call => aboutClaim call = true) (claiming env attemptId) start (fun _ _ => True)
      fun _ _ => False := by
  refine Runs.rescued (fun _ _ => True) (Runs.map (Runs.weaken (cross_runs .run fun _ _ => by rfl)
    (fun _ _ _ _ => trivial) fun _ _ _ _ => trivial)) fun _ _ _ _ => Runs.pure trivial

/-- What holds of a run that never started and of any that owns a generation holds of every run. -/
theorem run_rule (env : RunEnvironment World) (world : World) {post : RunConclusion → Attempt World → Prop}
    (refused : ∀ detail last, (∀ happening ∈ last.log, Unwalked happening) → post (unstarted env.request.runId detail) last)
    (owned : ∀ generation start, (∀ happening ∈ start.log, Unwalked happening) →
      Runs (fun _ _ => True) (tryFinally (walkOwned env generation) (releaseLease env generation)) start post
        fun _ _ => False) :
    ∃ conclusion last, run env (unclaimed env.request world) = .ok conclusion last ∧ post conclusion last := by
  let Claims : Attempt World → Attempt World → Prop := Traffic env.outside fun _ call => aboutClaim call = true
  let Claimed : Attempt World → Prop := ReflTransGen Claims (unclaimed env.request world)
  have unwalked {claimed : Attempt World} (steps : Claimed claimed) : ∀ happening ∈ claimed.log, Unwalked happening :=
    unwalked_traffic steps rfl (fun _ _ about => about) fun _ absent => nomatch absent
  have onward {Value : Type} {procedure : Procedure World Value} {state : Attempt World} (claimed : Claimed state)
      (runs : Runs Claims procedure state (fun _ _ => True) fun _ _ => False) :
      Runs (fun _ _ => True) procedure state (fun _ last => Claimed last) fun _ _ => False :=
    runs.traced.weaken (fun _ _ _ held => claimed.trans held.1) fun _ _ _ never => never.2
  have idle {Value : Type} {procedure : Procedure World Value} {state : Attempt World} (claimed : Claimed state)
      (idles : Idles env.outside procedure False) :
      Runs (fun _ _ => True) procedure state (fun _ last => Claimed last) fun _ _ => False :=
    onward claimed ((idles.runs .passes).weaken (fun _ _ _ _ => trivial) fun _ _ _ thrown => thrown.1)
  have runs : Runs (fun _ _ => True) (run env) (unclaimed env.request world) post fun _ _ => False := by
    refine Runs.bind (idle .refl Idles.dateNow) fun startedAt _ _ claimed => ?_
    refine Runs.bind (idle claimed (Idles.modifyDeadline fun _ _ held => held)) fun _ _ _ claimed => ?_
    refine Runs.bind (idle claimed (armAcquisition_idles _)) fun _ _ _ claimed => ?_
    refine Runs.bind (idle claimed (Idles.consult fun world => .single (.uuid world))) fun uuid _ _ claimed => ?_
    refine Runs.bind (onward claimed (claiming_runs _)) fun claim _ _ claimed => ?_
    split
    next failure =>
      refine Runs.bind (idle claimed disarm_idles) fun _ _ _ claimed => ?_
      refine Runs.bind (onward claimed (abandonClaim_runs _)) fun _ _ _ claimed => ?_
      split
      · exact Runs.pure (refused _ _ (unwalked claimed))
      · exact Runs.pure (refused _ _ (unwalked claimed))
    next detail =>
      exact Runs.bind (idle claimed disarm_idles) fun _ _ _ claimed => Runs.pure (refused _ _ (unwalked claimed))
    next generation => exact owned generation _ (unwalked claimed)
  unfold Runs at runs
  cases ended : run env (unclaimed env.request world) with
  | ok conclusion last => rw [ended] at runs; exact ⟨conclusion, last, rfl, runs.2⟩
  | error failure last => rw [ended] at runs; exact runs.2.elim

/-- Every run resolves: it never started, or it owned a generation and was reported. -/
theorem run_resolves (env : RunEnvironment World) (world : World) :
    ∃ conclusion last, run env (unclaimed env.request world) = .ok conclusion last ∧
      ((∃ detail, conclusion = unstarted env.request.runId detail) ∧ (∀ happening ∈ last.log, Unwalked happening) ∨
        ∃ generation, Walks env generation conclusion last) := by
  refine run_rule env world (fun detail last unwalked => .inl ⟨⟨detail, rfl⟩, unwalked⟩) fun generation start unwalked => ?_
  refine Runs.concludes _ _ (walkOwned_runs generation unwalked) (fun conclusion walked _ walks => ?_)
    fun _ _ _ never => never.elim
  obtain ⟨startedAt, before, passed, acts, reported⟩ := walks
  refine (releaseLease_runs generation).traced.weaken (fun _ last _ released => .inr ⟨generation, startedAt, before,
    walked, ?_, acts, reported, released.1⟩) fun _ _ _ never => never.2
  exact fun happening listed => unwalked happening (passed.log ▸ listed)

end SecureHome.Orchestration
