import SecureHome.Orchestration.Acts

/-! What the clocks and the guarded call do to an attempt: they move the world and
the log, and leave the scope to whoever called. -/

namespace SecureHome.Orchestration
open Relation Lib Lifecycle Ports RunState Contracts Core Adapters

variable {World Value Result : Type} {outside : Surroundings World}

namespace Passes

variable {before middle after : Attempt World}

theorem refl : Passes outside before before := ⟨.refl, rfl, rfl, rfl, fun _ held => held, fun _ held => held⟩

theorem trans (first : Passes outside before middle) (second : Passes outside middle after) :
    Passes outside before after :=
  ⟨first.world.trans second.world, second.scope.trans first.scope, second.log.trans first.log, second.made.trans first.made,
    fun reason held => second.reason reason (first.reason reason held),
    fun _ listed => second.elapsed (first.elapsed listed)⟩

/-- A change of the deadline that lets a raised reason stand. -/
theorem ofDeadline {change : RunDeadline → RunDeadline}
    (keeps : ∀ deadline reason, deadline.reason = some reason → (change deadline).reason = some reason) :
    Passes outside before { before with deadline := change before.deadline } :=
  ⟨.refl, rfl, rfl, rfl, fun reason held => keeps _ reason held, fun _ held => held⟩

theorem ofReached (reached : ReflTransGen (Passes outside) before after) : Passes outside before after := by
  induction reached with
  | refl => exact refl
  | tail _ passed ih => exact ih.trans passed

/-- What moved clocks does so too with more on the log. -/
theorem telling (passed : Passes outside before after) (more : List Happening) :
    Passes outside { before with log := before.log ++ more } { after with log := after.log ++ more } :=
  ⟨passed.world, passed.scope, by rw [passed.log], passed.made, passed.reason, passed.elapsed⟩

end Passes

theorem RunDeadline.raise_reason (deadline : RunDeadline) (reason : InterruptReason) {held : InterruptReason}
    (raised : deadline.reason = some held) : (deadline.raise reason).reason = some held := by
  simp [RunDeadline.raise, raised]

/-- A procedure that only moves clocks and counters. -/
def Idles (outside : Surroundings World) (procedure : Procedure World Value) (throws : Prop) : Prop :=
  ∀ start, Runs (Passes outside) procedure start (fun _ _ => True) (fun _ _ => throws)

namespace Idles

variable {throws : Prop}

theorem pure {value : Value} : Idles outside (Pure.pure value) throws := fun _ => Runs.pure trivial

theorem throw {failure : Failure} : Idles outside (MonadExcept.throw failure : Procedure World Value) True :=
  fun _ => Runs.throw trivial

theorem bind {first : Procedure World Value} {next : Value → Procedure World Result} (runs : Idles outside first throws)
    (rest : ∀ value, Idles outside (next value) throws) : Idles outside (first >>= next) throws :=
  fun start => Runs.bind (runs start) fun value state _ _ => rest value state

theorem get {next : Attempt World → Procedure World Value} (rest : ∀ attempt, Idles outside (next attempt) throws) :
    Idles outside (MonadState.get >>= next) throws :=
  fun start => Runs.get (rest start start)

theorem map {first : Procedure World Value} {change : Value → Result} (runs : Idles outside first throws) :
    Idles outside (change <$> first) throws :=
  fun start => Runs.map (runs start)

/-- Something that never throws, where throwing is allowed. -/
theorem loosen {procedure : Procedure World Value} (runs : Idles outside procedure False) :
    Idles outside procedure throws :=
  fun start => (runs start).weaken (fun _ _ _ holds => holds) fun _ _ _ thrown => thrown.elim

theorem consult {question : World → Value × World}
    (consults : ∀ world, ReflTransGen (Consults outside) world (question world).2) :
    Idles outside (Orchestration.consult question) throws :=
  fun start => Runs.modifyGet (.single ⟨consults start.world, rfl, rfl, rfl, fun _ held => held, fun _ held => held⟩) trivial

theorem modifyDeadline {change : RunDeadline → RunDeadline}
    (keeps : ∀ deadline reason, deadline.reason = some reason → (change deadline).reason = some reason) :
    Idles outside (Orchestration.modifyDeadline change) throws :=
  fun _ => Runs.modify (Passes.ofDeadline keeps) trivial

theorem raise {reason : InterruptReason} : Idles outside (Orchestration.modifyDeadline (·.raise reason)) throws :=
  modifyDeadline fun deadline _ held => deadline.raise_reason reason held

theorem dateNow : Idles outside (Orchestration.consult outside.dateNow) throws :=
  consult fun world => .single (.date world)

/-- What it is to the acts of a caller: it ends where only clocks moved. -/
theorem runs {act : Attempt World → Attempt World → Prop} {procedure : Procedure World Value} {start : Attempt World}
    (idles : Idles outside procedure throws) (within : ∀ {before after}, Passes outside before after → act before after) :
    Runs act procedure start (fun _ state => Passes outside start state) fun _ state => throws ∧ Passes outside start state := by
  have ends : Runs (Passes outside) procedure start (fun _ state => Passes outside start state)
      fun _ state => throws ∧ Passes outside start state :=
    (idles start).weaken (fun _ _ reached _ => Passes.ofReached reached)
      fun _ _ reached thrown => ⟨thrown, Passes.ofReached reached⟩
  exact ends.mono fun _ _ passed => .single (within passed)

end Idles

section Clocks

theorem raiseIfElapsed_idles : Idles outside (raiseIfElapsed outside) False := by
  refine Idles.get fun attempt => ?_
  split
  · refine Idles.dateNow.bind fun now => ?_
    split
    · exact Idles.raise
    · exact Idles.pure
  · exact Idles.pure

theorem poll_idles : Idles outside (poll outside) False := by
  unfold poll
  split
  · exact Idles.pure
  next probe supplied =>
    exact (Idles.consult fun world => .single (.probe supplied world)).bind fun _ => Idles.pure

theorem interrupted_idles : Idles outside (interrupted outside) False := by
  refine raiseIfElapsed_idles.bind fun _ => Idles.get fun attempt => ?_
  split
  · exact Idles.pure
  · refine poll_idles.bind fun raised => ?_
    split
    · exact Idles.raise.bind fun _ => Idles.get fun _ => Idles.pure
    · exact Idles.get fun _ => Idles.pure

theorem setWallClock_idles (expiresAt : Nat) : Idles outside (setWallClock outside expiresAt) False := by
  refine Idles.get fun attempt => ?_
  split
  · exact Idles.pure
  · refine Idles.dateNow.bind fun now => Idles.bind (Idles.modifyDeadline ?_) fun _ => ?_
    · exact fun _ _ held => held
    · split
      · exact Idles.raise
      · exact Idles.pure

theorem armAcquisition_idles (deadlineMs : Int) : Idles outside (armAcquisition outside deadlineMs) False :=
  Idles.get fun _ => setWallClock_idles _

theorem armProfile_idles (deadlineMs : Int) (cancelAfterMs : Option Int) :
    Idles outside (armProfile outside deadlineMs cancelAfterMs) False := by
  refine Idles.get fun _ => (setWallClock_idles _).bind fun _ => Idles.get fun attempt => ?_
  split
  · exact Idles.pure
  · split
    · exact Idles.pure
    · refine Idles.dateNow.bind fun now => ?_
      split
      · exact Idles.raise
      · exact Idles.modifyDeadline fun _ _ held => held

theorem narrowProfile_idles (deadlineMs : Int) : Idles outside (narrowProfile outside deadlineMs) False :=
  Idles.get fun _ => setWallClock_idles _

theorem disarm_idles : Idles outside (disarm : Procedure World Unit) False := Idles.modifyDeadline fun _ _ held => held

theorem openWindow_idles : Idles outside (openWindow outside) False := fun _ =>
  Runs.bind (Idles.dateNow _) fun _ _ _ _ =>
    Runs.get <| Runs.midway (fun _ _ => True)
      (Runs.change (.single ⟨.refl, rfl, rfl, rfl, fun _ held => held, fun _ held => held⟩) trivial)
      fun _ _ _ _ => Runs.pure trivial

theorem settlement_idles : Idles outside (settlement outside) False := openWindow_idles.map

theorem recovery_idles : Idles outside (recovery outside) False := openWindow_idles.map

theorem windowElapsed_idles (window : Window) : Idles outside (windowElapsed outside window) False := by
  refine Idles.get fun attempt => ?_
  split
  · exact Idles.pure
  · exact Idles.dateNow.bind fun _ => Idles.pure

theorem admission_idles (boundary : Boundary) : Idles outside (admission outside boundary) True := by
  cases boundary with
  | run =>
    refine raiseIfElapsed_idles.loosen.bind fun _ => Idles.get fun attempt => ?_
    split
    · exact Idles.throw
    · exact Idles.pure
  | settlement window =>
    refine (windowElapsed_idles window).loosen.bind fun elapsed => ?_
    split
    · exact Idles.throw
    · exact Idles.pure
  | recovery window =>
    refine interrupted_idles.loosen.bind fun reason => ?_
    split
    · exact Idles.throw
    · refine (windowElapsed_idles window).loosen.bind fun elapsed => ?_
      split
      · exact Idles.throw
      · exact Idles.pure

theorem clockNow_idles (runId : String) : Idles outside (clockNow outside runId) True := by
  refine (Idles.consult fun world => .single (.clock runId world)).bind fun read => ?_
  split
  · exact Idles.pure
  · exact Idles.throw

theorem safeNow_idles (runId : String) : Idles outside (safeNow outside runId) False := by
  refine (Idles.consult fun world => .single (.clock runId world)).bind fun read => ?_
  split
  · exact Idles.pure
  · exact Idles.pure

theorem instants_idles (runId : String) (steps : Nat) : Idles outside (instants outside runId steps) False := by
  induction steps with
  | zero => exact Idles.pure
  | succ steps ih => exact (safeNow_idles runId).bind fun _ => ih.bind fun _ => Idles.pure

end Clocks

section Calls

variable {permitted : Attempt World → Call → Prop} {start : Attempt World}

theorem notice_passes (boundary : Boundary) (attempt : Attempt World) (signal : Signal) :
    Passes outside attempt (notice outside boundary attempt signal) := by
  fun_cases notice outside boundary attempt signal with
  | case1 => exact Passes.ofDeadline fun deadline _ held => deadline.raise_reason _ held
  | case2 => exact Passes.refl
  | case3 => exact Passes.ofDeadline fun deadline _ held => deadline.raise_reason _ held
  | case4 => exact Passes.refl
  | case5 => exact Passes.refl
  | case6 => exact ⟨.refl, rfl, rfl, rfl, fun _ held => held, fun _ held => .tail _ held⟩

theorem notices_pass (boundary : Boundary) (signals : List Signal) (attempt : Attempt World) :
    Passes outside attempt (signals.foldl (notice outside boundary) attempt) := by
  induction signals generalizing attempt with
  | nil => exact Passes.refl
  | cons signal rest ih => exact (notice_passes boundary attempt signal).trans (ih _)

theorem expire_passes (boundary : Boundary) (signals : List Signal) (attempt : Attempt World) :
    Passes outside attempt (expire outside boundary attempt signals).2 := by
  induction signals generalizing attempt with
  | nil =>
    unfold expire
    split
    · exact Passes.ofDeadline fun deadline _ held => deadline.raise_reason _ held
    · exact ⟨.refl, rfl, rfl, rfl, fun _ held => held, fun _ held => .tail _ held⟩
  | cons signal rest ih =>
    simp only [expire]
    split
    · exact notice_passes boundary attempt signal
    · exact (notice_passes boundary attempt signal).trans (ih _)

/-- A launched call was made where only clocks had moved, or barred there. -/
theorem launch_ends (boundary : Boundary) (call : Call) :
    Runs (fun _ _ => True) (launch outside boundary call) start
      (fun flight state => ∃ ready, Passes outside start ready ∧ flight = (outside.perform call ready.world).1 ∧
        state = ready.issue outside call)
      fun _ state => ∃ ready, Passes outside start ready ∧
        state = { ready with log := ready.log ++ [.barred call] } := by
  refine Runs.midway (fun _ ready => Passes outside start ready) (Runs.recovers
    (((admission_idles boundary).runs fun _ => trivial).weaken (fun _ _ _ passed => passed) fun _ _ _ thrown => thrown.2)
    fun failure ready _ passed => ?_) fun _ ready _ passed => ?_
  · refine Runs.midway (fun _ state => state = { ready with log := ready.log ++ [.barred call] })
      (Runs.modify trivial rfl) fun _ state _ barred => ?_
    exact Runs.throw ⟨ready, passed, barred⟩
  · exact Runs.modifyGet (.single trivial) ⟨ready, passed, rfl, rfl⟩

/-- Awaiting a flight moves clocks, and hears what the port settled if anything. -/
theorem settle_ends (boundary : Boundary) (call : Call) (flight : Flight (Answer call)) :
    Runs (fun _ _ => True) (settle outside boundary call flight) start
      (fun answer state => flight.ending = .settled answer ∧ ∃ ready, Passes outside start ready ∧
        state = { ready with log := ready.log ++ [.answered call answer] })
      fun _ state => Passes outside start state ∧ (portEffects call = .finalization → ∀ answer, flight.ending ≠ .settled answer) := by
  unfold settle
  split
  next unanswered =>
    refine Runs.midway (fun _ state => Passes outside start state)
      (Runs.modifyGet (.single trivial) (expire_passes boundary flight.signals start)) fun _ _ _ passed => ?_
    exact Runs.throw ⟨passed, fun _ _ settled => by rw [unanswered] at settled; cases settled⟩
  next message threw =>
    refine Runs.midway (fun _ state => Passes outside start state)
      (Runs.modify trivial (notices_pass boundary flight.signals start)) fun _ _ _ passed => ?_
    exact Runs.throw ⟨passed, fun _ _ settled => by rw [threw] at settled; cases settled⟩
  next answer settled =>
    refine Runs.midway (fun _ state => Passes outside start state)
      (Runs.modify trivial (notices_pass boundary flight.signals start)) fun _ noticed _ passed => ?_
    have heard (ready : Attempt World) (onward : Passes outside start ready) :
        Runs (fun _ _ => True) (do tell (.answered call answer); return answer) ready
          (fun answer state => flight.ending = .settled answer ∧ ∃ ready, Passes outside start ready ∧
            state = { ready with log := ready.log ++ [.answered call answer] })
          fun _ state => Passes outside start state ∧
            (portEffects call = .finalization → ∀ answer, flight.ending ≠ .settled answer) :=
      Runs.midway (fun _ state => state = { ready with log := ready.log ++ [.answered call answer] })
        (Runs.modify trivial rfl) fun _ _ _ told => Runs.pure ⟨settled, ready, onward, told⟩
    split
    next discardable =>
      refine Runs.bind (((admission_idles boundary).runs fun _ => trivial).weaken (fun _ _ _ ended => ended)
        fun _ _ _ thrown => ⟨passed.trans thrown.2, fun final => absurd final discardable⟩) fun _ ready _ onward => ?_
      exact heard ready (passed.trans onward)
    · exact heard noticed passed

/-- A step of traffic leaves the scope and only adds to the log. -/
theorem Traffic.scope {before after : Attempt World} (step : Traffic outside permitted before after) :
    after.scope = before.scope := by
  cases step with
  | passes passed => exact passed.scope
  | issues | bars | hears => rfl

theorem Traffic.log {before after : Attempt World} (step : Traffic outside permitted before after) :
    before.log <+: after.log := by
  cases step with
  | passes passed => exact passed.log ▸ List.prefix_rfl
  | issues | bars | hears => exact List.prefix_append _ _

theorem Traffic.scopes {before after : Attempt World} (steps : ReflTransGen (Traffic outside permitted) before after) :
    after.scope = before.scope := by
  induction steps with
  | refl => rfl
  | tail _ step ih => exact step.scope.trans ih

theorem Traffic.logs {before after : Attempt World} (steps : ReflTransGen (Traffic outside permitted) before after) :
    before.log <+: after.log := by
  induction steps with
  | refl => exact List.prefix_rfl
  | tail _ step ih => exact ih.trans step.log

theorem Passes.traffic {before after : Attempt World} (passed : Passes outside before after) :
    ReflTransGen (Traffic outside permitted) before after :=
  .single (.passes passed)

/-- One launch is traffic, and leaves the call made or barred. -/
theorem launch_runs (boundary : Boundary) {call : Call}
    (allowed : ∀ ready, Passes outside start ready → permitted ready call) :
    Runs (Traffic outside permitted) (launch outside boundary call) start
      (fun flight state => state.scope = start.scope ∧
        state.log = start.log ++ [.issued call start.scope.fenceLost.isSome flight.ending])
      fun _ state => state.scope = start.scope ∧ state.log = start.log ++ [.barred call] := by
  refine ((launch_ends boundary call).via ?_ ?_).weaken ?_ ?_
  · rintro flight _ ⟨ready, passed, rfl, rfl⟩
    exact passed.traffic.tail (.issues (allowed ready passed))
  · rintro _ _ ⟨ready, passed, rfl⟩
    exact passed.traffic.tail (.bars call)
  · rintro flight _ _ ⟨ready, passed, rfl, rfl⟩
    exact ⟨passed.scope, by simp [Attempt.issue, passed.log, passed.scope]⟩
  · rintro _ _ _ ⟨ready, passed, rfl⟩
    exact ⟨passed.scope, by simp [passed.log]⟩

/-- Awaiting a flight whose issue the log keeps is traffic. -/
theorem settle_runs (boundary : Boundary) {call : Call} {flight : Flight (Answer call)}
    (issued : ∃ lost, .issued call lost flight.ending ∈ start.log) :
    Runs (Traffic outside permitted) (settle outside boundary call flight) start
      (fun answer state => state.scope = start.scope ∧ .answered call answer ∈ state.log)
      fun _ state => state.scope = start.scope := by
  refine ((settle_ends boundary call flight).via ?_ ?_).weaken ?_ ?_
  · rintro answer _ ⟨settled, ready, passed, rfl⟩
    obtain ⟨lost, made⟩ := issued
    exact passed.traffic.tail (.hears ⟨lost, by rw [passed.log, ← settled]; exact made⟩)
  · rintro _ _ ⟨passed, _⟩
    exact passed.traffic
  · rintro answer _ _ ⟨_, ready, passed, rfl⟩
    exact ⟨passed.scope, by simp⟩
  · rintro _ _ _ ⟨passed, _⟩
    exact passed.scope

/-- One awaited call: traffic, and the answer is on record when it returns. -/
theorem cross_runs (boundary : Boundary) {call : Call}
    (allowed : ∀ ready, Passes outside start ready → permitted ready call) :
    Runs (Traffic outside permitted) (cross outside boundary call) start
      (fun answer state => state.scope = start.scope ∧ .answered call answer ∈ state.log)
      fun _ state => state.scope = start.scope := by
  refine Runs.bind ((launch_runs boundary allowed).weaken (fun _ _ _ made => made) fun _ _ _ barred => barred.1)
    fun flight state _ made => ?_
  refine (settle_runs boundary ⟨start.scope.fenceLost.isSome, by simp [made.2]⟩).weaken ?_ ?_
  · exact fun answer last _ heard => ⟨heard.1.trans made.1, heard.2⟩
  · exact fun _ last _ same => same.trans made.1

/-- One awaited call, by what the log says of it: made and answered where it returns,
barred or made and not heard where it throws. -/
theorem cross_ends (boundary : Boundary) (call : Call) :
    Runs (fun _ _ => True) (cross outside boundary call) start
      (fun answer state => state.scope = start.scope ∧ state.log = start.log ++
        [.issued call start.scope.fenceLost.isSome (.settled answer), .answered call answer])
      fun _ state => state.scope = start.scope ∧ (state.log = start.log ++ [.barred call] ∨
        ∃ ending, state.log = start.log ++ [.issued call start.scope.fenceLost.isSome ending]) := by
  refine Runs.bind ((launch_ends boundary call).loosen ?_) fun flight state _ launched => ?_
  · rintro _ _ ⟨ready, passed, rfl⟩
    exact ⟨passed.scope, .inl (by simp [passed.log])⟩
  · obtain ⟨ready, passed, rfl, rfl⟩ := launched
    refine (settle_ends boundary call _).weaken ?_ ?_
    · rintro answer _ _ ⟨settled, heard, onward, rfl⟩
      refine ⟨onward.scope.trans passed.scope, ?_⟩
      simp [onward.log, Attempt.issue, settled, passed.log, passed.scope]
    · rintro _ _ _ ⟨onward, _⟩
      refine ⟨onward.scope.trans passed.scope, .inr ⟨(outside.perform call ready.world).1.ending, ?_⟩⟩
      rw [onward.log, Attempt.issue, passed.log, passed.scope]

/-- Whatever the procedure does, its caller goes on. -/
theorem swallow_runs {act : Attempt World → Attempt World → Prop} {procedure : Procedure World Unit}
    {post : Attempt World → Prop} (runs : Runs act procedure start (fun _ => post) fun _ => post) :
    Runs act (swallow procedure) start (fun _ => post) fun _ _ => False :=
  Runs.recovers (runs.weaken (fun _ _ _ held => held) fun _ _ _ held => held) fun _ _ _ held => Runs.pure held

end Calls

end SecureHome.Orchestration
