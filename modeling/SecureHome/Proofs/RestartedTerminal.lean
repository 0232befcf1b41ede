import SecureHome.Orchestration.Fixtures
import SecureHome.Proofs.GuardedCalls
import SecureHome.Proofs.JournalDelivery

/-! The terminal event of a restarted run. Emission walks past what earlier attempts
left durable; the terminal envelope is numbered without asking. -/

namespace SecureHome.Orchestration
open Relation Lib Lifecycle Ports RunState Contracts Core Adapters

/-- A sink, what has been published, and how often the clock was read. -/
structure EmissionWorld where
  sink : RecordingEventSink RunEvent := {}
  visibility : CommitLedger := {}
  reads : Nat := 0

namespace EmissionWorld

def durable (world : EmissionWorld) (runId : String) (sequence : Nat) : Option RunEvent :=
  world.sink.durableCanonical world.visibility runId sequence

/-- No unpublished stage holds an identity of the run. -/
def Settled (world : EmissionWorld) (runId : String) : Prop :=
  ∀ sequence, world.sink.liveReservation world.visibility (runId, sequence) = none

end EmissionWorld

/-- The recording sink as the one port, under any clock. -/
def recordingPorts (now : Nat → Except String String) (patience : Nat) : Surroundings EmissionWorld where
  perform
    | .emit fence event, world =>
      let (answer, sink) := world.sink.emit world.visibility fence event.sequence event
      (⟨[], .settled answer⟩, { world with sink })
    | _, world => (⟨[], .unanswered⟩, world)
  clockNow _ world := (now world.reads, { world with reads := world.reads + 1 })
  dateNow world := (0, world)
  interrupt := none
  randomUUID world := ("", world)
  patience

/-- What a later holder of a run finds: events left durable below a bound, and an
emitter of its own. -/
structure Restart where
  core : TrustedCore
  request : RunRequest
  emitter : RunEventEmitter
  found : EmissionWorld
  bound : Nat
  guarded : emitter.ports = .run
  later : (found.sink.fence.refuse ⟨emitter.identity.runId, emitter.identity.generation⟩).1 = none
  settled : found.Settled emitter.identity.runId
  below : ∀ sequence, found.durable emitter.identity.runId sequence ≠ none → sequence < bound

namespace Restart

def fence (restart : Restart) : RunFence := ⟨restart.emitter.identity.runId, restart.emitter.identity.generation⟩

/-- An earlier attempt left an event durable at the sequence. -/
def Occupied (restart : Restart) (sequence : Nat) : Prop :=
  restart.found.durable restart.emitter.identity.runId sequence ≠ none

def environment (restart : Restart) (now : Nat → Except String String) : RunEnvironment EmissionWorld :=
  ⟨recordingPorts now restart.bound, restart.core, restart.request, {}, .run, .run⟩

end Restart

/-- Emissions one after another, whatever becomes of each. -/
def emitAll {World : Type} (env : RunEnvironment World) (emitter : RunEventEmitter) : List EventBody → Procedure World Unit
  | [] => pure ()
  | body :: rest => do
    swallow (do let _ ← emitFrom env emitter body (env.outside.patience + 1))
    emitAll env emitter rest

namespace Restart

/-- The terminal event, built after some emissions. -/
def terminal (restart : Restart) (now : Nat → Except String String) (bodies : List EventBody) (outcome : RunOutcome) :
    EStateM.Result Failure (Attempt EmissionWorld) RunEvent :=
  (do
    emitAll (restart.environment now) restart.emitter bodies
    envelope (restart.environment now) restart.emitter (.runTerminated outcome))
  (unclaimed restart.request restart.found)

/-- No different durable event occupies the event's sequence, and staging it is no conflict. -/
def Stageable (restart : Restart) (event : RunEvent) (world : EmissionWorld) : Prop :=
  (∀ durable, world.durable restart.emitter.identity.runId event.sequence = some durable → durable = event) ∧
    ∀ commitId detail, (world.sink.stageEmit world.visibility restart.fence commitId event).1 ≠
      .refused .conflictingReplay detail

/-- Whatever was emitted before, the terminal event can be staged. -/
def Records (restart : Restart) : Prop :=
  ∀ now bodies outcome, ∃ event last, restart.terminal now bodies outcome = .ok event last ∧
    restart.Stageable event last.world

end Restart

section Calm

variable {World : Type} {outside : Surroundings World} {attempt : Attempt World}

/-- Nothing interrupts the attempt, and no clock will. -/
def Calm (attempt : Attempt World) : Prop := attempt.deadline.reason = none ∧ attempt.deadline.armedUntil = none

theorem admission_calm (calm : Calm attempt) : admission outside .run attempt = .ok () attempt := by
  simp only [admission, raiseIfElapsed, bind, EStateM.bind, get_ok, calm.1, calm.2, pure, EStateM.pure]

/-- A call answered at once is made and heard. -/
theorem cross_calm {call : Call} {answer : Answer call} {world : World} (calm : Calm attempt)
    (answers : outside.perform call attempt.world = (⟨[], .settled answer⟩, world)) :
    cross outside .run call attempt =
      .ok answer { attempt.issue outside call with
        log := (attempt.issue outside call).log ++ [.answered call answer] } := by
  have launched : launch outside .run call attempt = .ok ⟨[], .settled answer⟩ (attempt.issue outside call) := by
    simp only [launch, bind, EStateM.bind, tryCatch_ok (admission_calm calm), modifyGet_ok, answers]
  have issued : Calm (attempt.issue outside call) := calm
  simp only [cross, bind, EStateM.bind, launched, settle, modify, modifyGet_ok, List.foldl_nil, tell, pure]
  split
  · simp only [EStateM.bind, admission_calm issued]
    rfl
  · rfl

end Calm

section Sink

variable {world : EmissionWorld} {fence : RunFence} {event : RunEvent}

theorem durable_land (runId : String) (sequence : Nat) (event : RunEvent) (other : Nat) :
    ({ world with sink := world.sink.land runId sequence event } : EmissionWorld).durable runId other =
      if other = sequence then some event else world.durable runId other := by
  unfold EmissionWorld.durable RecordingEventSink.durableCanonical RecordingEventSink.land RecordingEventSink.push
  by_cases same : other = sequence
  · simp [same]
  · simp [same, Function.update, List.find?_append, StoredEvent.occupies]

/-- What one emission leaves: the sink refuses only at an identity another event
occupies, and otherwise the event is durable there. -/
theorem emit_cases (later : (world.sink.fence.refuse fence).1 = none) (settled : world.Settled fence.runId) :
    ∃ sink, (sink.fence.refuse fence).1 = none ∧ ({ world with sink } : EmissionWorld).Settled fence.runId ∧
      ((∃ durable detail, world.durable fence.runId event.sequence = some durable ∧ durable ≠ event ∧
          world.sink.emit world.visibility fence event.sequence event = (.refused .conflictingReplay detail, sink) ∧
          ∀ other, ({ world with sink } : EmissionWorld).durable fence.runId other = world.durable fence.runId other) ∨
        (world.sink.emit world.visibility fence event.sequence event = (.ok, sink) ∧
          ∀ other, ({ world with sink } : EmissionWorld).durable fence.runId other =
            if other = event.sequence then some event else world.durable fence.runId other)) := by
  have again := FenceLedger.refuse_again later
  unfold RecordingEventSink.emit
  split
  next refused => rw [refused] at later; cases later
  next ledger served =>
    rw [served] at again
    have known : RecordingEventSink.durableCanonical { world.sink with fence := ledger } world.visibility fence.runId
        event.sequence = world.durable fence.runId event.sequence := rfl
    have free : RecordingEventSink.liveReservation { world.sink with fence := ledger } world.visibility
        (fence.runId, event.sequence) = none := settled event.sequence
    dsimp only
    split
    next durable found =>
      have occupied : world.durable fence.runId event.sequence = some durable := known.symm.trans found
      refine ⟨{ world.sink with fence := ledger }, again, settled, ?_⟩
      split
      next same =>
        refine .inr ⟨rfl, fun other => ?_⟩
        split
        next here =>
          rw [here, ← same]
          rw [← same] at occupied
          exact occupied
        · rfl
      next different => exact .inl ⟨durable, _, occupied, different, rfl, fun _ => rfl⟩
    next absent =>
      rw [free]
      refine ⟨RecordingEventSink.land { world.sink with fence := ledger } fence.runId event.sequence event, again, settled,
        .inr ⟨rfl, fun other => ?_⟩⟩
      exact @durable_land { world with sink := { world.sink with fence := ledger } } fence.runId event.sequence event other

end Sink

section Emitter

variable {restart : Restart} {now : Nat → Except String String} {start : Attempt EmissionWorld}

/-- Above the emitter's number the stream is as it was found. -/
structure Numbering (restart : Restart) (attempt : Attempt EmissionWorld) : Prop where
  calm : Calm attempt
  later : (attempt.world.sink.fence.refuse restart.fence).1 = none
  settled : attempt.world.Settled restart.fence.runId
  kept : ∀ sequence, attempt.sequence ≤ sequence →
    attempt.world.durable restart.fence.runId sequence = restart.found.durable restart.fence.runId sequence

/-- The clock tells one time, and the contract takes the body at a sequence then. -/
def Restart.Accepts (restart : Restart) (now : Nat → Except String String) (body : EventBody) (sequence : Nat) : Prop :=
  ∃ stamp, (∀ reads, now reads = .ok stamp) ∧
    restart.core.runEventIssues ⟨restart.emitter.identity.runId, sequence, stamp, restart.emitter.identity.adapter, body⟩ = none

/-- What an emission is at a free sequence the contract accepts it at: the next number. -/
def Restart.Numbered (restart : Restart) (now : Nat → Except String String) (body : EventBody)
    (before after : Attempt EmissionWorld) : Prop :=
  restart.Accepts now body before.sequence → before.world.durable restart.fence.runId before.sequence = none →
    after.sequence = before.sequence + 1

/-- One reading of the clock. -/
def reading (attempt : Attempt EmissionWorld) : Attempt EmissionWorld :=
  { attempt with world := { attempt.world with reads := attempt.world.reads + 1 } }

theorem clockNow_reads {patience : Nat} (runId : String) :
    Runs (fun _ _ => True) (clockNow (recordingPorts now patience) runId) start
      (fun stamp state => now start.world.reads = .ok stamp ∧ state = reading start)
      fun _ state => (∃ message, now start.world.reads = .error message) ∧ state = reading start := by
  refine Runs.midway (fun read state => read = now start.world.reads ∧ state = reading start)
    (Runs.modifyGet (.single trivial) ⟨rfl, rfl⟩) fun read state _ was => ?_
  obtain ⟨rfl, rfl⟩ := was
  split
  next stamp told => exact Runs.pure ⟨told, rfl⟩
  next message told => exact Runs.throw ⟨⟨message, told⟩, rfl⟩

/-- Asking the sink, where nothing interrupts. -/
theorem emit_asks {patience : Nat} {fence : RunFence} {event : RunEvent} (calm : Calm start) :
    Runs (fun _ _ => True) (cross (recordingPorts now patience) .run (.emit fence event)) start
      (fun answer state => Calm state ∧ state.sequence = start.sequence ∧
        ∃ sink, start.world.sink.emit start.world.visibility fence event.sequence event = (answer, sink) ∧
          state.world = { start.world with sink }) fun _ _ => False := by
  have answers : (recordingPorts now patience).perform (.emit fence event) start.world =
      (⟨[], .settled (start.world.sink.emit start.world.visibility fence event.sequence event).1⟩,
        { start.world with sink := (start.world.sink.emit start.world.visibility fence event.sequence event).2 }) := rfl
  have crossed := cross_calm calm answers
  unfold Runs
  rw [crossed]
  exact ⟨.single trivial, calm, rfl, _, rfl, rfl⟩

/-- One attempt of an emission, given what walking on leaves. -/
theorem emitFrom_attempts (body : EventBody) (patience : Nat) (numbering : Numbering restart start)
    (walks : ∀ state, Numbering restart state → state.sequence = start.sequence + 1 → restart.Occupied start.sequence →
      Runs (fun _ _ => True) (emitFrom (restart.environment now) restart.emitter body patience) state
        (fun _ last => Numbering restart last) fun _ last => Numbering restart last) :
    Runs (fun _ _ => True) (emitFrom (restart.environment now) restart.emitter body (patience + 1)) start
      (fun _ last => Numbering restart last ∧ restart.Numbered now body start last)
      fun _ last => Numbering restart last ∧ restart.Numbered now body start last := by
  have read : Numbering restart (reading start) :=
    ⟨numbering.calm, numbering.later, numbering.settled, numbering.kept⟩
  refine Runs.bind ((clockNow_reads _).weaken (fun _ _ _ held => held) fun _ state _ broke => ?_) fun stamp state _ told => ?_
  · obtain ⟨⟨message, broken⟩, rfl⟩ := broke
    refine ⟨read, fun accepts _ => ?_⟩
    obtain ⟨stamp, always, _⟩ := accepts
    rw [always] at broken
    cases broken
  · obtain ⟨told, rfl⟩ := told
    refine Runs.get ?_
    dsimp only
    split
    next issues refused =>
      refine Runs.pure ⟨read, fun accepts _ => ?_⟩
      obtain ⟨other, always, accepted⟩ := accepts
      cases (always _).symm.trans told
      exact absurd (refused.symm.trans accepted) (by simp)
    next =>
      refine Runs.midway (fun _ numbered => numbered = { reading start with sequence := start.sequence + 1 })
        (Runs.modify trivial rfl) fun _ numbered _ same => ?_
      subst same
      refine Runs.midway (fun emitted state => ∃ answer, emitted = .ok answer ∧ Calm state ∧
          state.sequence = start.sequence + 1 ∧ ∃ sink,
            start.world.sink.emit start.world.visibility restart.fence start.sequence
              ⟨restart.emitter.identity.runId, start.sequence, stamp, restart.emitter.identity.adapter, body⟩ = (answer, sink) ∧
            state.world = { (reading start).world with sink })
        (Runs.recovers (Runs.map ?_) fun _ _ _ (never : False) => never.elim) fun emitted state _ asked => ?_
      · rw [restart.guarded]
        have calm : Calm { reading start with sequence := start.sequence + 1 } := numbering.calm
        exact (emit_asks calm).weaken (fun answer state _ asked => ⟨answer, rfl, asked⟩) fun _ _ _ never => never
      · obtain ⟨answer, rfl, calm, counted, sink, answered, world⟩ := asked
        obtain ⟨after, later, settled, outcome⟩ := @emit_cases start.world restart.fence
          ⟨restart.emitter.identity.runId, start.sequence, stamp, restart.emitter.identity.adapter, body⟩
          numbering.later numbering.settled
        have numbered {emission : FenceOutcome}
            (emitted : start.world.sink.emit start.world.visibility restart.fence start.sequence
              ⟨restart.emitter.identity.runId, start.sequence, stamp, restart.emitter.identity.adapter, body⟩ = (emission, after))
            (durable : ∀ other, start.sequence < other → ({ start.world with sink := after } : EmissionWorld).durable
              restart.fence.runId other = start.world.durable restart.fence.runId other) :
            answer = emission ∧ Numbering restart state := by
          cases answered.symm.trans emitted
          refine ⟨rfl, calm, by rw [world]; exact later, by rw [world]; exact settled, fun sequence above => ?_⟩
          rw [world]
          have beyond : start.sequence < sequence := by omega
          exact (durable sequence beyond).trans (numbering.kept sequence (by omega))
        rcases outcome with ⟨durable, detail, occupied, _, refused, kept⟩ | ⟨accepted, landed⟩
        · obtain ⟨rfl, onward⟩ := numbered refused fun other _ => kept other
          have earlier : restart.Occupied start.sequence := by
            have found := numbering.kept start.sequence (Nat.le_refl _)
            exact fun free => absurd (occupied.symm.trans (found.trans free)) (by simp)
          refine (walks state onward counted earlier).weaken (fun _ last _ held => ⟨held, fun _ free => ?_⟩)
            fun _ last _ held => ⟨held, fun _ free => ?_⟩
          all_goals exact absurd (free.symm.trans occupied) (by simp)
        · obtain ⟨rfl, onward⟩ := numbered accepted fun other above => by rw [landed, if_neg (Nat.ne_of_gt above)]
          exact Runs.pure ⟨onward, fun _ _ => counted⟩

theorem emitFrom_numbers (body : EventBody) (patience : Nat) (numbering : Numbering restart start)
    (enough : restart.bound ≤ patience + start.sequence) :
    Runs (fun _ _ => True) (emitFrom (restart.environment now) restart.emitter body (patience + 1)) start
      (fun _ last => Numbering restart last ∧ restart.Numbered now body start last)
      fun _ last => Numbering restart last ∧ restart.Numbered now body start last := by
  induction patience generalizing start with
  | zero =>
    refine emitFrom_attempts body 0 numbering fun state _ _ occupied => ?_
    have below := restart.below start.sequence occupied
    omega
  | succ patience ih =>
    refine emitFrom_attempts body (patience + 1) numbering fun state onward counted _ => ?_
    exact (ih onward (by omega)).weaken (fun _ _ _ held => held.1) fun _ _ _ held => held.1

theorem emitAll_numbers (bodies : List EventBody) (numbering : Numbering restart start) :
    Runs (fun _ _ => True) (emitAll (restart.environment now) restart.emitter bodies) start
      (fun _ last => Numbering restart last) fun _ _ => False := by
  induction bodies generalizing start with
  | nil => exact Runs.pure numbering
  | cons body rest ih =>
    have emitted : Runs (fun _ _ => True)
        (do let _ ← emitFrom (restart.environment now) restart.emitter body (restart.bound + 1)) start
        (fun _ last => Numbering restart last) fun _ last => Numbering restart last :=
      Runs.bind ((emitFrom_numbers body restart.bound numbering (by omega)).weaken (fun _ _ _ held => held.1)
        fun _ _ _ held => held.1) fun _ _ _ held => Runs.pure held
    exact Runs.bind (swallow_runs emitted) fun _ state _ onward => ih onward

/-- Emissions the contract accepts, over sequences nothing occupies, count on one by one. -/
theorem emitAll_counts {body : EventBody} (emissions : Nat) (numbering : Numbering restart start)
    (accepts : ∀ index < emissions, restart.Accepts now body (start.sequence + index))
    (free : ∀ index < emissions, ¬ restart.Occupied (start.sequence + index)) :
    Runs (fun _ _ => True) (emitAll (restart.environment now) restart.emitter (List.replicate emissions body)) start
      (fun _ last => Numbering restart last ∧ last.sequence = start.sequence + emissions) fun _ _ => False := by
  induction emissions generalizing start with
  | zero => exact Runs.pure ⟨numbering, rfl⟩
  | succ emissions ih =>
    have next {last : Attempt EmissionWorld} (numbered : restart.Numbered now body start last) :
        last.sequence = start.sequence + 1 := by
      refine numbered (accepts 0 (by omega)) ?_
      rw [numbering.kept _ (Nat.le_refl _)]
      exact Decidable.of_not_not (free 0 (by omega))
    have emitted : Runs (fun _ _ => True)
        (do let _ ← emitFrom (restart.environment now) restart.emitter body (restart.bound + 1)) start
        (fun _ last => Numbering restart last ∧ last.sequence = start.sequence + 1)
        fun _ last => Numbering restart last ∧ last.sequence = start.sequence + 1 :=
      Runs.bind ((emitFrom_numbers body restart.bound numbering (by omega)).weaken
        (fun _ _ _ held => ⟨held.1, next held.2⟩) fun _ _ _ held => ⟨held.1, next held.2⟩) fun _ _ _ held => Runs.pure held
    refine Runs.bind (swallow_runs emitted) fun _ state _ onward => ?_
    obtain ⟨onward, counted⟩ := onward
    have shifted (index : Nat) : state.sequence + index = start.sequence + (index + 1) := by omega
    refine (ih onward (fun index below => ?_) fun index below => ?_).weaken
      (fun _ _ _ held => ⟨held.1, by omega⟩) fun _ _ _ never => never
    · rw [shifted]
      exact accepts _ (by omega)
    · rw [shifted]
      exact free _ (by omega)

theorem envelope_built (outcome : RunOutcome) :
    Runs (fun _ _ => True) (envelope (restart.environment now) restart.emitter (.runTerminated outcome)) start
      (fun event last => (∃ stamp, event = ⟨restart.emitter.identity.runId, start.sequence, stamp,
          restart.emitter.identity.adapter, .runTerminated outcome⟩) ∧ last = reading start) fun _ _ => False := by
  refine Runs.midway (fun _ last => last = reading start) ?_ fun stamp last _ was => ?_
  · refine Runs.midway (fun _ state => state = reading start) (Runs.modifyGet (.single trivial) rfl) fun read state _ was => ?_
    split
    · exact Runs.pure was
    · exact Runs.pure was
  · subst was
    exact Runs.get (Runs.pure ⟨⟨stamp, rfl⟩, rfl⟩)

/-- Staging conflicts exactly where a different event is durable. -/
theorem stageable_iff {world : EmissionWorld} {event : RunEvent} (later : (world.sink.fence.refuse restart.fence).1 = none)
    (settled : world.Settled restart.fence.runId) :
    restart.Stageable event world ↔
      ∀ durable, world.durable restart.fence.runId event.sequence = some durable → durable = event := by
  refine ⟨fun stageable => stageable.1, fun alone => ⟨alone, fun commitId detail => ?_⟩⟩
  unfold RecordingEventSink.stageEmit
  split
  next refused => rw [refused] at later; cases later
  next ledger served =>
    dsimp only
    split
    next durable found =>
      have same : durable = event := alone durable found
      simp [same]
    next =>
      have free : RecordingEventSink.liveReservation { world.sink with fence := ledger } world.visibility
          (restart.fence.runId, event.sequence) = none := settled event.sequence
      have named : Sequenced.sequence event = event.sequence := rfl
      rw [named, free]
      exact fun same => nomatch same

/-- The terminal is built after the emissions, at the emitter's number. -/
theorem terminal_ends {bodies : List EventBody} {outcome : RunOutcome} {post : Attempt EmissionWorld → Prop}
    (emitted : Runs (fun _ _ => True) (emitAll (restart.environment now) restart.emitter bodies)
      (unclaimed restart.request restart.found) (fun _ => post) fun _ _ => False) :
    ∃ event last before, restart.terminal now bodies outcome = .ok event last ∧ post before ∧ last = reading before ∧
      ∃ stamp, event = ⟨restart.emitter.identity.runId, before.sequence, stamp, restart.emitter.identity.adapter,
        .runTerminated outcome⟩ := by
  have ends : Runs (fun _ _ => True) (do
      emitAll (restart.environment now) restart.emitter bodies
      envelope (restart.environment now) restart.emitter (.runTerminated outcome))
      (unclaimed restart.request restart.found)
      (fun event last => ∃ before, post before ∧ last = reading before ∧
        ∃ stamp, event = ⟨restart.emitter.identity.runId, before.sequence, stamp, restart.emitter.identity.adapter,
          .runTerminated outcome⟩) fun _ _ => False :=
    Runs.bind emitted fun _ before _ held => (envelope_built outcome).weaken
      (fun event last _ built => ⟨before, held, built.2, built.1⟩) fun _ _ _ never => never
  change Ends _ _ _ _ (restart.terminal now bodies outcome) at ends
  cases built : restart.terminal now bodies outcome with
  | ok event last =>
    rw [built] at ends
    obtain ⟨_, before, held, read, stamped⟩ := ends
    exact ⟨event, last, before, rfl, held, read, stamped⟩
  | error failure last =>
    rw [built] at ends
    exact ends.2.elim

theorem Numbering.initial (restart : Restart) : Numbering restart (unclaimed restart.request restart.found) :=
  ⟨⟨rfl, rfl⟩, restart.later, restart.settled, fun _ _ => rfl⟩

theorem Numbering.reads {attempt : Attempt EmissionWorld} (numbering : Numbering restart attempt) :
    restart.Stageable event (reading attempt).world ↔
      ∀ durable, attempt.world.durable restart.fence.runId event.sequence = some durable → durable = event :=
  stageable_iff numbering.later numbering.settled

theorem Numbering.occupied {attempt : Attempt EmissionWorld} (numbering : Numbering restart attempt) {sequence : Nat}
    (above : attempt.sequence ≤ sequence) (durable : attempt.world.durable restart.fence.runId sequence ≠ none) :
    restart.Occupied sequence := by
  rw [numbering.kept sequence above] at durable
  exact durable

/-- A run that always records its terminal finds nothing where its emissions lead. -/
theorem Restart.Records.unoccupied {restart : Restart} (records : restart.Records) {stamp : String} {body : EventBody}
    (emissions : Nat) (accepts : ∀ index < emissions, restart.core.runEventIssues
      ⟨restart.emitter.identity.runId, index, stamp, restart.emitter.identity.adapter, body⟩ = none)
    (free : ∀ index < emissions, ¬ restart.Occupied index) : ¬ restart.Occupied emissions := by
  intro occupied
  obtain ⟨durable, found⟩ := Option.ne_none_iff_exists'.mp occupied
  have counts (index : Nat) : (unclaimed restart.request restart.found).sequence + index = index := Nat.zero_add index
  have told (outcome : RunOutcome) : durable.body = .runTerminated outcome := by
    have counted := @emitAll_counts restart (fun _ => .ok stamp) _ body emissions (Numbering.initial restart)
      (fun index below => ⟨stamp, fun _ => rfl, by rw [counts]; exact accepts index below⟩)
      (fun index below => by rw [counts]; exact free index below)
    obtain ⟨event, last, before, built, ⟨numbering, sequence⟩, rfl, timed, rfl⟩ := @terminal_ends _ _ _ outcome _ counted
    obtain ⟨_, _, again, stageable⟩ := records (fun _ => .ok stamp) (List.replicate emissions body) outcome
    rw [built] at again
    cases again
    have number : before.sequence = emissions := sequence.trans (counts emissions)
    have same := numbering.reads.mp stageable durable (by
      rw [numbering.kept _ (Nat.le_refl _), number]
      exact found)
    rw [same]
  cases (told .completed).symm.trans (told (.refused ""))

end Emitter

/-- A restarted run can always record its terminal exactly where earlier attempts left no
event durable; past a prefix it can once an emission of its own has landed. -/
theorem records_terminal_iff (restart : Restart)
    (accepts : ∃ body stamp, ∀ sequence occupied, sequence ≤ occupied → restart.Occupied occupied →
      restart.core.runEventIssues
        ⟨restart.emitter.identity.runId, sequence, stamp, restart.emitter.identity.adapter, body⟩ = none) :
    (restart.Records ↔ ∀ sequence, ¬ restart.Occupied sequence) ∧
      ∀ prior, (∀ sequence, restart.Occupied sequence ↔ sequence < prior) →
        ∀ now bodies outcome, ∃ event last, restart.terminal now bodies outcome = .ok event last ∧
          ∀ landed, prior ≤ landed → last.world.durable restart.fence.runId landed ≠ none →
            restart.Stageable event last.world := by
  have numbers (now : Nat → Except String String) (bodies : List EventBody) :=
    @emitAll_numbers restart now _ bodies (Numbering.initial restart)
  refine ⟨⟨fun records sequence => ?_, fun empty now bodies outcome => ?_⟩, fun prior occupied now bodies outcome => ?_⟩
  · obtain ⟨body, stamp, accepts⟩ := accepts
    induction sequence using Nat.strongRecOn with
    | ind sequence earlier =>
      intro occupied
      refine @Restart.Records.unoccupied restart records stamp body sequence (fun index below => ?_) earlier occupied
      exact accepts index sequence (by omega) occupied
  · obtain ⟨event, last, before, built, numbering, rfl, stamp, rfl⟩ := @terminal_ends _ _ _ outcome _ (numbers now bodies)
    refine ⟨_, _, built, numbering.reads.mpr fun durable found => ?_⟩
    exact absurd (numbering.occupied (Nat.le_refl _) (by rw [found]; simp)) (empty _)
  · obtain ⟨event, last, before, built, numbering, rfl, stamp, rfl⟩ := @terminal_ends _ _ _ outcome _ (numbers now bodies)
    refine ⟨_, _, built, fun landed beyond durable => numbering.reads.mpr fun other found => ?_⟩
    exfalso
    rcases Nat.lt_or_ge landed before.sequence with counted | above
    · have earlier := (occupied before.sequence).mp (numbering.occupied (Nat.le_refl _) (by rw [found]; simp))
      omega
    · have earlier := (occupied landed).mp (numbering.occupied above durable)
      omega

/-- The first event of an earlier attempt. -/
def restartEvent : RunEvent :=
  ⟨"run-1", 0, "2026-01-01T00:00:00.000Z", "copilot-cli", .adapterStarted⟩

/-- The second holder of a run whose first left one event durable. -/
def secondHolder : Restart where
  core := fixtureCore
  request := fixtureRequest
  emitter := ⟨⟨"run-1", "copilot-cli", 2⟩, .run⟩
  found := { sink := ({} : RecordingEventSink RunEvent).land "run-1" 0 restartEvent }
  bound := 1
  guarded := rfl
  later := rfl
  settled _ := rfl
  below sequence durable := by
    rw [@durable_land {} "run-1" 0 restartEvent sequence] at durable
    split at durable
    · omega
    · exact absurd rfl durable

theorem secondHolder_records_iff : (secondHolder.Records ↔ ∀ sequence, ¬ secondHolder.Occupied sequence) ∧
    ∀ prior, (∀ sequence, secondHolder.Occupied sequence ↔ sequence < prior) →
      ∀ now bodies outcome, ∃ event last, secondHolder.terminal now bodies outcome = .ok event last ∧
        ∀ landed, prior ≤ landed → last.world.durable secondHolder.fence.runId landed ≠ none →
          secondHolder.Stageable event last.world :=
  records_terminal_iff secondHolder ⟨.adapterStarted, "", fun _ _ _ _ => rfl⟩

/-- Nothing emitted, the terminal is numbered zero, where the first holder's start stands. -/
theorem secondHolder_conflicts : ¬ secondHolder.Records := by
  intro records
  refine @Restart.Records.unoccupied secondHolder records "" .adapterStarted 0 (fun _ never => ?_) (fun _ never => ?_) ?_
  · exact absurd never (Nat.not_lt_zero _)
  · exact absurd never (Nat.not_lt_zero _)
  · exact fun free => by cases free

end SecureHome.Orchestration
