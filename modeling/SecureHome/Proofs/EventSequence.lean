import SecureHome.Adapters.EventSink
import SecureHome.Events.Emitter
import Mathlib.Data.List.Nodup
import Mathlib.Data.List.Pairwise

/-! Sequences under lost acknowledgements: what one pass of the emitter's loop does, and from
it what a call and any number of calls do. -/

namespace SecureHome.Events
open Ports

variable {Body Event : Type} [DecidableEq Event]

section Occupied

variable {contents : Occupancy Event} {sequence : Nat} {event : Event}

def Grows (before after : Occupancy Event) : Prop := ∀ sequence event, before sequence = some event → after sequence = some event

omit [DecidableEq Event] in
theorem occupy_grows (landing : Nat × Event) : Grows contents (occupy contents landing) := by
  intro sequence event held
  unfold occupy
  cases free : contents landing.1 with
  | some other => exact held
  | none =>
    by_cases same : sequence = landing.1
    · rw [same, free] at held
      cases held
    · exact (Function.update_of_ne same _ contents).trans held

omit [DecidableEq Event] in
theorem others_grow (others : List (Nat × Event)) : Grows contents (others.foldl occupy contents) := by
  induction others generalizing contents with
  | nil => exact fun _ _ held => held
  | cons landing rest ih => exact fun sequence event held => ih sequence event (occupy_grows landing sequence event held)

omit [DecidableEq Event] in
/-- Other writers occupy only what they write to. -/
theorem others_free {others : List (Nat × Event)} (free : contents sequence = none) (apart : ∀ landing ∈ others, landing.1 ≠ sequence) :
    (others.foldl occupy contents) sequence = none := by
  induction others generalizing contents with
  | nil => exact free
  | cons landing rest ih =>
    obtain ⟨first, later⟩ := List.forall_mem_cons.mp apart
    refine ih ?_ later
    unfold occupy
    cases contents landing.1 with
    | some other => exact free
    | none => exact (Function.update_of_ne (Ne.symm first) _ contents).trans free

end Occupied

variable {safeParse : Candidate Body → Except String Event} {identity : EventIdentity} {body : Body} {turn : Turn Event}
  {emitter after : RunEventEmitter Event} {result : Option (EmitOutcome Event)}

/-- What one pass can do. -/
inductive Pass (turn : Turn Event) (emitter : RunEventEmitter Event) : Option (EmitOutcome Event) → RunEventEmitter Event → Prop where
  /-- The sink is not asked. -/
  | unasked {outcome : EmitOutcome Event} (outcome_refused : ∀ event, outcome ≠ .ok event) : Pass turn emitter (some outcome) emitter
  | stale {detail : String} : Pass turn emitter (some (.refused .staleFence detail))
      { emitter with asked := turn.others.foldl occupy emitter.contents, contents := turn.others.foldl occupy emitter.contents }
  /-- Another event is there, and the loop goes on. -/
  | conflict {other : Event} (held : (turn.others.foldl occupy emitter.contents) emitter.sequence = some other) : Pass turn emitter none
      { emitter with
        sequence := emitter.sequence + 1
        asked := turn.others.foldl occupy emitter.contents
        contents := turn.others.foldl occupy emitter.contents }
  | lands {event : Event} {outcome : EmitOutcome Event} {emitted : List Event}
      (free : (turn.others.foldl occupy emitter.contents) emitter.sequence = none)
      (outcome_of : outcome = .ok event ∨ (∀ event, outcome ≠ .ok event) ∧ ∀ detail, outcome ≠ .refused .staleFence detail ∧ outcome ≠ .refused .contractInvalid detail) :
      Pass turn emitter (some outcome)
      { sequence := emitter.sequence + 1
        emitted
        asked := turn.others.foldl occupy emitter.contents
        contents := Function.update (turn.others.foldl occupy emitter.contents) emitter.sequence (some event)
        landed := emitter.landed ++ [(emitter.sequence, event)] }
  /-- Nothing lands, and the identity is kept: it is not known that nothing did, or the event was there. -/
  | kept {outcome : EmitOutcome Event} {emitted : List Event}
      (outcome_of : (∃ event, outcome = .ok event ∧ (turn.others.foldl occupy emitter.contents) emitter.sequence = some event) ∨
        (∀ event, outcome ≠ .ok event) ∧ ∀ detail, outcome ≠ .refused .staleFence detail ∧ outcome ≠ .refused .contractInvalid detail) :
      Pass turn emitter (some outcome)
      { emitter with
        sequence := emitter.sequence + 1
        emitted
        asked := turn.others.foldl occupy emitter.contents
        contents := turn.others.foldl occupy emitter.contents }

theorem attempt_pass : Pass turn emitter (attempt safeParse identity body turn emitter).1 (attempt safeParse identity body turn emitter).2 := by
  unfold attempt
  cases turn.reading with
  | error message => exact .unasked fun _ => nofun
  | ok timestamp =>
    dsimp only
    cases safeParse ⟨body, identity.runId, emitter.sequence, timestamp, identity.adapter⟩ with
    | error issues => exact .unasked fun _ => nofun
    | ok event =>
      dsimp only
      cases turn.fate with
      | staleFence detail => exact .stale
      | lost interrupt message => cases interrupt <;> exact .kept (.inr ⟨fun _ => nofun, fun _ => ⟨nofun, nofun⟩⟩)
      | unacknowledged interrupt message =>
        cases held : (turn.others.foldl occupy emitter.contents) emitter.sequence with
        | none =>
          simp only [sinkEmit, held, Option.isNone_none, if_true]
          cases interrupt <;> exact .lands held (.inr ⟨fun _ => nofun, fun _ => ⟨nofun, nofun⟩⟩)
        | some durable =>
          simp only [sinkEmit, held, Option.isNone_some, Bool.false_eq_true, if_false]
          cases interrupt <;> exact .kept (.inr ⟨fun _ => nofun, fun _ => ⟨nofun, nofun⟩⟩)
      | answered =>
        cases held : (turn.others.foldl occupy emitter.contents) emitter.sequence with
        | none =>
          simp only [sinkEmit, held, if_true]
          exact .lands held (.inl rfl)
        | some durable =>
          by_cases same : durable = event
          · subst same
            simp only [sinkEmit, held, if_true, Bool.false_eq_true, if_false]
            exact .kept (.inl ⟨durable, rfl, held⟩)
          · simp only [sinkEmit, held, if_neg same, Bool.false_eq_true, if_false]
            exact .conflict held

section Calls

/-- What came of a call: an event that is reported is at the least free sequence from the counter on, and a call that is
refused by the contract or by the fence moves the counter past occupied identities alone. -/
def Told (before after : RunEventEmitter Event) : EmitOutcome Event → Prop
  | .ok event => ∃ sequence, before.sequence ≤ sequence ∧ after.sequence = sequence + 1 ∧
      (∀ passed, before.sequence ≤ passed → passed < sequence → after.asked passed ≠ none) ∧
      (after.asked sequence = none ∧ after.landed = before.landed ++ [(sequence, event)] ∨
        after.asked sequence = some event ∧ after.landed = before.landed)
  | .refused .contractInvalid _ | .refused .staleFence _ => before.sequence ≤ after.sequence ∧ after.landed = before.landed ∧
      ∀ passed, before.sequence ≤ passed → passed < after.sequence → after.asked passed ≠ none
  | .refused .sinkFailed _ | .raised _ => True

/-- The emitter on its way past occupied identities. -/
structure Walked (before now : RunEventEmitter Event) : Prop where
  forward : before.sequence ≤ now.sequence
  landed : now.landed = before.landed
  occupied : ∀ passed, before.sequence ≤ passed → passed < now.sequence → now.contents passed ≠ none ∧ now.asked passed ≠ none

variable {before now : RunEventEmitter Event} {outcome : EmitOutcome Event} {turns : List (Turn Event)}

omit [DecidableEq Event] in
theorem Walked.refl (emitter : RunEventEmitter Event) : Walked emitter emitter :=
  ⟨Nat.le_refl _, rfl, fun _ from_here to_here => absurd from_here (Nat.not_le.mpr to_here)⟩

omit [DecidableEq Event] in
/-- What was occupied is still when the sink is asked again. -/
theorem Walked.still (walked : Walked before now) (turn : Turn Event) (passed : Nat) (first : before.sequence ≤ passed)
    (last : passed < now.sequence) : (turn.others.foldl occupy now.contents) passed ≠ none := by
  obtain ⟨event, held⟩ := Option.ne_none_iff_exists'.mp (walked.occupied passed first last).1
  rw [others_grow turn.others passed event held]
  exact nofun

omit [DecidableEq Event] in
theorem Walked.pass (walked : Walked before now) (pass : Pass turn now none after) : Walked before after := by
  cases pass with
  | conflict held =>
    have every (passed : Nat) (first : before.sequence ≤ passed) (last : passed < now.sequence + 1) :
        (turn.others.foldl occupy now.contents) passed ≠ none := by
      rcases Nat.lt_succ_iff_lt_or_eq.mp last with earlier | rfl
      · exact walked.still turn passed first earlier
      · rw [held]
        exact nofun
    exact ⟨Nat.le_succ_of_le walked.forward, walked.landed, fun passed first last => ⟨every passed first last, every passed first last⟩⟩

omit [DecidableEq Event] in
/-- A call ends as its last pass does. -/
theorem Walked.told (walked : Walked before now) (pass : Pass turn now (some outcome) after) : Told before after outcome := by
  cases pass with
  | unasked refused =>
    have told : before.sequence ≤ after.sequence ∧ after.landed = before.landed ∧
        ∀ passed, before.sequence ≤ passed → passed < after.sequence → after.asked passed ≠ none :=
      ⟨walked.forward, walked.landed, fun passed first last => (walked.occupied passed first last).2⟩
    cases outcome with
    | ok event => exact absurd rfl (refused event)
    | raised message => trivial
    | refused reason detail => cases reason <;> first | exact told | trivial
  | stale => exact ⟨walked.forward, walked.landed, walked.still turn⟩
  | lands free outcome_of =>
    rcases outcome_of with rfl | ⟨no_event, others⟩
    · exact ⟨now.sequence, walked.forward, rfl, walked.still turn, .inl ⟨free, by rw [walked.landed]⟩⟩
    · cases outcome with
      | ok event => exact absurd rfl (no_event event)
      | raised message => trivial
      | refused reason detail =>
        cases reason with
        | contractInvalid => exact absurd rfl (others detail).2
        | staleFence => exact absurd rfl (others detail).1
        | sinkFailed => trivial
  | kept outcome_of =>
    rcases outcome_of with ⟨event, rfl, held⟩ | ⟨no_event, others⟩
    · exact ⟨now.sequence, walked.forward, rfl, walked.still turn, .inr ⟨held, walked.landed⟩⟩
    · cases outcome with
      | ok event => exact absurd rfl (no_event event)
      | raised message => trivial
      | refused reason detail =>
        cases reason with
        | contractInvalid => exact absurd rfl (others detail).2
        | staleFence => exact absurd rfl (others detail).1
        | sinkFailed => trivial

theorem emit_told (walked : Walked before now) (emitted : emit safeParse identity body turns now = some (outcome, after)) :
    Told before after outcome := by
  induction turns generalizing now with
  | nil => cases emitted
  | cons turn rest ih =>
    have pass := @attempt_pass _ _ _ safeParse identity body turn now
    unfold emit at emitted
    generalize attempt safeParse identity body turn now = passed at pass emitted
    obtain ⟨result, next⟩ := passed
    cases result with
    | none => exact ih (walked.pass pass) emitted
    | some told =>
      cases emitted
      exact walked.told pass

/-- A call is over after at most as many passes as there are occupied identities, and one. -/
theorem emit_ends {bound : Nat} (free : ∀ sequence, bound ≤ sequence → now.contents sequence = none)
    (others : ∀ turn ∈ turns, ∀ landing ∈ turn.others, landing.1 < bound) (enough : bound - now.sequence < turns.length) :
    ∃ outcome after, emit safeParse identity body turns now = some (outcome, after) := by
  induction turns generalizing now with
  | nil => cases enough
  | cons turn rest ih =>
    obtain ⟨here, later⟩ := List.forall_mem_cons.mp others
    have pass := @attempt_pass _ _ _ safeParse identity body turn now
    unfold emit
    generalize attempt safeParse identity body turn now = passed at pass ⊢
    obtain ⟨result, next⟩ := passed
    cases result with
    | some outcome => exact ⟨outcome, next, rfl⟩
    | none =>
      have unoccupied (sequence : Nat) (past : bound ≤ sequence) : (turn.others.foldl occupy now.contents) sequence = none :=
        others_free (free sequence past) fun landing member => Nat.ne_of_lt (Nat.lt_of_lt_of_le (here landing member) past)
      cases pass with
      | conflict held =>
        have below : now.sequence < bound := by
          by_contra past
          rw [unoccupied now.sequence (Nat.not_lt.mp past)] at held
          cases held
        refine ih unoccupied later ?_
        rw [List.length_cons] at enough
        dsimp only
        omega

end Calls

section Runs

/-- What landed is in order, and before the counter. -/
structure InOrder (emitter : RunEventEmitter Event) : Prop where
  increasing : (emitter.landed.map Prod.fst).Pairwise (· < ·)
  behind : ∀ landing ∈ emitter.landed, landing.1 < emitter.sequence

omit [DecidableEq Event] in
theorem Pass.inOrder (pass : Pass turn emitter result after) (ordered : InOrder emitter) : InOrder after := by
  have later : ∀ landing ∈ emitter.landed, landing.1 < emitter.sequence + 1 := fun landing member => Nat.lt_succ_of_lt (ordered.behind landing member)
  cases pass with
  | unasked => exact ordered
  | stale => exact ⟨ordered.increasing, ordered.behind⟩
  | conflict held => exact ⟨ordered.increasing, later⟩
  | kept outcome_of => exact ⟨ordered.increasing, later⟩
  | lands free outcome_of =>
    constructor
    · rw [List.map_append, List.pairwise_append]
      refine ⟨ordered.increasing, List.pairwise_singleton _ _, fun one member other last => ?_⟩
      obtain ⟨landing, listed, rfl⟩ := List.mem_map.mp member
      rw [List.map_singleton, List.mem_singleton] at last
      rw [last]
      exact ordered.behind landing listed
    · intro landing member
      rcases List.mem_append.mp member with earlier | last
      · exact later landing earlier
      · rw [List.mem_singleton.mp last]
        exact Nat.lt_succ_self _

theorem emit_inOrder {turns : List (Turn Event)} {outcome : EmitOutcome Event} (ordered : InOrder emitter)
    (emitted : emit safeParse identity body turns emitter = some (outcome, after)) : InOrder after := by
  induction turns generalizing emitter with
  | nil => cases emitted
  | cons turn rest ih =>
    have pass := @attempt_pass _ _ _ safeParse identity body turn emitter
    unfold emit at emitted
    generalize attempt safeParse identity body turn emitter = passed at pass emitted
    obtain ⟨result, next⟩ := passed
    cases result with
    | none => exact ih (pass.inOrder ordered) emitted
    | some told =>
      cases emitted
      exact pass.inOrder ordered

theorem emitAll_inOrder {calls : List (Body × List (Turn Event))} (ordered : InOrder emitter)
    (emitted : emitAll safeParse identity calls emitter = some after) : InOrder after := by
  induction calls generalizing emitter with
  | nil =>
    cases emitted
    exact ordered
  | cons call rest ih =>
    obtain ⟨⟨outcome, next⟩, first, later⟩ := Option.bind_eq_some_iff.mp emitted
    exact ih (emit_inOrder ordered first) later

omit [DecidableEq Event] in
/-- No two events share a sequence. -/
theorem InOrder.alone (ordered : InOrder emitter) {sequence : Nat} {one other : Event} (first : (sequence, one) ∈ emitter.landed)
    (second : (sequence, other) ∈ emitter.landed) : one = other := by
  have distinct : (emitter.landed.map Prod.fst).Nodup := ordered.increasing.imp Nat.ne_of_lt
  exact (Prod.mk.inj (List.inj_on_of_nodup_map distinct first second rfl)).2

/-- After any emit calls, whatever the sink held and answered: what landed is in strict order, no two events share a
sequence, and every further call ends and is told as it should be. -/
theorem emissions {contents : Occupancy Event} {calls : List (Body × List (Turn Event))} {emitter : RunEventEmitter Event}
    (emitted : emitAll safeParse identity calls { contents } = some emitter) :
    (emitter.landed.map Prod.fst).Pairwise (· < ·) ∧
      (∀ sequence one other, (sequence, one) ∈ emitter.landed → (sequence, other) ∈ emitter.landed → one = other) ∧
      (∀ body turns bound, (∀ sequence, bound ≤ sequence → emitter.contents sequence = none) →
        (∀ turn ∈ turns, ∀ landing ∈ turn.others, landing.1 < bound) → bound - emitter.sequence < turns.length →
        ∃ outcome after, emit safeParse identity body turns emitter = some (outcome, after)) ∧
      ∀ body turns outcome after, emit safeParse identity body turns emitter = some (outcome, after) → Told emitter after outcome := by
  have ordered : InOrder emitter := emitAll_inOrder ⟨List.Pairwise.nil, fun _ member => absurd member List.not_mem_nil⟩ emitted
  refine ⟨ordered.increasing, fun _ _ _ => ordered.alone, fun _ _ _ => emit_ends, fun _ _ _ _ => emit_told (.refl emitter)⟩

/-- An emitter behind a stream with one event on it, whose first acknowledgement is lost. -/
theorem emissions_behind :
    let identity : EventIdentity := ⟨"run", "adapter", 1⟩
    let replayed : Occupancy String := Function.update (fun _ => none) 0 (some "earlier")
    let lost : Turn String := ⟨.ok "t0", [], .unacknowledged false "acknowledgement lost"⟩
    let calls : List (String × List (Turn String)) := [("a", [⟨.ok "t0", [], .answered⟩, lost]), ("b", [⟨.ok "t1", [], .answered⟩])]
    ∃ emitter, emitAll (fun candidate => .ok candidate.body) identity calls { contents := replayed } = some emitter ∧
      emitter.landed = [(1, "a"), (2, "b")] ∧ (emitter.landed.map Prod.fst).Pairwise (· < ·) := by
  intro identity replayed lost calls
  have emitted : emitAll (fun candidate => .ok candidate.body) identity calls { contents := replayed } = some _ := rfl
  exact ⟨_, emitted, rfl, (emissions emitted).1⟩

end Runs

section Recording
open RunState Adapters RecordingEventSink

variable [Sequenced Event] {sink : RecordingEventSink Event} {visibility : CommitLedger} {fence : RunFence} {sequence : Nat} {event : Event}

/-- What occupies the identities of a run in the recording sink. -/
def occupancy (sink : RecordingEventSink Event) (visibility : CommitLedger) (runId : String) : Occupancy Event := fun sequence =>
  (sink.durableCanonical visibility runId sequence).or ((sink.liveReservation visibility (runId, sequence)).map (·.canonical))

omit [DecidableEq Event] in
theorem occupancy_land (landing : RecordingEventSink Event) (runId : String) :
    occupancy (landing.land runId sequence event) visibility runId sequence = some event := by
  unfold occupancy durableCanonical land push
  simp

/-- The recording sink keeps the replay contract: what it admits is acknowledged where the identity is free or the event's own,
and stays there, and conflicts with any other event. -/
theorem recording_keeps (admitted : (sink.fence.refuse fence).1 = none) :
    (∃ durable, (sinkEmit (occupancy sink visibility fence.runId) sequence event .answered) = (.returned .ok, durable) ∧
        (sink.emit visibility fence sequence event).1 = .ok ∧
        occupancy (sink.emit visibility fence sequence event).2 visibility fence.runId sequence = some event) ∨
      ∃ told detail, sinkEmit (occupancy sink visibility fence.runId) sequence event .answered =
          (.returned (.refused .conflictingReplay told), false) ∧
        (sink.emit visibility fence sequence event).1 = .refused .conflictingReplay detail := by
  unfold RecordingEventSink.emit
  generalize sink.fence.refuse fence = answer at admitted ⊢
  obtain ⟨_, ledger⟩ := answer
  cases admitted
  have durable_same : ({ sink with fence := ledger } : RecordingEventSink Event).durableCanonical visibility fence.runId sequence =
      sink.durableCanonical visibility fence.runId sequence := rfl
  have live_same : ({ sink with fence := ledger } : RecordingEventSink Event).liveReservation visibility (fence.runId, sequence) =
      sink.liveReservation visibility (fence.runId, sequence) := rfl
  dsimp only
  rw [durable_same]
  unfold sinkEmit
  dsimp only
  cases durable : sink.durableCanonical visibility fence.runId sequence with
  | some held =>
    have occupied : occupancy sink visibility fence.runId sequence = some held := by
      unfold occupancy
      rw [durable]
      rfl
    rw [occupied]
    dsimp only
    by_cases same : held = event
    · subst same
      rw [if_pos rfl, if_pos rfl]
      exact .inl ⟨_, rfl, rfl, occupied⟩
    · rw [if_neg same, if_neg same]
      exact .inr ⟨_, _, rfl, rfl⟩
  | none =>
    dsimp only
    rw [live_same]
    cases live : sink.liveReservation visibility (fence.runId, sequence) with
    | none =>
      have free : occupancy sink visibility fence.runId sequence = none := by
        unfold occupancy
        rw [durable, live]
        rfl
      rw [free]
      exact .inl ⟨_, rfl, rfl, occupancy_land _ _⟩
    | some reserved =>
      have occupied : occupancy sink visibility fence.runId sequence = some reserved.canonical := by
        unfold occupancy
        rw [durable, live]
        rfl
      rw [occupied]
      dsimp only
      by_cases same : reserved.canonical = event
      · rw [if_pos same, if_neg (not_not.mpr same)]
        exact .inl ⟨_, rfl, rfl, occupancy_land _ _⟩
      · rw [if_neg same, if_pos same]
        exact .inr ⟨_, _, rfl, rfl⟩

end Recording

end SecureHome.Events
