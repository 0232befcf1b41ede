import SecureHome.Ports.Values
import Mathlib.Logic.Function.Basic

/-! Event emission of one run. A sequence is allocated before the sink is asked: an unknown
outcome keeps it, a refusal by the fence gives it back, and an identity that another event
occupies is walked past. -/

namespace SecureHome.Events
open Ports

structure EventIdentity where
  runId : String
  adapter : String
  generation : Nat
  deriving DecidableEq, Repr

/-- The envelope around a body. No field of the body replaces one of it. -/
structure Candidate (Body : Type) where
  body : Body
  runId : String
  sequence : Nat
  timestamp : String
  adapter : String
  deriving DecidableEq, Repr

inductive EmitReason where
  | contractInvalid
  | sinkFailed
  | staleFence
  deriving DecidableEq, Repr

inductive EmitOutcome (Event : Type) where
  | ok (event : Event)
  | refused (reason : EmitReason) (detail : String)
  /-- The promise is rejected: by the clock, or by the interrupt of a run. -/
  | raised (message : String)
  deriving DecidableEq, Repr

section Sink

variable {Event : Type} [DecidableEq Event]

/-- The events that occupy the identities of a run. -/
abbrev Occupancy (Event : Type) := Nat → Option Event

/-- What becomes of a request that the sink takes. -/
inductive Fate where
  | answered
  | staleFence (detail : String)
  | unacknowledged (interrupt : Bool) (message : String)
  /-- Thrown before anything landed. -/
  | lost (interrupt : Bool) (message : String)
  deriving DecidableEq, Repr

inductive SinkAnswer where
  | returned (outcome : FenceOutcome)
  | thrown (interrupt : Bool) (message : String)
  deriving DecidableEq, Repr

/-- Another writer's event lands where nothing is. -/
def occupy (contents : Occupancy Event) (landing : Nat × Event) : Occupancy Event :=
  match contents landing.1 with
  | some _ => contents
  | none => Function.update contents landing.1 (some landing.2)

/-- A sink that keeps the replay contract: the event at an identity stays, the same event again is
acknowledged, and another one conflicts. Beside the answer, whether the event lands. -/
def sinkEmit (contents : Occupancy Event) (sequence : Nat) (event : Event) : Fate → SinkAnswer × Bool
  | .staleFence detail => (.returned (.refused .staleFence detail), false)
  | .lost interrupt message => (.thrown interrupt message, false)
  | .unacknowledged interrupt message => (.thrown interrupt message, (contents sequence).isNone)
  | .answered =>
    match contents sequence with
    | none => (.returned .ok, true)
    | some durable =>
      if durable = event then (.returned .ok, false)
      else (.returned (.refused .conflictingReplay "the identity already carries a different event"), false)

end Sink

section Emitter

variable {Body Event : Type} [DecidableEq Event]

/-- What one pass of the loop meets: the clock, the events of other writers, and the sink. -/
structure Turn (Event : Type) where
  reading : Except String String
  others : List (Nat × Event) := []
  fate : Fate := .answered

/-- The emitter, beside its sink and what it landed there. -/
structure RunEventEmitter (Event : Type) where
  sequence : Nat := 0
  emitted : List Event := []
  contents : Occupancy Event
  landed : List (Nat × Event) := []
  /-- What the sink held when it was last asked. -/
  asked : Occupancy Event := fun _ => none

variable (safeParse : Candidate Body → Except String Event) (identity : EventIdentity)

/-- One pass of the loop of `emit`. There is no outcome where it goes on. -/
def attempt (body : Body) (turn : Turn Event) (emitter : RunEventEmitter Event) : Option (EmitOutcome Event) × RunEventEmitter Event :=
  match turn.reading with
  | .error message => (some (.raised message), emitter)
  | .ok timestamp =>
    match safeParse ⟨body, identity.runId, emitter.sequence, timestamp, identity.adapter⟩ with
    | .error issues => (some (.refused .contractInvalid issues), emitter)
    | .ok event =>
      let asked := turn.others.foldl occupy emitter.contents
      let (answer, lands) := sinkEmit asked emitter.sequence event turn.fate
      let served :=
        { emitter with
          sequence := emitter.sequence + 1
          asked
          contents := if lands then Function.update asked emitter.sequence (some event) else asked
          landed := if lands then emitter.landed ++ [(emitter.sequence, event)] else emitter.landed }
      match answer with
      | .thrown true message => (some (.raised message), served)
      | .thrown false message => (some (.refused .sinkFailed message), served)
      | .returned .ok => (some (.ok event), { served with emitted := emitter.emitted ++ [event] })
      | .returned (.refused .conflictingReplay _) => (none, served)
      | .returned (.refused .staleFence detail) => (some (.refused .staleFence detail), { served with sequence := emitter.sequence })

/-- `emit`, of the turns there are. -/
def emit (body : Body) : List (Turn Event) → RunEventEmitter Event → Option (EmitOutcome Event × RunEventEmitter Event)
  | [], _ => none
  | turn :: rest, emitter =>
    match attempt safeParse identity body turn emitter with
    | (some outcome, after) => some (outcome, after)
    | (none, after) => emit body rest after

/-- Emit calls, each awaited before the next. -/
def emitAll : List (Body × List (Turn Event)) → RunEventEmitter Event → Option (RunEventEmitter Event)
  | [], emitter => some emitter
  | (body, turns) :: rest, emitter => (emit safeParse identity body turns emitter).bind fun (_, after) => emitAll rest after

end Emitter

end SecureHome.Events
