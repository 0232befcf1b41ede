import SecureHome.Adapters.Coding.Collector

/-! The two surfaces of the `copilot` provider's transcript and the observation they
come to. -/

namespace SecureHome.Adapters.Coding.Copilot
open Contracts

/-- What the process boundary saw: both surfaces and the exit. -/
structure CapturedRun where
  stdout : String
  /-- The persisted events, unless that surface is absent. -/
  eventsJsonl : Option String
  exitCode : Option Int
  signalled : Option String
  deriving DecidableEq, Repr

/-- The frames of both surfaces, the persisted one last. -/
def bothSurfaces (parse : String → Option Value) (captured : CapturedRun) : List Record :=
  frames parse captured.stdout ++ ((captured.eventsJsonl.map (frames parse)).getD [])

inductive Surface where
  | stdout
  | events
  deriving DecidableEq, Repr

def Surface.label : Surface → String
  | stdout => "stdout"
  | events => "events"

def spellsCost (key : String) : Bool := key.toLower.toList.tails.any ("cost".toList.isPrefixOf ·)

/-- The native usage numbers of a terminal frame. Keys spelled as a cost are left out. -/
def consumeUsage (usage : Record) (out : BudgetedCollector) : BudgetedCollector :=
  usage.foldl
    (fun out (key, value) =>
      if spellsCost key then out
      else
        match value with
        | .number amount => out.measure key amount
        | .object entries =>
          entries.foldl
            (fun out (inner, value) =>
              if spellsCost inner then out
              else
                match value with
                | .number amount => out.measure (key ++ "." ++ inner) amount
                | _ => out) out
        | _ => out) out

/-- The type a frame goes by. -/
def frameType (frame : Record) : Option String :=
  (asString (frame.lookup "type")).orElse fun _ =>
    (asString (frame.lookup "event")).orElse fun _ => asString (frame.lookup "name")

def requestName (request : Record) : Option String :=
  (asString (request.lookup "name")).orElse fun _ => asString (request.lookup "tool")

/-- One tool request of a message. -/
def consumeRequest (reading : Reading) (request : Value) : Reading :=
  match request.record? with
  | none => reading
  | some request =>
    match asString (request.lookup "toolCallId"), requestName request with
    | some id, some name => { reading with pendingCalls := reading.pendingCalls.set id name }
    | _, _ => reading

def consumeContent (reading : Reading) (frame : Record) : Reading :=
  match (asString (frame.lookup "content")).orElse fun _ => asString (frame.lookup "text") with
  | some text => if text = "" then reading else { reading with out := reading.out.claim text }
  | none => reading

def consumeMessage (reading : Reading) (frame : Record) : Reading :=
  match asArray (frame.lookup "toolRequests") with
  | none => consumeContent reading frame
  | some requests => requests.foldl consumeRequest (consumeContent reading frame)

/-- Whether a completion carries the provider's denial. -/
def completionDenied (frame : Record) : Bool :=
  (asRecord (frame.lookup "error")).bind (fun error => asString (error.lookup "code")) = some "denied"

/-- A completion is joined to its request by id; without one it is an event. -/
def consumeCompletion (surface : Surface) (reading : Reading) (frame : Record) (time : String) : Reading :=
  let denied := completionDenied frame
  let uncorrelated :=
    { reading with
      out := reading.out.event "call.uncorrelated" time
        [("surface", surface.label), ("disposition", if denied then "denied" else "permitted")] }
  match asString (frame.lookup "toolCallId") with
  | none => uncorrelated
  | some id =>
    match reading.pendingCalls.lookup id with
    | none => uncorrelated
    | some tool =>
      { reading with
        pendingCalls := reading.pendingCalls.delete id
        out := reading.out.call tool (dispositionOf denied) (some id) }

def permissionKind (frame : Record) : String :=
  ((asRecord (frame.lookup "result")).bind fun result => asString (result.lookup "kind")).getD ""

def permissionTool (frame : Record) : Option String :=
  (asString (frame.lookup "tool")).orElse fun _ => asString (frame.lookup "toolName")

def permissionDenied (frame : Record) : Bool := "denied".toList.isPrefixOf (permissionKind frame).toList

/-- The source does not read the id of the call the permission is for. -/
def consumePermission (surface : Surface) (reading : Reading) (frame : Record) (time : String) : Reading :=
  let kind := permissionKind frame
  let tool := permissionTool frame
  let out :=
    match tool with
    | some tool =>
      if permissionDenied frame then reading.out.call tool .denied (asString (frame.lookup "toolCallId"))
      else reading.out
    | none => reading.out
  let data := [("surface", surface.label)] ++ (if kind = "" then [] else [("kind", kind)]) ++
    (tool.map fun tool => ("tool", tool)).toList
  { reading with out := out.event "permission.completed" time data }

/-- The exit code a frame carries, in its result where that is a record. -/
def frameExit (frame : Record) : Option Numeral :=
  match asRecord (frame.lookup "result") with
  | some result => asNumber (result.lookup "exitCode")
  | none => asNumber (frame.lookup "exitCode")

def frameUsage (frame : Record) : Option Record :=
  match asRecord (frame.lookup "result") with
  | some result => asRecord (result.lookup "usage")
  | none => asRecord (frame.lookup "usage")

/-- What is left once no other type is recognized. -/
def consumeOther (surface : Surface) (reading : Reading) (frame : Record) (type time : String) : Reading :=
  match frameExit frame with
  | some exitCode =>
    let out :=
      match frameUsage frame with
      | some usage => consumeUsage usage reading.out
      | none => reading.out
    { reading with out, terminal := ⟨some exitCode.text, some type⟩ }
  | none =>
    if type = "tool.execution_start" ∨ type = "permission.requested" then
      { reading with out := reading.out.event type time [("surface", surface.label)] }
    else
      { reading with
        out := reading.out.event "transcript.unrecognized" time
          [("frame_type", describe type), ("surface", surface.label)] }

def consumeFrame (surface : Surface) (reading : Reading) (frame : Record) : Reading :=
  let time := (asString (frame.lookup "timestamp")).getD ""
  match frameType frame with
  | none =>
    { reading with
      out := reading.out.event "transcript.malformed" time
        [("reason", "frame without a type"), ("surface", surface.label)] }
  | some "assistant.message" => consumeMessage reading frame
  | some "tool.execution_complete" => consumeCompletion surface reading frame time
  | some "permission.completed" => consumePermission surface reading frame time
  | some "session.shutdown" =>
    let data := [("surface", surface.label)] ++
      ((asString (frame.lookup "reason")).map fun reason => ("reason", reason)).toList
    { reading with out := reading.out.event "session.shutdown" time data }
  | some type => consumeOther surface reading frame type time

/-- One line of a surface, read with `JSON.parse`. -/
def consumeLine (parse : String → Option Value) (surface : Surface) (reading : Reading) (line : String) : Reading :=
  if isBlank line then reading
  else
    match parse line with
    | none =>
      { reading with
        out := reading.out.event "transcript.malformed" ""
          [("reason", "unparseable line"), ("line", describe line), ("surface", surface.label)] }
    | some value =>
      match value.record? with
      | none =>
        { reading with
          out := reading.out.event "transcript.malformed" ""
            [("reason", "frame is not an object"), ("surface", surface.label)] }
      | some frame => consumeFrame surface reading frame

def consumeSurface (parse : String → Option Value) (bytes : String) (surface : Surface) (reading : Reading) : Reading :=
  (lines bytes).foldl (consumeLine parse surface) reading

/-- Total over arbitrary text. A missing surface is itself an observation. -/
def observeRun (parse : String → Option Value) (captured : CapturedRun) (outputBudgetBytes : Numeral) :
    AdapterObservation :=
  let reading := consumeSurface parse captured.stdout .stdout { out := { budget := outputBudgetBytes } }
  let reading :=
    match captured.eventsJsonl with
    | some bytes => consumeSurface parse bytes .events reading
    | none =>
      { reading with out := reading.out.event "transcript.surface_missing" "" [("surface", "events")] }
  reading.observe captured.exitCode captured.signalled

end SecureHome.Adapters.Coding.Copilot
