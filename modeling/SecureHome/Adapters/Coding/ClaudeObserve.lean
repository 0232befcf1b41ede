import SecureHome.Adapters.Coding.Collector

/-! The stream-json transcript of the `claude` provider and the observation it comes to. -/

namespace SecureHome.Adapters.Coding.Claude
open Contracts

/-- What the process boundary saw. -/
structure CapturedRun where
  stdout : String
  exitCode : Option Int
  signalled : Option String
  deriving DecidableEq, Repr

def usageUnits : List String :=
  ["input_tokens", "output_tokens", "cache_creation_input_tokens", "cache_read_input_tokens"]

/-- One block of a message. A result means the call happened; denials arrive on the
result frame. -/
def consumeBlock (reading : Reading) (block : Value) : Reading :=
  match block.record? with
  | none => reading
  | some block =>
    match asString (block.lookup "type") with
    | some "text" =>
      match asString (block.lookup "text") with
      | some text => { reading with out := reading.out.claim text }
      | none => reading
    | some "tool_use" =>
      match asString (block.lookup "id"), asString (block.lookup "name") with
      | some id, some name => { reading with pendingCalls := reading.pendingCalls.set id name }
      | _, _ => reading
    | some "tool_result" =>
      match asString (block.lookup "tool_use_id") with
      | none => reading
      | some id =>
        match reading.pendingCalls.lookup id with
        | none => reading
        | some tool =>
          { reading with
            pendingCalls := reading.pendingCalls.delete id
            out := reading.out.call tool .permitted (some id) }
    | _ => reading

/-- One entry of a result frame's denials. The source reads the tool's name alone. -/
def consumeDenial (reading : Reading) (denial : Value) : Reading :=
  match denial.record? with
  | none => reading
  | some denial =>
    match asString (denial.lookup "tool_name") with
    | none => reading
    | some tool => { reading with out := reading.out.call tool .denied (asString (denial.lookup "tool_use_id")) }

def consumeUsage (out : BudgetedCollector) (frame : Record) : BudgetedCollector :=
  let out :=
    match asRecord (frame.lookup "usage") with
    | none => out
    | some usage =>
      usageUnits.foldl
        (fun out unit => match asNumber (usage.lookup unit) with
          | some amount => out.measure unit amount
          | none => out) out
  match asNumber (frame.lookup "num_turns") with
  | some turns => out.measure "turns" turns
  | none => out

/-- What a result frame says its outcome was. -/
def reportedOutcome (frame : Record) : String :=
  match asString (frame.lookup "subtype") with
  | some subtype => subtype
  | none =>
    match frame.lookup "is_error" with
    | some (.boolean failed) => if failed then "true" else "false"
    | _ => "result"

def consumeDenials (reading : Reading) (frame : Record) : Reading :=
  match asArray (frame.lookup "permission_denials") with
  | none => reading
  | some denials => denials.foldl consumeDenial reading

def consumeResult (reading : Reading) (frame : Record) : Reading :=
  let reading := consumeDenials { reading with terminal := ⟨some (reportedOutcome frame), some "result"⟩ } frame
  let out := consumeUsage reading.out frame
  match asString (frame.lookup "result") with
  | none => { reading with out }
  | some result => { reading with out := if result = "" then out else out.claim result }

def systemData (frame : Record) : List (String × String) :=
  (["subtype", "model", "session_id"].filterMap fun key =>
    (asString (frame.lookup key)).map fun content => (key, content))

def messageContent (frame : Record) : Option (List Value) :=
  asArray ((asRecord (frame.lookup "message")).bind (·.lookup "content"))

def consumeMessage (reading : Reading) (frame : Record) (time : String) : Reading :=
  match messageContent frame with
  | none =>
    { reading with
      out := reading.out.event "transcript.malformed" time [("reason", "message frame without content array")] }
  | some content => content.foldl consumeBlock reading

/-- One recognized frame, dispatched; anything else is observed as such. -/
def consumeFrame (reading : Reading) (frame : Record) : Reading :=
  let time := (asString (frame.lookup "timestamp")).getD ""
  match asString (frame.lookup "type") with
  | some "system" => { reading with out := reading.out.event "session.system" time (systemData frame) }
  | some "assistant" => consumeMessage reading frame time
  | some "user" => consumeMessage reading frame time
  | some "result" => consumeResult reading frame
  | type =>
    { reading with
      out := reading.out.event "transcript.unrecognized" time [("frame_type", type.getD "absent")] }

/-- One line of the transcript, read with `JSON.parse`. -/
def consumeLine (parse : String → Option Value) (reading : Reading) (line : String) : Reading :=
  if isBlank line then reading
  else
    match parse line with
    | none =>
      { reading with
        out := reading.out.event "transcript.malformed" ""
          [("reason", "unparseable line"), ("line", describe line)] }
    | some value =>
      match value.record? with
      | none =>
        { reading with
          out := reading.out.event "transcript.malformed" "" [("reason", "frame is not an object")] }
      | some frame => consumeFrame reading frame

/-- Total over arbitrary text: every input yields an observation. -/
def observeRun (parse : String → Option Value) (captured : CapturedRun) (outputBudgetBytes : Numeral) :
    AdapterObservation :=
  let reading := (lines captured.stdout).foldl (consumeLine parse) { out := { budget := outputBudgetBytes } }
  reading.observe captured.exitCode captured.signalled

end SecureHome.Adapters.Coding.Claude
