import SecureHome.Adapters.Coding.Value

/-! The wire form of an invocation and its closed validation, the same for both coding
adapters. Each check answers with what it has checked. -/

namespace SecureHome.Adapters.Coding

/-- A tool's name in a grant is not empty. -/
abbrev ToolName := { name : String // name ≠ "" }

def isEnvHead (character : Char) : Bool := 'A' ≤ character ∧ character ≤ 'Z'

def isEnvTail (character : Char) : Bool := isEnvHead character ∨ '0' ≤ character ∧ character ≤ '9' ∨ character = '_'

/-- The grammar of an environment variable's name. -/
def isEnvVar (name : String) : Bool :=
  match name.toList with
  | [] => false
  | head :: tail => isEnvHead head && tail.all isEnvTail

/-- A NAME, never a value slot. -/
abbrev CredentialRef := { name : String // isEnvVar name = true }

/-- What the launch reads of an invocation that crossed the process boundary. -/
structure WireInvocation where
  task : String
  parameters : List (String × String)
  tools : List ToolName
  modelRoute : String
  outputBytes : Numeral
  credentials : List CredentialRef
  deriving DecidableEq, Repr

namespace WireInvocation

/-- `grant.tools` -/
def granted (invocation : WireInvocation) : List String := invocation.tools.map Subtype.val

def declared (invocation : WireInvocation) : List String := invocation.credentials.map Subtype.val

theorem granted_named {invocation : WireInvocation} {tool : String} (member : tool ∈ invocation.granted) :
    tool ≠ "" := by
  obtain ⟨name, _, rfl⟩ := List.mem_map.mp member
  exact name.2

end WireInvocation

abbrev Checked (Datum : Type) := Except String Datum

/-- Refuse with a reason where a condition does not hold. -/
def expect (holds : Bool) (refusal : String) : Checked Unit := if holds then .ok () else .error refusal

def expectSome {Datum : Type} (refusal : String) : Option Datum → Checked Datum
  | some datum => .ok datum
  | none => .error refusal

/-- Every listed key is present and none extra. -/
def checkKeys (value : Record) (place : String) (required : List String) : Checked Unit :=
  match value.find? fun entry => entry.1 ∉ required with
  | some (key, _) => .error (place ++ " carries unknown key \"" ++ key ++ "\"")
  | none =>
    match required.find? fun key => (value.lookup key).isNone with
    | some key => .error (place ++ " is missing required key \"" ++ key ++ "\"")
    | none => .ok ()

/-- An object closed over its keys. -/
def checkObject (value : Option Value) (place : String) (required : List String) : Checked Record := do
  let record ← expectSome (place ++ " must be an object") (asRecord value)
  checkKeys record place required
  return record

/-- The checks of an array's entries, each named by its index. -/
def checkEntries {Datum : Type} (check : Value → String → Checked Datum) (place : String) :
    Nat → List Value → Checked (List Datum)
  | _, [] => .ok []
  | index, entry :: rest => do
    let datum ← check entry (place ++ "[" ++ toString index ++ "]")
    let data ← checkEntries check place (index + 1) rest
    return datum :: data

def checkList {Datum : Type} (check : Value → String → Checked Datum) (value : Option Value) (place : String) :
    Checked (List Datum) := do
  let entries ← expectSome (place ++ " must be an array") (asArray value)
  checkEntries check place 0 entries

def checkCredential (entry : Value) (place : String) : Checked CredentialRef := do
  let record ← checkObject (some entry) place ["env_var"]
  match asString (record.lookup "env_var") with
  | some name =>
    if grammatical : isEnvVar name = true then return ⟨name, grammatical⟩
    else .error (place ++ ".env_var must be an environment-variable name")
  | none => .error (place ++ ".env_var must be an environment-variable name")

def checkCredentialList (value : Option Value) (place : String) : Checked (List CredentialRef) :=
  checkList checkCredential value place

/-- A text that is not empty. -/
def filled (value : Option Value) : Option ToolName :=
  match asString value with
  | some name => if held : name ≠ "" then some ⟨name, held⟩ else none
  | none => none

def checkTools (value : Option Value) : Checked (List ToolName) :=
  expectSome "grant.tools must be an array of non-empty strings"
    ((asArray value).bind fun tools => tools.mapM fun tool => filled (some tool))

def checkMount (mount : Value) (place : String) : Checked Unit := do
  let record ← checkObject (some mount) place ["path", "posture"]
  expect ((asString (record.lookup "path")).any fun path => path.toList.head? = some '/')
    (place ++ ".path must be an absolute path")
  let posture := asString (record.lookup "posture")
  expect (posture = some "read_only" ∨ posture = some "read_write")
    (place ++ ".posture must be read_only or read_write")

def checkDestination (destination : Value) (place : String) : Checked Unit := do
  let record ← checkObject (some destination) place ["host", "port"]
  expect (filled (record.lookup "host")).isSome (place ++ ".host must be a hostname")
  expect ((asNumber (record.lookup "port")).any fun port => port.isFinite && port.atLeast 1 && port.atMost 65535)
    (place ++ ".port must be a port")

def checkNetwork (value : Option Value) : Checked Unit := do
  let network ← checkObject value "grant.network" ["default", "granted_destinations"]
  expect (asString (network.lookup "default") = some "deny") "grant.network.default admits only \"deny\""
  let _ ← checkList checkDestination (network.lookup "granted_destinations") "grant.network.granted_destinations"

/-- The shape of a capability grant, closed. -/
def checkGrant (value : Option Value) : Checked (List ToolName) := do
  let grant ← checkObject value "grant" ["tools", "mounts", "network", "credentials"]
  let tools ← checkTools (grant.lookup "tools")
  let _ ← checkList checkMount (grant.lookup "mounts") "grant.mounts"
  checkNetwork (grant.lookup "network")
  let _ ← checkCredentialList (grant.lookup "credentials") "grant.credentials"
  return tools

/-- The texts of a record's keys, all filled. -/
def checkFilled (record : Record) (place : String) : List String → Checked Unit
  | [] => .ok ()
  | key :: rest => do
    expect (filled (record.lookup key)).isSome (place ++ key ++ " must be a non-empty string")
    checkFilled record place rest

def checkInput (value : Option Value) : Checked (String × List (String × String)) := do
  let input ← checkObject value "input" ["kind", "task", "parameters"]
  expect (asString (input.lookup "kind") = some "task") "input.kind admits only \"task\""
  let task ← expectSome "input.task must be a non-empty string" (filled (input.lookup "task"))
  let parameters ← expectSome "input.parameters must be a string-to-string record"
    ((asRecord (input.lookup "parameters")).bind fun entries =>
      entries.mapM fun entry => (asString (some entry.2)).map fun text => (entry.1, text))
  return (task.1, parameters)

def checkRouting (value : Option Value) : Checked String := do
  let routing ← checkObject value "routing" ["routing_class", "model_route", "fallback"]
  let _ ← expectSome "routing.routing_class must be a string" (asString (routing.lookup "routing_class"))
  let modelRoute ← expectSome "routing.model_route must be a string" (asString (routing.lookup "model_route"))
  let _ ← expectSome "routing.fallback must be a string" (asString (routing.lookup "fallback"))
  return modelRoute

def limitKeys : List String := ["wall_clock_seconds", "cpu_cores", "memory_bytes", "pids", "output_bytes"]

def positive (value : Option Value) : Option Numeral :=
  (asNumber value).filter fun numeral => numeral.isFinite && !numeral.atMost 0

def checkLimits (value : Option Value) : Checked Numeral := do
  let limits ← checkObject value "limits" limitKeys
  let checked ← limitKeys.mapM fun key =>
    expectSome ("limits." ++ key ++ " must be a positive number") (positive (limits.lookup key))
  expectSome "limits.output_bytes must be a positive number" checked.getLast?

/-- What `parseWireInvocation` makes of a decoded text. -/
def checkInvocation (raw : Value) : Checked WireInvocation := do
  let invocation ← expectSome "invocation must be a JSON object" raw.record?
  checkKeys invocation "invocation"
    ["run_id", "generation", "adapter", "profile", "input", "grant", "routing", "limits", "credentials", "workspace"]
  checkFilled invocation "" ["run_id"]
  expect ((asNumber (invocation.lookup "generation")).any Numeral.isFinite) "generation must be a number"
  checkFilled invocation "" ["adapter"]
  let profile ← checkObject (invocation.lookup "profile") "profile" ["name", "version", "digest"]
  checkFilled profile "profile." ["name", "version", "digest"]
  let (task, parameters) ← checkInput (invocation.lookup "input")
  let tools ← checkGrant (invocation.lookup "grant")
  let modelRoute ← checkRouting (invocation.lookup "routing")
  let outputBytes ← checkLimits (invocation.lookup "limits")
  let credentials ← checkCredentialList (invocation.lookup "credentials") "credentials"
  let workspace ← checkObject (invocation.lookup "workspace") "workspace" ["session_ref", "root_ref"]
  checkFilled workspace "workspace." ["session_ref", "root_ref"]
  return { task, parameters, tools, modelRoute, outputBytes, credentials }

/-- One wire invocation, closed. A refusal is an answer and never a throw. -/
def parseWireInvocation (parse : String → Option Value) (bytes : String) : Checked WireInvocation :=
  match parse bytes with
  | none => .error "invocation is not valid JSON"
  | some raw => checkInvocation raw

end SecureHome.Adapters.Coding
