import SecureHome.Adapters.Coding.Spi
import SecureHome.Contracts.Shapes
import SecureHome.Governance.JsonParse
import SecureHome.Toolchain.TaskDelta

/-! The wire between the runner and a coding adapter. What the running phase asks of an adapter
crosses as the text of one JSON object, and is checked on the other side. -/

namespace SecureHome.Adapters.Coding
open Lib Governance
open Toolchain (isDigitUnit isLowerUnit intToken prefixedSha256)

section Received

/-- A string as the checks read it. Half a surrogate pair stands as the replacement character. -/
def textAsRead (string : JsString) : String := String.ofList (scalarValues string)

/-- A number in all its digits. -/
def numeralOf : JsonNumber → Numeral
  | .finite double => .decimal (if double.negative then -double.allDigits.1 else double.allDigits.1) double.allDigits.2
  | .infinite negative => .infinite negative

mutual

def decode : Json JsonNumber → Value
  | .null => .null
  | .boolean value => .boolean value
  | .number value => .number (numeralOf value)
  | .string value => .text (textAsRead value)
  | .array items => .array (decodeItems items)
  | .object fields => .object (decodeFields fields)

def decodeItems : List (Json JsonNumber) → List Value
  | [] => []
  | item :: rest => decode item :: decodeItems rest

def decodeFields : List (JsString × Json JsonNumber) → List (String × Value)
  | [] => []
  | (name, value) :: rest => (textAsRead name, decode value) :: decodeFields rest

end

/-- `parseWireInvocation` of a string, with the platform's `JSON.parse`. -/
def parseWireText (bytes : JsString) : Checked WireInvocation :=
  match jsonParse bytes with
  | none => .error "invocation is not valid JSON"
  | some raw => checkInvocation (decode raw)

end Received

namespace Wire

section Contracts

/-- `[a-z][a-z0-9-]{0,63}` -/
def isKebab : JsString → Bool
  | [] => false
  | first :: rest => isLowerUnit first && rest.length ≤ 63 && rest.all fun unit => isLowerUnit unit || isDigitUnit unit || unit = 0x2d

/-- Three numbers without leading zeros. -/
def isSemVer (value : JsString) : Bool :=
  match value.splitOn 0x2e with
  | [major, minor, patch] => intToken major && intToken minor && intToken patch
  | _ => false

/-- `[a-z0-9]([a-z0-9.-]{0,251}[a-z0-9])?` -/
def isHost : JsString → Bool
  | [] => false
  | first :: rest =>
    let plain (unit : UInt16) := isLowerUnit unit || isDigitUnit unit
    plain first && (rest.isEmpty || rest.length ≤ 252 && rest.getLast?.any plain && rest.all fun unit => plain unit || unit
        = 0x2e || unit = 0x2d)

def routingClasses : List JsString := [units "R0", units "R1", units "R2", units "R3"]

def maxSafeNatural : ℕ := 2 ^ 53 - 1

/-- An integer that is at least one and at most a bound. -/
def IsWithin (bound : ℕ) (double : Double) : Prop :=
  double.negative = false ∧ ∃ number : ℕ, 0 < number ∧ number ≤ bound ∧ double.magnitude = number

def IsPositive (double : Double) : Prop := double.negative = false ∧ 0 < double.magnitude

structure Mount where
  path : JsString
  posture : Contracts.MountPosture

structure Destination where
  host : JsString
  port : Double

structure CapabilityGrant where
  tools : List JsString
  mounts : List Mount
  grantedDestinations : List Destination
  credentials : List JsString

structure Limits where
  wallClockSeconds : Double
  cpuCores : Double
  memoryBytes : Double
  pids : Double
  outputBytes : Double

/-- What the running phase reads of a captured execution profile. -/
structure ExecutionProfile where
  name : JsString
  version : JsString
  digest : JsString
  adapter : JsString
  capability : CapabilityGrant
  routingClass : JsString
  modelRoute : JsString
  fallback : JsString
  limits : Limits

/-- The rules of the contracts. -/
structure CapabilityGrant.Valid (grant : CapabilityGrant) : Prop where
  tools : ∀ tool ∈ grant.tools, tool ≠ []
  mounts : ∀ mount ∈ grant.mounts, mount.path.head? = some 0x2f
  hosts : ∀ destination ∈ grant.grantedDestinations, isHost destination.host = true
  ports : ∀ destination ∈ grant.grantedDestinations, IsWithin 65535 destination.port
  credentials : ∀ name ∈ grant.credentials, isEnvVar (textAsRead name) = true

structure ExecutionProfile.Valid (profile : ExecutionProfile) : Prop where
  name : isKebab profile.name = true
  version : isSemVer profile.version = true
  digest : prefixedSha256 profile.digest = true
  adapter : isKebab profile.adapter = true
  capability : profile.capability.Valid
  routingClass : profile.routingClass ∈ routingClasses
  modelRoute : profile.modelRoute ≠ []
  fallback : profile.fallback ≠ []
  wallClockSeconds : IsWithin maxSafeNatural profile.limits.wallClockSeconds
  cpuCores : IsPositive profile.limits.cpuCores
  memoryBytes : IsWithin maxSafeNatural profile.limits.memoryBytes
  pids : IsWithin maxSafeNatural profile.limits.pids
  outputBytes : IsWithin maxSafeNatural profile.limits.outputBytes

end Contracts

section Sent

/-- A record from strings to strings, its properties in the order they are enumerated. -/
structure Parameters where
  fields : Fields Double
  strings : ∀ field ∈ fields, ∃ value, field.2 = .string value
  distinct : (fields.map Prod.fst).Nodup
  ordered : enumerated fields = fields

/-- What an invocation carries of a run request. -/
structure RunRequest where
  runId : JsString
  task : JsString
  parameters : Parameters

def object (fields : List (String × Json Double)) : Json Double := .object (fields.map fun field => (units field.1, field.2))

def credentialsJson (names : List JsString) : Json Double := .array (names.map fun name => object [("env_var", .string name)])

def postureText : Contracts.MountPosture → String
  | .readOnly => "read_only"
  | .readWrite => "read_write"

def Mount.json (mount : Mount) : Json Double := object [("path", .string mount.path), ("posture", .string (units (postureText mount.posture)))]

def Destination.json (destination : Destination) : Json Double :=
  object [("host", .string destination.host), ("port", .number destination.port)]

def CapabilityGrant.json (grant : CapabilityGrant) : Json Double :=
  object [("tools", .array (grant.tools.map .string)), ("mounts", .array (grant.mounts.map Mount.json)),
    ("network", object [("default", .string (units "deny")),
      ("granted_destinations", .array (grant.grantedDestinations.map Destination.json))]),
    ("credentials", credentialsJson grant.credentials)]

def Limits.json (limits : Limits) : Json Double :=
  object [("wall_clock_seconds", .number limits.wallClockSeconds), ("cpu_cores", .number limits.cpuCores),
    ("memory_bytes", .number limits.memoryBytes), ("pids", .number limits.pids), ("output_bytes", .number limits.outputBytes)]

/-- The reference of the session, if one is open, and of the one that would be otherwise. -/
def sessionRef (request : RunRequest) (session : Option JsString) : JsString := session.getD (units "session:" ++ request.runId)

/-- What `running` asks of an adapter, without its signal. -/
def invocation (request : RunRequest) (generation : Double) (profile : ExecutionProfile) (session : Option JsString) : Json Double :=
  object [("run_id", .string request.runId), ("generation", .number generation), ("adapter", .string profile.adapter),
    ("profile", object [("name", .string profile.name), ("version", .string profile.version), ("digest", .string profile.digest)]),
    ("input", object [("kind", .string (units "task")), ("task", .string request.task), ("parameters", .object request.parameters.fields)]),
    ("grant", profile.capability.json),
    ("routing", object [("routing_class", .string profile.routingClass), ("model_route", .string profile.modelRoute),
      ("fallback", .string profile.fallback)]),
    ("limits", profile.limits.json),
    ("credentials", credentialsJson profile.capability.credentials),
    ("workspace", object [("session_ref", .string (sessionRef request session)),
      ("root_ref", .string (units "workspace:" ++ request.runId))])]

/-- `JSON.stringify` of it. -/
def invocationText (request : RunRequest) (generation : Double) (profile : ExecutionProfile) (session : Option JsString) : JsString :=
  Governance.stringify (written (invocation request generation profile session))

end Sent

end Wire

end SecureHome.Adapters.Coding
