import SecureHome.Adapters.Coding.Spi
import SecureHome.Contracts.Shapes

/-! The launch plan of an invocation, for each of the two providers. A plan is a faithful
translation or a refusal. -/

namespace SecureHome.Adapters.Coding
open Contracts

/-- Names only: the plan has no field a credential's value could occupy. -/
structure LaunchPlan where
  command : String
  argv : List String
  requiredEnv : List String
  deriving DecidableEq, Repr

abbrev PlanResult := Except String LaunchPlan

/-- A character that could separate tool identities in a provider's tool list. -/
def isToolDelimiter (character : Char) : Bool := isWhiteSpace character || character = ','

/-- The grant's entry is one tool identity to the provider. -/
def expressibleAsOneToolIdentity (tool : String) : Bool := !tool.toList.any isToolDelimiter

def hexDigits (number : Nat) : List Char :=
  let digits := Nat.toDigits 16 number
  List.replicate (4 - digits.length) '0' ++ digits

/-- A character as `JSON.stringify` writes it. -/
def escaped (character : Char) : List Char :=
  if character = '\x22' ∨ character = '\x5c' then ['\x5c', character]
  else if character = '\n' then ['\x5c', 'n']
  else if character = '\r' then ['\x5c', 'r']
  else if character = '\t' then ['\x5c', 't']
  else if character.toNat = 8 then ['\x5c', 'b']
  else if character.toNat = 12 then ['\x5c', 'f']
  else if character.toNat < 32 then '\x5c' :: 'u' :: hexDigits character.toNat
  else [character]

def stringify (text : String) : String := String.ofList ('\x22' :: text.toList.flatMap escaped ++ ['\x22'])

/-- The pinned providers have no surface for platform parameters. -/
def refuseParameters (package : String) (parameters : List (String × String)) : Except String Unit :=
  if parameters = [] then .ok ()
  else
    .error ("input.parameters is not expressible by the " ++ package ++ " CLI (keys: " ++
      String.intercalate ", " (parameters.map Prod.fst) ++ "); no faithful translation exists")

def refuseInexpressible (why : String) (granted : List String) : Except String Unit :=
  match granted.find? fun tool => !expressibleAsOneToolIdentity tool with
  | none => .ok ()
  | some tool =>
    .error ("grant.tools entry " ++ stringify tool ++ " is not expressible as one provider tool identity — " ++
      why ++ "; no faithful translation exists")

namespace Claude

def command : String := "claude"

def package : String := "@anthropic-ai/claude-code"

/-- A tool list travels as one comma-joined token. -/
def toolList (tools : List String) : String := String.intercalate "," tools

def argv (invocation : WireInvocation) : List String :=
  ["--print", "--output-format", "stream-json", "--verbose", "--setting-sources", "", "--tools",
    toolList invocation.granted, "--model", invocation.modelRoute] ++
  (if invocation.granted = [] then [] else ["--allowedTools", toolList invocation.granted]) ++
  [invocation.task]

def planLaunch (invocation : WireInvocation) : PlanResult := do
  refuseParameters package invocation.parameters
  refuseInexpressible
    ("the CLI splits tool lists on commas AND whitespace, so passing it would widen one grant entry into " ++
      "multiple provider tools") invocation.granted
  return ⟨command, argv invocation, invocation.declared⟩

end Claude

namespace Copilot

def command : String := "copilot"

def package : String := "@github/copilot"

/-- Per-run state isolation the substrate must provision. -/
def isolationEnv : String := "COPILOT_HOME"

/-- What a plain object inherits under a name, written into a text. -/
def inheritedText (name : String) : String :=
  if name = "__proto__" then "[object Object]"
  else "function " ++ (if name = "constructor" then "Object" else name) ++ "() \x7b [native code] \x7d"

/-- What reading `PERMISSION_FAMILIES` at a tool's name gives: its one own key, or what
the object inherits. -/
def permissionFamily (tool : String) : Option String :=
  if tool = "bash" then some "shell"
  else if tool ∈ objectPrototypeNames then some (inheritedText tool)
  else none

def hermetic (invocation : WireInvocation) : List String :=
  ["-p", invocation.task, "--model", invocation.modelRoute, "--output-format", "json", "--stream", "off",
    "--no-color", "--no-custom-instructions", "--no-auto-update", "--disable-builtin-mcps", "--no-remote",
    "--no-remote-export", "--no-ask-user"]

/-- Availability first, permission second, the shell closed where `bash` is not granted,
then the declared credentials. An empty grant states the empty set. -/
def argv (invocation : WireInvocation) : List String :=
  hermetic invocation ++
  (if invocation.granted = [] then ["--available-tools", "--allow-tool"] else []) ++
  (invocation.granted.map fun tool => "--available-tools=" ++ tool) ++
  ((invocation.granted.filterMap permissionFamily).map fun family => "--allow-tool=" ++ family) ++
  (if "bash" ∈ invocation.granted then [] else ["--deny-tool=shell"]) ++
  invocation.declared.map fun credential => "--secret-env-vars=" ++ credential

def planLaunch (invocation : WireInvocation) : PlanResult := do
  refuseParameters package invocation.parameters
  refuseInexpressible
    ("the provider's value parsing is not proven single-valued for commas or whitespace, so translating it " ++
      "could widen the grant into multiple provider tools") invocation.granted
  return ⟨command, argv invocation, invocation.declared ++ [isolationEnv]⟩

end Copilot

end SecureHome.Adapters.Coding
