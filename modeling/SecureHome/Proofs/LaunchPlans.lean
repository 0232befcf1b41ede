import SecureHome.Adapters.Coding.Plan

/-! What a provider's command line reads in a launch plan, against the grant the plan
was made from. -/

namespace SecureHome.Adapters.Coding
open Contracts

/-- One argument as the command line takes it. -/
inductive Argument where
  | option (flag : String) (value : Option String)
  | operand (text : String)
  deriving DecidableEq, Repr

def startsWithDash (element : String) : Bool := element.toList.head? = some '-'

/-- The flag of an element, up to the sign that attaches its value. -/
def flagOf (element : String) : String := String.ofList (element.toList.takeWhile (· ≠ '='))

def attached (element : String) : Option String :=
  match element.toList.dropWhile (· ≠ '=') with
  | [] => none
  | _ :: value => some (String.ofList value)

/-- Arguments read left to right. An element that begins with a dash is an option unless
it is the value of a flag before it that takes one. -/
def readArgv (takesValue : List String) : List String → List Argument
  | [] => []
  | element :: rest =>
    if startsWithDash element then
      if element ∈ takesValue then
        match rest with
        | [] => [.option element none]
        | value :: rest => .option element (some value) :: readArgv takesValue rest
      else .option (flagOf element) (attached element) :: readArgv takesValue rest
    else .operand element :: readArgv takesValue rest

/-- The options of a command line, in order. -/
def optionsOf (arguments : List Argument) : List String :=
  arguments.filterMap fun
    | .option flag _ => some flag
    | .operand _ => none

/-- What a flag carries at each of its occurrences. -/
def valuesOf (flag : String) (arguments : List Argument) : List (Option String) :=
  arguments.filterMap fun
    | .option other value => if other = flag then some value else none
    | .operand _ => none

/-- The tool identities a token is split into, on commas and white space. -/
def identities (token : String) : List String :=
  ((token.toList.splitOnP isToolDelimiter).filter (· ≠ [])).map String.ofList

theorem valuesOf_append (flag : String) (first rest : List Argument) :
    valuesOf flag (first ++ rest) = valuesOf flag first ++ valuesOf flag rest :=
  List.filterMap_append

theorem optionsOf_append (first rest : List Argument) : optionsOf (first ++ rest) = optionsOf first ++ optionsOf rest :=
  List.filterMap_append

theorem valuesOf_own (flag : String) (values : List String) :
    valuesOf flag (values.map fun value => Argument.option flag (some value)) = values.map some := by
  simp [valuesOf, List.filterMap_map]

theorem valuesOf_other {flag other : String} (apart : other ≠ flag) (values : List String) :
    valuesOf flag (values.map fun value => Argument.option other (some value)) = [] := by
  simp [valuesOf, List.filterMap_map, apart]

theorem optionsOf_flag (flag : String) (values : List String) :
    optionsOf (values.map fun value => Argument.option flag (some value)) = values.map fun _ => flag := by
  simp [optionsOf, List.filterMap_map]

namespace Claude

def takesValue : List String := ["--output-format", "--setting-sources", "--tools", "--model", "--allowedTools"]

def ownFlags (invocation : WireInvocation) : List String :=
  ["--print", "--output-format", "--verbose", "--setting-sources", "--tools", "--model"] ++
    if invocation.granted = [] then [] else ["--allowedTools"]

/-- The tokens of a flag state the grant's tools, once where the flag is meant to be there. -/
def StatesGrant (invocation : WireInvocation) (values : List (Option String)) : Prop :=
  ∃ token, values = [some token] ∧ identities token = invocation.granted

/-- The plan states exactly the grant: both tool tokens split into it, the second is
there just for a grant that is not empty, and the options read are the plan's own. -/
structure Exact (invocation : WireInvocation) (arguments : List Argument) : Prop where
  tools : StatesGrant invocation (valuesOf "--tools" arguments)
  allowed : if invocation.granted = [] then valuesOf "--allowedTools" arguments = []
    else StatesGrant invocation (valuesOf "--allowedTools" arguments)
  options : optionsOf arguments = ownFlags invocation

end Claude

namespace Copilot

def takesValue : List String := ["-p", "--model", "--output-format", "--stream"]

def hermeticFlags : List String :=
  ["-p", "--model", "--output-format", "--stream", "--no-color", "--no-custom-instructions", "--no-auto-update",
    "--disable-builtin-mcps", "--no-remote", "--no-remote-export", "--no-ask-user"]

def ownFlags (invocation : WireInvocation) : List String :=
  hermeticFlags ++ (if invocation.granted = [] then ["--available-tools", "--allow-tool"] else []) ++
    (invocation.granted.map fun _ => "--available-tools") ++ ((invocation.granted.filterMap permissionFamily).map fun _ => "--allow-tool") ++
    (if "bash" ∈ invocation.granted then [] else ["--deny-tool"]) ++ invocation.declared.map fun _ => "--secret-env-vars"

/-- The plan states exactly the grant: the available tools are the granted ones or the
bare flag, the shell is allowed once for each granted `bash` and nothing else is, it is
denied just where `bash` is not granted, the secrets are the declared credentials, and
the options read are the plan's own. -/
structure Exact (invocation : WireInvocation) (arguments : List Argument) : Prop where
  available : valuesOf "--available-tools" arguments =
    if invocation.granted = [] then [none] else invocation.granted.map fun tool => some tool
  allowed : (valuesOf "--allow-tool" arguments).filterMap id =
    (invocation.granted.filter fun tool => tool = "bash").map fun _ => "shell"
  denied : valuesOf "--deny-tool" arguments =
    if "bash" ∈ invocation.granted then [] else [some "shell"]
  secrets : valuesOf "--secret-env-vars" arguments = invocation.declared.map fun credential => some credential
  options : optionsOf arguments = ownFlags invocation

end Copilot

private theorem splitOnP_intercalate {Item : Type} {delimits : Item → Bool} {separator : Item}
    (separates : delimits separator = true) {words : List (List Item)}
    (clean : ∀ word ∈ words, ∀ item ∈ word, delimits item = false) (filled : words ≠ []) :
    ([separator].intercalate words).splitOnP delimits = words := by
  induction words with
  | nil => exact absurd rfl filled
  | cons word rest ih =>
    have own := clean word List.mem_cons_self
    cases rest with
    | nil => rw [List.intercalate_singleton, List.splitOnP_eq_singleton own]
    | cons next rest =>
      rw [List.intercalate_cons_cons, List.append_assoc, List.singleton_append,
        List.splitOnP_append_cons_of_forall_mem own separator separates]
      rw [ih (fun word member => clean word (List.mem_cons_of_mem _ member)) (List.cons_ne_nil _ _)]

/-- A joined list of tool identities splits into what it was joined from. -/
theorem identities_toolList {tools : List String} (named : ∀ tool ∈ tools, tool ≠ "")
    (expressible : ∀ tool ∈ tools, expressibleAsOneToolIdentity tool = true) :
    identities (Claude.toolList tools) = tools := by
  by_cases empty : tools = []
  · subst empty
    decide
  · have clean : ∀ word ∈ tools.map String.toList, ∀ character ∈ word, isToolDelimiter character = false := by
      intro word member character inside
      obtain ⟨tool, listed, rfl⟩ := List.mem_map.mp member
      have free := expressible tool listed
      simp only [expressibleAsOneToolIdentity, Bool.not_eq_true', List.any_eq_false] at free
      exact Bool.not_eq_true _ ▸ free character inside
    have filled : ∀ word ∈ tools.map String.toList, decide (word ≠ []) = true := by
      intro word member
      obtain ⟨tool, listed, rfl⟩ := List.mem_map.mp member
      simpa using named tool listed
    have split : (",".toList.intercalate (tools.map String.toList)).splitOnP isToolDelimiter =
        tools.map String.toList := by
      apply splitOnP_intercalate (by decide) clean
      rw [ne_eq, List.map_eq_nil_iff]
      exact empty
    unfold identities Claude.toolList
    rw [String.toList_intercalate, split, List.filter_eq_self.mpr filled, List.map_map]
    calc tools.map (String.ofList ∘ String.toList)
      _ = tools.map id := List.map_congr_left fun tool _ => String.ofList_toList
      _ = tools := List.map_id tools

private theorem expressible_all {why : String} {granted : List String}
    (passed : refuseInexpressible why granted = .ok ()) :
    ∀ tool ∈ granted, expressibleAsOneToolIdentity tool = true := by
  unfold refuseInexpressible at passed
  split at passed
  next none =>
    intro tool member
    simpa using List.find?_eq_none.mp none tool member
  next => cases passed

/-- A plan that is not a refusal is the one made, for tools that are one identity each. -/
private theorem planned_as {package why : String} {invocation : WireInvocation} {made plan : LaunchPlan}
    (planned : (do
      refuseParameters package invocation.parameters
      refuseInexpressible why invocation.granted
      return made : PlanResult) = .ok plan) :
    plan = made ∧ ∀ tool ∈ invocation.granted, expressibleAsOneToolIdentity tool = true := by
  cases parameters : refuseParameters package invocation.parameters with
  | error refusal =>
    rw [parameters] at planned
    cases planned
  | ok =>
    cases tools : refuseInexpressible why invocation.granted with
    | error refusal =>
      rw [parameters, tools] at planned
      cases planned
    | ok =>
      rw [parameters, tools] at planned
      cases planned
      exact ⟨rfl, expressible_all tools⟩

namespace Claude

theorem read_argv (invocation : WireInvocation) :
    readArgv takesValue (argv invocation) =
      [Argument.option "--print" none, Argument.option "--output-format" (some "stream-json"), Argument.option "--verbose" none,
        Argument.option "--setting-sources" (some ""), Argument.option "--tools" (some (toolList invocation.granted)),
        Argument.option "--model" (some invocation.modelRoute)] ++
      (if invocation.granted = [] then [] else [Argument.option "--allowedTools" (some (toolList invocation.granted))]) ++
      readArgv takesValue [invocation.task] := by
  unfold argv
  split <;> rfl

/-- A task that does not begin with a dash is an operand. -/
theorem read_task {task : String} (plain : startsWithDash task = false) :
    readArgv takesValue [task] = [.operand task] := by
  simp [readArgv, plain]

/-- A task that begins with a dash is one option more. -/
theorem read_dashed_task {task : String} (dashed : startsWithDash task = true) :
    (optionsOf (readArgv takesValue [task])).length = 1 := by
  by_cases takes : task ∈ takesValue <;> simp [readArgv, optionsOf, dashed, takes]

theorem exact_iff {invocation : WireInvocation} {plan : LaunchPlan} (planned : planLaunch invocation = .ok plan) :
    Exact invocation (readArgv takesValue plan.argv) ↔ startsWithDash invocation.task = false := by
  obtain ⟨rfl, expressible⟩ := planned_as planned
  rw [read_argv]
  have split := identities_toolList (fun _ => WireInvocation.granted_named) expressible
  constructor
  · intro stated
    cases dashed : startsWithDash invocation.task with
    | false => rfl
    | true =>
      have more := read_dashed_task dashed
      have options := congrArg List.length stated.options
      unfold ownFlags at options
      unfold optionsOf at options more
      rw [List.filterMap_append, List.length_append, more] at options
      by_cases empty : invocation.granted = [] <;> simp [empty] at options
  · intro plain
    rw [read_task plain]
    refine ⟨?_, ?_, ?_⟩
    · refine ⟨_, ?_, split⟩
      by_cases empty : invocation.granted = [] <;> simp [valuesOf, empty]
    · by_cases empty : invocation.granted = []
      · simp [valuesOf, empty]
      · rw [if_neg empty]
        exact ⟨_, by simp [valuesOf, empty], split⟩
    · by_cases empty : invocation.granted = [] <;> simp [optionsOf, ownFlags, empty]

end Claude

theorem read_plain {takesValue : List String} {element : String} (dashed : startsWithDash element = true)
    (alone : element ∉ takesValue) (rest : List String) :
    readArgv takesValue (element :: rest) =
      .option (flagOf element) (attached element) :: readArgv takesValue rest := by
  rw [readArgv.eq_def]
  simp only [if_pos dashed, if_neg alone]

theorem read_valued {takesValue : List String} {element : String} (dashed : startsWithDash element = true)
    (takes : element ∈ takesValue) (value : String) (rest : List String) :
    readArgv takesValue (element :: value :: rest) = .option element (some value) :: readArgv takesValue rest := by
  rw [readArgv.eq_def]
  simp only [if_pos dashed, if_pos takes]

/-- Elements that attach their values to one flag. -/
private theorem read_attached {takesValue : List String} {flag lead : String} (spelt : lead = flag ++ "=")
    (dashed : startsWithDash flag = true) (bare : '=' ∉ flag.toList)
    (apart : ∀ taking ∈ takesValue, '=' ∉ taking.toList) (values rest : List String) :
    readArgv takesValue ((values.map fun value => lead ++ value) ++ rest) =
      (values.map fun value => .option flag (some value)) ++ readArgv takesValue rest := by
  induction values with
  | nil => rfl
  | cons value values ih =>
    subst spelt
    have letters : (flag ++ "=" ++ value).toList = flag.toList ++ '=' :: value.toList := by
      rw [String.toList_append, String.toList_append, List.append_assoc]
      rfl
    have plain : ∀ character ∈ flag.toList, decide (character ≠ '=') = true := by
      intro character member
      have other : character ≠ '=' := by
        rintro rfl
        exact bare member
      exact decide_eq_true other
    have opens : startsWithDash (flag ++ "=" ++ value) = true := by
      unfold startsWithDash at dashed ⊢
      rw [letters, List.head?_append, of_decide_eq_true dashed]
      rfl
    have own : flag ++ "=" ++ value ∉ takesValue := by
      intro taking
      apply apart _ taking
      rw [letters]
      exact List.mem_append_right _ List.mem_cons_self
    have named : flagOf (flag ++ "=" ++ value) = flag := by
      unfold flagOf
      rw [letters, List.takeWhile_append_of_pos plain]
      simp
    have carried : attached (flag ++ "=" ++ value) = some value := by
      unfold attached
      rw [letters, List.dropWhile_append_of_pos plain]
      simp
    rw [List.map_cons, List.cons_append, read_plain opens own, named, carried, ih]
    rfl

namespace Copilot

private theorem valueFlags_bare : ∀ taking ∈ takesValue, '=' ∉ taking.toList := by decide

theorem read_argv (invocation : WireInvocation) :
    readArgv takesValue (argv invocation) =
      [Argument.option "-p" (some invocation.task), Argument.option "--model" (some invocation.modelRoute),
        Argument.option "--output-format" (some "json"), Argument.option "--stream" (some "off"), Argument.option "--no-color" none,
        Argument.option "--no-custom-instructions" none, Argument.option "--no-auto-update" none,
        Argument.option "--disable-builtin-mcps" none, Argument.option "--no-remote" none, Argument.option "--no-remote-export" none,
        Argument.option "--no-ask-user" none] ++
      (if invocation.granted = [] then
        [Argument.option "--available-tools" none, Argument.option "--allow-tool" none] else []) ++
      (invocation.granted.map fun tool => Argument.option "--available-tools" (some tool)) ++
      ((invocation.granted.filterMap permissionFamily).map fun family =>
        Argument.option "--allow-tool" (some family)) ++
      (if "bash" ∈ invocation.granted then [] else [Argument.option "--deny-tool" (some "shell")]) ++
      invocation.declared.map fun credential => Argument.option "--secret-env-vars" (some credential) := by
  have secrets : readArgv takesValue
      (invocation.declared.map fun credential => "--secret-env-vars=" ++ credential) =
      invocation.declared.map fun credential => Argument.option "--secret-env-vars" (some credential) := by
    have read := @read_attached takesValue "--secret-env-vars" "--secret-env-vars=" (by decide) (by decide)
      (by decide) valueFlags_bare invocation.declared []
    rw [List.append_nil] at read
    exact read.trans (List.append_nil _)
  have allowed := @read_attached takesValue "--allow-tool" "--allow-tool=" (by decide) (by decide) (by decide) valueFlags_bare
    (invocation.granted.filterMap permissionFamily)
  have available := @read_attached takesValue "--available-tools" "--available-tools=" (by decide) (by decide)
    (by decide) valueFlags_bare invocation.granted
  unfold argv hermetic
  simp only [List.append_assoc]
  have closed : ∀ rest, readArgv takesValue
      ((if "bash" ∈ invocation.granted then [] else ["--deny-tool=shell"]) ++ rest) =
      (if "bash" ∈ invocation.granted then [] else [Argument.option "--deny-tool" (some "shell")]) ++
        readArgv takesValue rest := by
    intro rest
    split
    · rfl
    · exact read_plain (by decide) (by decide) rest
  have empty : ∀ rest, readArgv takesValue
      ((if invocation.granted = [] then ["--available-tools", "--allow-tool"] else []) ++ rest) =
      (if invocation.granted = [] then
        [Argument.option "--available-tools" none, Argument.option "--allow-tool" none] else []) ++ readArgv takesValue rest := by
    intro rest
    split
    · exact (read_plain (by decide) (by decide) _).trans (congrArg _ (read_plain (by decide) (by decide) rest))
    · rfl
  simp (disch := decide) only [List.cons_append, List.nil_append, read_valued, read_plain, empty, available, allowed,
    closed, secrets]
  rfl

theorem inherited_ne_shell : ∀ name ∈ objectPrototypeNames, permissionFamily name ≠ some "shell" := by decide

theorem inherited_read : ∀ name ∈ objectPrototypeNames, (permissionFamily name).isSome := by decide

/-- The allow rules are the shell's, one for each granted `bash`, just where no granted
tool names what every object inherits. -/
theorem families_iff (tools : List String) :
    tools.filterMap permissionFamily =
        (tools.filter fun tool => tool = "bash").map (fun _ => "shell") ↔
      ∀ tool ∈ tools, tool ∉ objectPrototypeNames := by
  constructor
  · intro same tool member inherited
    obtain ⟨family, read⟩ := Option.isSome_iff_exists.mp (inherited_read tool inherited)
    have listed : family ∈ tools.filterMap permissionFamily :=
      List.mem_filterMap.mpr ⟨tool, member, read⟩
    rw [same] at listed
    obtain ⟨_, _, rfl⟩ := List.mem_map.mp listed
    exact inherited_ne_shell tool inherited read
  · intro own
    induction tools with
    | nil => rfl
    | cons tool rest ih =>
      have rest := ih fun tool member => own tool (List.mem_cons_of_mem _ member)
      have fresh := own tool List.mem_cons_self
      by_cases bash : tool = "bash"
      · simp [permissionFamily, bash, rest]
      · simp [permissionFamily, bash, fresh, rest]

theorem exact_iff {invocation : WireInvocation} {plan : LaunchPlan} (planned : planLaunch invocation = .ok plan) :
    Exact invocation (readArgv takesValue plan.argv) ↔
      ∀ tool ∈ invocation.granted, tool ∉ objectPrototypeNames := by
  obtain ⟨rfl, _⟩ := planned_as planned
  rw [← families_iff]
  have allowed : (valuesOf "--allow-tool" (readArgv takesValue (argv invocation))).filterMap id =
      invocation.granted.filterMap permissionFamily := by
    rw [read_argv]
    simp (disch := decide) only [valuesOf_append, valuesOf_other, List.append_nil]
    split <;> split <;> simp [valuesOf, List.filterMap_map]
  constructor
  · intro stated
    rw [← allowed]
    exact stated.allowed
  · intro families
    refine ⟨?_, allowed.trans families, ?_, ?_, ?_⟩
    all_goals rw [read_argv]
    · simp (disch := decide) only [valuesOf_append, valuesOf_own, valuesOf_other, List.append_nil]
      split <;> split <;> simp_all [valuesOf]
    · simp (disch := decide) only [valuesOf_append, valuesOf_other, List.append_nil]
      split <;> split <;> simp [valuesOf]
    · simp (disch := decide) only [valuesOf_append, valuesOf_own, valuesOf_other, List.append_nil]
      split <;> split <;> simp [valuesOf]
    · simp only [optionsOf_append, optionsOf_flag, ownFlags]
      split <;> split <;> rfl

end Copilot

/-- For every invocation that is accepted and planned, each plan states exactly the grant
if and only if, for `claude`, the task does not begin with a dash and, for `copilot`, no
granted tool names what every object inherits. -/
theorem states_grant_iff (parse : String → Option Value) {bytes : String} {invocation : WireInvocation}
    (_accepted : parseWireInvocation parse bytes = .ok invocation) :
    (∀ plan, Claude.planLaunch invocation = .ok plan →
      (Claude.Exact invocation (readArgv Claude.takesValue plan.argv) ↔ startsWithDash invocation.task = false)) ∧
    ∀ plan, Copilot.planLaunch invocation = .ok plan →
      (Copilot.Exact invocation (readArgv Copilot.takesValue plan.argv) ↔
        ∀ tool ∈ invocation.granted, tool ∉ objectPrototypeNames) := by
  refine ⟨?_, ?_⟩
  · intro plan planned
    exact Claude.exact_iff planned
  · intro plan planned
    exact Copilot.exact_iff planned

/-- An invocation in its wire form, for a task and one granted tool. -/
def wireText (task tool : String) : String :=
  "\x7b\"run_id\":\"r\",\"generation\":1,\"adapter\":\"a\"," ++
  "\"profile\":\x7b\"name\":\"p\",\"version\":\"1\",\"digest\":\"d\"\x7d," ++
  "\"input\":\x7b\"kind\":\"task\",\"task\":\"" ++ task ++ "\",\"parameters\":\x7b\x7d\x7d," ++
  "\"grant\":\x7b\"tools\":[\"" ++ tool ++ "\"],\"mounts\":[]," ++
  "\"network\":\x7b\"default\":\"deny\",\"granted_destinations\":[]\x7d,\"credentials\":[]\x7d," ++
  "\"routing\":\x7b\"routing_class\":\"R1\",\"model_route\":\"m\",\"fallback\":\"refuse\"\x7d," ++
  "\"limits\":\x7b\"wall_clock_seconds\":60,\"cpu_cores\":1,\"memory_bytes\":1024,\"pids\":8," ++
  "\"output_bytes\":4096\x7d,\"credentials\":[\x7b\"env_var\":\"TOKEN\"\x7d]," ++
  "\"workspace\":\x7b\"session_ref\":\"s\",\"root_ref\":\"w\"\x7d\x7d"

def wireValue (task tool : String) : Value :=
  .object [("run_id", .text "r"), ("generation", .number (.decimal 1 0)), ("adapter", .text "a"),
    ("profile", .object [("name", .text "p"), ("version", .text "1"), ("digest", .text "d")]),
    ("input", .object [("kind", .text "task"), ("task", .text task), ("parameters", .object [])]),
    ("grant", .object [("tools", .array [.text tool]), ("mounts", .array []),
      ("network", .object [("default", .text "deny"), ("granted_destinations", .array [])]),
      ("credentials", .array [])]),
    ("routing", .object [("routing_class", .text "R1"), ("model_route", .text "m"), ("fallback", .text "refuse")]),
    ("limits", .object [("wall_clock_seconds", .number (.decimal 60 0)), ("cpu_cores", .number (.decimal 1 0)),
      ("memory_bytes", .number (.decimal 1024 0)), ("pids", .number (.decimal 8 0)),
      ("output_bytes", .number (.decimal 4096 0))]),
    ("credentials", .array [.object [("env_var", .text "TOKEN")]]),
    ("workspace", .object [("session_ref", .text "s"), ("root_ref", .text "w")])]

def parseWire (task tool text : String) : Option Value :=
  if text = wireText task tool then some (wireValue task tool) else none

theorem parseWire_own (task tool : String) : parseWire task tool (wireText task tool) = some (wireValue task tool) :=
  if_pos rfl

/-- The task `--continue` and the tool `constructor`, each in a text that is accepted. -/
def misread : WireInvocation :=
  ⟨"--continue", [], [⟨"constructor", by decide⟩], "m", .decimal 4096 0, [⟨"TOKEN", by decide⟩]⟩

theorem misread_accepted :
    parseWireInvocation (parseWire "--continue" "constructor") (wireText "--continue" "constructor") = .ok misread := by
  unfold parseWireInvocation
  rw [parseWire_own]
  rfl

/-- `claude` is given one option that is not the plan's own, and `copilot` an allow rule
that no granted `bash` stands for. -/
theorem misread_not_exact :
    parseWireInvocation (parseWire "--continue" "constructor") (wireText "--continue" "constructor") = .ok misread ∧
    (∃ plan, Claude.planLaunch misread = .ok plan ∧
      ¬ Claude.Exact misread (readArgv Claude.takesValue plan.argv)) ∧
    ∃ plan, Copilot.planLaunch misread = .ok plan ∧
      ¬ Copilot.Exact misread (readArgv Copilot.takesValue plan.argv) := by
  refine ⟨misread_accepted, ⟨_, rfl, ?_⟩, ⟨_, rfl, ?_⟩⟩
  · intro stated
    exact absurd stated.options (by decide)
  · intro stated
    exact absurd stated.allowed (by decide)

/-- A task and a tool that both providers read as they were meant. -/
def readWell : WireInvocation :=
  ⟨"List the files.", [], [⟨"bash", by decide⟩], "m", .decimal 4096 0, [⟨"TOKEN", by decide⟩]⟩

theorem readWell_states_grant :
    parseWireInvocation (parseWire "List the files." "bash") (wireText "List the files." "bash") = .ok readWell ∧
    Claude.Exact readWell (readArgv Claude.takesValue (Claude.argv readWell)) ∧
    Copilot.Exact readWell (readArgv Copilot.takesValue (Copilot.argv readWell)) := by
  have accepted :
      parseWireInvocation (parseWire "List the files." "bash") (wireText "List the files." "bash") = .ok readWell := by
    unfold parseWireInvocation
    rw [parseWire_own]
    rfl
  obtain ⟨claude, copilot⟩ := states_grant_iff _ accepted
  exact ⟨accepted, (claude _ rfl).mpr (by decide), (copilot _ rfl).mpr (by decide)⟩

end SecureHome.Adapters.Coding
