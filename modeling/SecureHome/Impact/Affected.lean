import SecureHome.Lib.Association
import SecureHome.Lib.Search
import SecureHome.Governance.Projections

/-! Which target gates a change must run. Selection follows the dependency graph of the
workspace and not its directories. -/

namespace SecureHome.Impact
open Lib Governance

/-- Root configuration whose change affects every TypeScript target. -/
def TS_FANOUT : List JsString :=
  ["package.json", "pnpm-lock.yaml", "pnpm-workspace.yaml", ".syncpackrc.json", ".npmrc", "tsconfig.json", "tsconfig.base.json",
    ".prettierrc.json", ".prettierignore", "scripts/affected-targets.mjs", "scripts/check-workspace.mjs",
    "scripts/check-source-imports.mjs", "scripts/workspace-model.mjs", ".github/workflows/checks.yml"].map units

/-- Shared tooling packages. -/
def TS_FANOUT_PREFIXES : List JsString := ["packages/tsconfig/", "packages/lint-config/", "packages/testing/"].map units

/-- Root configuration whose change affects the Python target. -/
def PY_FANOUT : List JsString := ["pyproject.toml", "uv.lock", ".github/workflows/checks.yml"].map units

section Discovery

/-- A `package.json`. Its name is empty where it has none. -/
structure Manifest where
  name : JsString
  dependencies : List JsString
  devDependencies : List JsString
  peerDependencies : List JsString
  optionalDependencies : List JsString
  deriving DecidableEq, Repr

/-- All that the four dependency fields name. -/
def Manifest.depends (pkg : Manifest) : List JsString :=
  pkg.dependencies ++ pkg.devDependencies ++ pkg.peerDependencies ++ pkg.optionalDependencies

inductive ManifestFile where
  | absent
  | malformed
  | parsed (pkg : Manifest)
  deriving DecidableEq, Repr

structure Entry where
  name : JsString
  isDirectory : Bool
  manifest : ManifestFile
  deriving DecidableEq, Repr

/-- What is read of a repository. A directory lists a name once, and no name has a separator. -/
structure Repository where
  entries : JsString → Option (List Entry)
  pythonMembers : List JsString
  distinct : ∀ glob listing, entries glob = some listing → (listing.map Entry.name).Nodup
  simple : ∀ glob listing, entries glob = some listing → ∀ entry ∈ listing, (0x2f : UInt16) ∉ entry.name

def globs : List JsString := ["services", "services/workers", "apps", "packages", "agents", "agents/adapters/coding"].map units

/-- A workspace member, where it is found. -/
structure Member where
  dir : JsString
  pkg : Manifest
  deriving DecidableEq, Repr

structure Target where
  name : JsString
  dir : JsString
  deps : List JsString
  deriving DecidableEq, Repr

def memberOf (glob : JsString) (entry : Entry) : Option Member :=
  if entry.isDirectory then
    match entry.manifest with
    | .absent | .malformed => none
    | .parsed pkg => if pkg.name = [] then none else some ⟨glob ++ 0x2f :: entry.name, pkg⟩
  else none

def discovered (repository : Repository) : List Member :=
  globs.flatMap fun glob => ((repository.entries glob).getD []).filterMap (memberOf glob)

def scope : JsString := units "@secure-home/"

def targetOf (member : Member) : Target := ⟨member.pkg.name, member.dir, member.pkg.depends.filter scope.isPrefixOf⟩

/-- The last of two members of one name is kept, in the place of the first. -/
def discoverTypescriptTargets (repository : Repository) : List (JsString × Target) :=
  (discovered repository).foldl (fun targets member => put targets member.pkg.name (targetOf member)) []

def discoverPythonDirs (repository : Repository) : List JsString := repository.pythonMembers.map (· ++ [0x2f])

end Discovery

section Selection

variable (repository : Repository) (targets : List (JsString × Target))

/-- Everything that depends on a target, transitively. -/
def dependentsOf (name : JsString) : List JsString :=
  gather (fun candidate one => (targets.lookup candidate).any fun target => target.deps.contains one) (targets.map Prod.fst) [] [name]

structure Reason where
  fanout : List JsString
  direct : List JsString
  dependents : List JsString
  deriving DecidableEq, Repr

/-- What has been selected so far, in the order it was added. -/
structure Selecting where
  selected : List JsString
  python : Bool
  reason : Reason
  deriving DecidableEq, Repr

def add (selected : List JsString) (name : JsString) : List JsString := if name ∈ selected then selected else selected ++ [name]

def trim (text : JsString) : JsString := ((text.dropWhile isSpaceUnit).reverse.dropWhile isSpaceUnit).reverse

/-- The path that is read: trimmed, and without one leading `./`. -/
def fileOf (raw : JsString) : JsString :=
  match trim raw with
  | 0x2e :: 0x2f :: rest => rest
  | text => text

def isFanout (file : JsString) : Bool := TS_FANOUT.contains file || TS_FANOUT_PREFIXES.any fun start => start.isPrefixOf file

def holds (dir file : JsString) : Bool := (dir ++ [0x2f]).isPrefixOf file

/-- The longest matching directory wins. -/
def owner (file : JsString) : Option Target :=
  targets.foldl (fun best (_, target) =>
    match best with
    | none => if holds target.dir file then some target else none
    | some held => if holds target.dir file && held.dir.length < target.dir.length then some target else some held) none

def addDependent (best : JsString) (state : Selecting) (dep : JsString) : Selecting :=
  { state with
    selected := add state.selected dep
    reason := if dep ∈ state.selected then state.reason
      else { state.reason with dependents := state.reason.dependents ++ [best ++ units " → " ++ dep] } }

def addFanout (file : JsString) (state : Selecting) : Selecting :=
  if isFanout file then
    { state with
      selected := (targets.map Prod.fst).foldl add state.selected
      reason := { state.reason with fanout := state.reason.fanout ++ [file] } }
  else state

def addPython (file : JsString) (state : Selecting) : Selecting :=
  let state := if file ∈ PY_FANOUT then
      { state with python := true, reason := { state.reason with fanout := state.reason.fanout ++ [file] } }
    else state
  if (discoverPythonDirs repository).any (·.isPrefixOf file) then
    { state with python := true, reason := { state.reason with direct := state.reason.direct ++ [file] } }
  else state

def addOwner (file : JsString) (state : Selecting) : Selecting :=
  match owner targets file with
  | none => state
  | some best =>
    (dependentsOf targets best.name).foldl (addDependent best.name)
      { state with
        selected := add state.selected best.name
        reason := { state.reason with direct := state.reason.direct ++ [file ++ units " → " ++ best.name] } }

def consider (state : Selecting) (raw : JsString) : Selecting :=
  let file := fileOf raw
  if file = [] then state
  else addOwner targets file (addPython repository file (addFanout targets file state))

structure Affected where
  typescript : List JsString
  python : Bool
  reason : Reason
  deriving DecidableEq, Repr

def computeAffected (changedFiles : List JsString) : Affected :=
  let state := changedFiles.foldl (consider repository (discoverTypescriptTargets repository)) ⟨[], false, ⟨[], [], []⟩⟩
  ⟨state.selected.mergeSort fun one other => decide (one ≤ other), state.python, state.reason⟩

end Selection

end SecureHome.Impact
