import SecureHome.Lib.Search
import SecureHome.Governance.Canonical

/-! The images a change builds. The lock names every image, and of a derived one its parent; a
plan builds the roots first and what is derived of them after. -/

namespace SecureHome.Impact
open Lib Governance

section Lock

/-- An entry of the image lock, as its plain text is parsed. -/
structure LockImage where
  keys : List String
  name : JsString
  lineage : String
  definition : JsString
  platforms : List String
  digest : JsString
  manifests : List (String × JsString)
  externalBase : Option (List (String × JsString))
  parent : Option JsString
  parentDigest : Option JsString
  runtime : Option (List (String × JsString))
  deriving DecidableEq

structure ImageLock where
  keys : List String
  version : String
  images : List LockImage
  deriving DecidableEq

def LockImage.isDerived (image : LockImage) : Bool := image.lineage = "runner-derived"

def lockPath : JsString := units "deploy/images/image-lock.yaml"

def SENTINEL : JsString := units "pending-first-governed-build"

def isHexUnit (unit : UInt16) : Bool := 0x30 ≤ unit.toNat && unit.toNat ≤ 0x39 || 0x61 ≤ unit.toNat && unit.toNat ≤ 0x66

/-- `DIGEST`. -/
def isDigest (text : JsString) : Bool := text.take 7 = units "sha256:" && text.length = 71 && (text.drop 7).all isHexUnit

def isRecorded (digest : JsString) : Bool := digest = SENTINEL || isDigest digest

/-- The images of a lock that has been accepted. -/
structure ImageGraph where
  images : List LockImage
  deriving DecidableEq

def ImageGraph.ordered (graph : ImageGraph) : List JsString := graph.images.map (·.name)

def ImageGraph.byName (graph : ImageGraph) (name : JsString) : Option LockImage := graph.images.find? (·.name = name)

/-- The derived images that name a parent. -/
def childrenOf (images : List LockImage) (parent : JsString) : List JsString :=
  (images.filter fun image => image.isDerived && image.parent = some parent).map (·.name)

def ImageGraph.children (graph : ImageGraph) : JsString → List JsString := childrenOf graph.images

/-- Every parent is there, and no image is derived of itself. -/
def linkImages (images : List LockImage) (missing : LockImage → JsString) : Except JsString ImageGraph :=
  match images.find? fun image => image.isDerived && !image.parent.any fun parent => (images.map (·.name)).contains parent with
  | some image => .error (image.name ++ units " names missing governed dependency " ++ missing image)
  | none =>
    match descendAll (childrenOf images) (images.map (·.name)) with
    | .ok _ => .ok ⟨images⟩
    | .error (.cycle path) => .error (units "image dependency cycle: " ++ (units " -> ").intercalate path)
    | .error .exhausted => .error []

/-- `graphFromLock` of the builder. -/
def graphFromLock (lock : ImageLock) : Except JsString ImageGraph :=
  if ¬ (lock.images.map (·.name)).Nodup then .error (units "image lock contains duplicate names")
  else linkImages lock.images fun image => image.parent.getD (units "undefined")

end Lock

section Impact

def PLATFORMS : List String := ["linux/amd64", "linux/arm64"]

def rootKeys : List String := ["name", "lineage", "definition", "platforms", "external_base", "digest", "manifests"]

def expectedKeys (lineage : String) : Option (List String) :=
  [("runner-base", rootKeys),
    ("runner-derived", ["name", "lineage", "definition", "platforms", "parent", "parent_digest", "runtime", "digest", "manifests"]),
    ("gates-toolchain", rootKeys)].lookup lineage

def isWellFormedEntry (image : LockImage) : Bool :=
  expectedKeys image.lineage = some image.keys && !image.platforms.isEmpty && image.platforms.all (PLATFORMS.contains ·) &&
    isRecorded image.digest && image.manifests.map Prod.fst = image.platforms && image.manifests.all fun manifest => isRecorded manifest.2

def isWellFormedSource (image : LockImage) : Bool :=
  if image.isDerived then
    image.parent.isSome && image.parentDigest.any isRecorded &&
      image.runtime.any fun runtime => runtime.map Prod.fst = ["name", "package", "version", "integrity"]
  else image.externalBase.any fun base => base.map Prod.fst = ["reference", "digest"] && (base.lookup "digest").any isDigest

/-- What is wrong with an entry, behind others of these names. -/
def entryProblem (revision : JsString) (seen : List JsString) (image : LockImage) : Option JsString :=
  if !isWellFormedEntry image then some (lockPath ++ units " at " ++ revision ++ units " has a malformed image entry")
  else if !isWellFormedSource image then
    some (lockPath ++ units " at " ++ revision ++
      units (if image.isDerived then " has malformed derived metadata" else " has malformed external-base metadata"))
  else if image.name ∈ seen then
    some (lockPath ++ units " at " ++ revision ++ units " registers " ++ image.name ++ units " more than once")
  else none

def entriesProblem (revision : JsString) : List JsString → List LockImage → Option JsString
  | _, [] => none
  | seen, image :: rest => (entryProblem revision seen image).orElse fun _ => entriesProblem revision (image.name :: seen) rest

/-- `graphFromLock` of the impact analysis. -/
def impactGraphFromLock (lock : ImageLock) (revision : JsString) : Except JsString ImageGraph :=
  if lock.keys ≠ ["version", "images"] ∨ lock.version ≠ "1" ∨ lock.images = [] then
    .error (lockPath ++ units " at " ++ revision ++ units " has no governed image inventory")
  else
    match entriesProblem revision [] lock.images with
    | some message => .error message
    | none => linkImages lock.images fun image => (image.parent.map quote).getD (units "undefined")

theorem childrenOf_names (images : List LockImage) (parent : JsString) : childrenOf images parent ⊆ images.map (·.name) := by
  intro name member
  obtain ⟨image, listed, rfl⟩ := List.mem_map.mp member
  exact List.mem_map_of_mem (List.mem_filter.mp listed).1

/-- Everything derived of some images, in the order it is found, and of what each was found. -/
def derivedOf (graph : ImageGraph) (names : List JsString) : Flood JsString :=
  flood graph.children graph.ordered (childrenOf_names graph.images) ⟨names, names, []⟩

structure Closure where
  affected : List JsString
  transitive : List (JsString × JsString)
  deriving DecidableEq

/-- Over the names of the images that are impacted directly. -/
def transitiveClosure (graph : ImageGraph) (directReasons : List JsString) : Closure :=
  let reached := derivedOf graph directReasons
  ⟨graph.ordered.filter (reached.found.contains ·), reached.origins⟩

end Impact

section Plan

/-- A request that is refused, or a walk that finds no end or no image. -/
inductive PlanRefusal where
  | refused (message : JsString)
  | exhausted
  deriving DecidableEq

def refuseWhen (wrong : Bool) (message : JsString) : Except PlanRefusal Unit := if wrong then .error (.refused message) else .ok ()

def closure (graph : ImageGraph) (requested : List JsString) : List JsString :=
  graph.ordered.filter ((derivedOf graph requested).found.contains ·)

/-- The ancestors of an image, from its parent on. -/
def ancestorsOf (graph : ImageGraph) : Nat → LockImage → Except PlanRefusal (List JsString)
  | 0, image => if image.isDerived then .error .exhausted else .ok []
  | fuel + 1, image =>
    if image.isDerived then
      match image.parent.bind graph.byName with
      | none => .error (.refused (image.name ++ units " has no registered parent " ++ image.parent.getD (units "undefined")))
      | some parent => (ancestorsOf graph fuel parent).map (parent.name :: ·)
    else .ok []

/-- The ancestors of the selected images that are not selected themselves. -/
def supportAncestors (graph : ImageGraph) (selected : List JsString) : Except PlanRefusal (List JsString) := do
  let ancestors ← (selected.filterMap graph.byName).mapM (ancestorsOf graph graph.images.length)
  .ok (graph.ordered.filter fun name => !selected.contains name && ancestors.flatten.contains name)

/-- What is built, and in which phase. -/
structure Phases where
  requested : List JsString
  selected : List JsString
  support : List JsString
  outputs : List JsString
  roots : List JsString
  parents : List JsString
  derived : List JsString
  deriving DecidableEq

def isDerivedName (graph : ImageGraph) (name : JsString) : Bool := (graph.byName name).any LockImage.isDerived

def parentOf (graph : ImageGraph) (name : JsString) : Option LockImage := ((graph.byName name).bind (·.parent)).bind graph.byName

/-- A derived image of a derived parent cannot be built in two phases. -/
def checkParents (graph : ImageGraph) (derived : List JsString) : Except PlanRefusal Unit :=
  match derived.find? fun name => (parentOf graph name).any LockImage.isDerived with
  | some name => .error (.refused (name ++
      units " has a derived parent; the current two-phase governed builder cannot verify it before use"))
  | none => .ok ()

def phasesOf (graph : ImageGraph) (requested : List JsString) : Except PlanRefusal Phases := do
  let selected := closure graph requested
  let support ← supportAncestors graph selected
  let outputs := graph.ordered.filter fun name => selected.contains name || support.contains name
  let roots := outputs.filter fun name => !isDerivedName graph name
  let derived := selected.filter fun name => isDerivedName graph name
  let parents := graph.ordered.filter fun name => derived.any fun child => ((graph.byName child).bind (·.parent)) = some name
  let _ ← checkParents graph derived
  .ok ⟨requested, selected, support, outputs, roots, parents, derived⟩

def requestedNames (graph : ImageGraph) (selectionMode : JsString) (requested : List JsString) : Except PlanRefusal (List JsString) :=
  if selectionMode = units "all" then .ok graph.ordered
  else if selectionMode = units "selected" then
    if requested = [] then .error (.refused (units "selected mode requires at least one image"))
    else
      match requested.find? fun name => !graph.ordered.contains name with
      | some name => .error (.refused (units "unknown governed image " ++ quote name))
      | none => .ok (graph.ordered.filter (requested.contains ·))
  else .error (.refused (units "unsupported selection mode " ++ quote selectionMode))

/-- The functions of `node:path`. -/
structure PathFunctions where
  resolve : List JsString → JsString
  join : List JsString → JsString
  dirname : JsString → JsString
  basename : JsString → JsString

/-- A target of the bake file. -/
structure BakeTarget where
  context : JsString
  dockerfile : JsString
  platforms : List String
  output : JsString
  contexts : Option (JsString × JsString)
  cacheScope : Option JsString
  deriving DecidableEq

def cacheScope (name : JsString) : JsString := units "secure-home-images-v1-" ++ name

variable (paths : PathFunctions)

def targetFor (root out cacheBackend : JsString) (image : LockImage) (parentContext : Option JsString) : Except PlanRefusal BakeTarget := do
  let context := paths.dirname image.definition
  let _ ← refuseWhen (cacheBackend ≠ units "gha" && cacheBackend ≠ units "none") (units "unsupported cache backend " ++ quote cacheBackend)
  let _ ← refuseWhen (!(paths.resolve [root] ++ units "/").isPrefixOf (paths.resolve [root, context]))
    (image.name ++ units " build context escapes the repository")
  .ok { context, dockerfile := paths.basename image.definition, platforms := image.platforms
        output := units "type=oci,dest=" ++ paths.join [out, image.name] ++ units ",tar=false,rewrite-timestamp=true"
        contexts := parentContext.map fun parent => (image.parent.getD [], parent)
        cacheScope := if cacheBackend = units "gha" then some (cacheScope image.name) else none }

def rootTarget (graph : ImageGraph) (root out cacheBackend name : JsString) : Except PlanRefusal (JsString × BakeTarget) :=
  match graph.byName name with
  | none => .error .exhausted
  | some image => (targetFor paths root out cacheBackend image none).map (name, ·)

def derivedTarget (graph : ImageGraph) (root out cacheBackend name : JsString) : Except PlanRefusal (JsString × BakeTarget) :=
  match graph.byName name, parentOf graph name with
  | some image, some parent => do
    let digest := image.parentDigest.getD (units "undefined")
    let _ ← refuseWhen (!isRecorded digest)
      (name ++ units " parent_digest must be a recorded sha256 identity before a partial/parallel build")
    let layout := units "oci-layout://" ++ paths.join [out, parent.name]
    let target ← targetFor paths root out cacheBackend image (some (if digest = SENTINEL then layout else layout ++ units "@" ++ digest))
    .ok (name, target)
  | _, _ => .error .exhausted

structure BuildPlan where
  selectionMode : JsString
  phases : Phases
  platforms : List (JsString × List String)
  cacheScopes : List (JsString × JsString)
  rootTargets : List (JsString × BakeTarget)
  derivedTargets : List (JsString × BakeTarget)
  deriving DecidableEq

/-- Over the lock as `loadValidatedLock` gives it. -/
def createBuildPlan (loadValidatedLock : JsString → Except JsString ImageLock) (root : JsString) (out : Option JsString)
    (selectionMode : JsString) (requested : List JsString) (cacheBackend : JsString) : Except PlanRefusal BuildPlan := do
  let _ ← refuseWhen (out.getD [] = []) (units "an output directory is required")
  let absoluteRoot := paths.resolve [root]
  let absoluteOut := paths.resolve [out.getD []]
  let _ ← refuseWhen (absoluteOut = absoluteRoot || (absoluteRoot ++ units "/").isPrefixOf absoluteOut)
    (units "build outputs must live outside the repository")
  let lock ← (loadValidatedLock absoluteRoot).mapError .refused
  let graph ← (graphFromLock lock).mapError .refused
  let names ← requestedNames graph selectionMode requested
  let phases ← phasesOf graph names
  let rootTargets ← phases.roots.mapM (rootTarget paths graph absoluteRoot absoluteOut cacheBackend)
  let derivedTargets ← phases.derived.mapM (derivedTarget paths graph absoluteRoot absoluteOut cacheBackend)
  .ok { selectionMode, phases
        platforms := phases.outputs.map fun name => (name, ((graph.byName name).map (·.platforms)).getD [])
        cacheScopes := phases.outputs.map fun name => (name, cacheScope name)
        rootTargets, derivedTargets }

end Plan

end SecureHome.Impact
