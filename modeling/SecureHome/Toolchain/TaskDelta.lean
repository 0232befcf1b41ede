import SecureHome.Lib.Association
import SecureHome.Toolchain.SetRelease

/-! Task deltas of a set release. A composition changed by a task has no version: it is known
by the digests of the release and of the delta, and by the modules it selects. -/

namespace SecureHome.Toolchain
open Lib

def taskDeltaFormat : String := "okf-set-task-delta-v1"
def resolvedKnowledgeFormat : String := "okf-resolved-knowledge-v1"

/-- What a catalogue says of a module. -/
structure MemberCandidate where
  id : JsString
  version : Option JsString
  sourceDigest : Option JsString
  status : JsString
  blockedByToolchain : Bool
  blockedByRollout : Bool
  deriving DecidableEq, Repr

structure TaskDelta where
  add : List JsString
  narrow : List JsString
  deriving DecidableEq, Repr

structure ResolvedSelection where
  family : JsString
  version : JsString
  releaseDigest : JsString
  taskDeltaDigest : JsString
  modules : List ReleaseMember
  deriving DecidableEq, Repr

def composableModuleStates : List JsString := [units "Validated", units "Packaged", units "Published"]

def digestPrefix : JsString := units "sha256:"

/-- The prefix and 64 lowercase hexadecimal digits. -/
def prefixedSha256 (value : JsString) : Bool := digestPrefix.isPrefixOf value && bareSha256 (value.drop digestPrefix.length)

section Delta

def idRefusals (kind : String) (seen : List JsString) : List JsString → List ReleaseRefusal
  | [] => []
  | id :: rest =>
    (if moduleId id then [] else [⟨"delta.id", units s!"{kind} " ++ quoted id ++ units " is not a module id"⟩]) ++
    (if id ∈ seen then [⟨"delta.duplicate", units s!"{kind} " ++ quoted id ++ units " repeats"⟩] else []) ++
    idRefusals kind (id :: seen) rest

def deltaRefusals (delta : TaskDelta) : List ReleaseRefusal :=
  idRefusals "add" [] delta.add ++ idRefusals "narrow" [] delta.narrow ++
  delta.narrow.flatMap fun id =>
    if id ∈ delta.add then [⟨"delta.contradiction", quoted id ++ units " is both added and narrowed"⟩] else []

def canonicalTaskDelta (delta : TaskDelta) : ReleaseResult (List UInt8) :=
  match deltaRefusals delta with
  | refusal :: refusals => .error (refusal :: refusals)
  | [] => .ok (encode (units taskDeltaFormat) ++ [0x0a] ++
      (sortByBytes id delta.add).flatMap (scalarLine "add") ++
      (sortByBytes id delta.narrow).flatMap (scalarLine "narrow"))

def digestTaskDelta (sha256 : List UInt8 → String) (bytes : List UInt8) : String := s!"sha256:{sha256 bytes}"

end Delta

-- `nfc` is the platform's Unicode normalization, and `sha256` gives a digest in hexadecimal.
variable (nfc : JsString → JsString) (sha256 : List UInt8 → String)

section Resolved

def prefixedRefusal (field : String) (value : JsString) : List ReleaseRefusal :=
  if prefixedSha256 value then []
  else [⟨"resolved.digest", units s!"{field} must be \"sha256:\" + 64 lowercase hex, not " ++ quoted value⟩]

def moduleRefusals (seen : List JsString) : List ReleaseMember → List ReleaseRefusal
  | [] => []
  | member :: rest =>
    (if moduleId member.id then [] else [⟨"resolved.id", quoted member.id ++ units " is not a module id"⟩]) ++
    problemRefusal nfc "resolved.version" (quoted member.id ++ units " version") member.version ++
    (if bareSha256 member.digest then [] else [⟨"resolved.digest", quoted member.id ++ units " digest is not bare lowercase 64-hex"⟩]) ++
    (if member.id ∈ seen then [⟨"resolved.duplicate", quoted member.id ++ units " repeats"⟩] else []) ++
    moduleRefusals (member.id :: seen) rest

def resolvedRefusals (resolved : ResolvedSelection) : List ReleaseRefusal :=
  problemRefusal nfc "resolved.family" (units "family") resolved.family ++
  (if tokenProblem nfc resolved.family = none ∧ ¬ setFamilyId resolved.family then
    [⟨"resolved.family", quoted resolved.family ++ units " is not a set family id"⟩] else []) ++
  prefixedRefusal "releaseDigest" resolved.releaseDigest ++
  prefixedRefusal "taskDeltaDigest" resolved.taskDeltaDigest ++
  (if releaseVersion resolved.version then [] else [⟨"resolved.version", units "version is not DIGIT+.DIGIT+.DIGIT+"⟩]) ++
  moduleRefusals nfc [] resolved.modules

def moduleLine (member : ReleaseMember) : List UInt8 :=
  encode (units "module " ++ member.id) ++ [0x00] ++ encode member.version ++ [0x00] ++ encode member.digest ++ [0x0a]

/-- The canonical bytes of a selection, under the rules of a manifest. -/
def canonicalResolvedSelection (resolved : ResolvedSelection) : ReleaseResult (List UInt8) :=
  match resolvedRefusals nfc resolved with
  | refusal :: refusals => .error (refusal :: refusals)
  | [] => .ok (encode (units resolvedKnowledgeFormat) ++ [0x0a] ++
      scalarLine "family" resolved.family ++
      scalarLine "version" resolved.version ++
      scalarLine "releaseDigest" (resolved.releaseDigest.drop digestPrefix.length) ++
      scalarLine "taskDeltaDigest" (resolved.taskDeltaDigest.drop digestPrefix.length) ++
      (sortByBytes (·.id) resolved.modules).flatMap moduleLine)

end Resolved

section Apply

/-- What keeps a module of the catalogue from being pinned. -/
def memberProblems (kind : Section) (id : JsString) : Option MemberCandidate → List ReleaseRefusal
  | none => [⟨"release.member-unknown", units s!"{kind.label} " ++ quoted id ++ units " names no registered module"⟩]
  | some candidate =>
    let named := units s!"{kind.label} " ++ quoted id
    (if candidate.version = none then [⟨"release.member-unversioned", named ++ units " has no version"⟩] else []) ++
    (match candidate.sourceDigest with
      | none => [⟨"release.member-unreviewed", named ++ units " has no reviewed digest"⟩]
      | some digest =>
        if prefixedSha256 digest then []
        else [⟨"release.member-digest-form", named ++ units " sourceDigest must be \"sha256:\" + 64 lowercase hex"⟩]) ++
    (if candidate.blockedByToolchain then [⟨"release.member-toolchain-blocked", named ++ units " is toolchain-blocked"⟩] else []) ++
    (if candidate.blockedByRollout then
      [⟨"release.member-rollout-blocked", named ++ units " is rollout-blocked; a set release is not a rollout back door"⟩] else []) ++
    (if candidate.status ∈ composableModuleStates then []
      else [⟨"release.member-lifecycle", named ++ units " is " ++ quoted candidate.status ++
        units "; a new release may select only " ++ (units ", ").intercalate composableModuleStates⟩])

/-- A pattern names a module, or every module of a family. -/
def denied (release : LogicalRelease) (id : JsString) : Bool :=
  release.deny.any fun pattern =>
    if (units "/*").isSuffixOf pattern then pattern.dropLast.isPrefixOf id else pattern = id

def LogicalRelease.members (release : LogicalRelease) : List ReleaseMember := release.required ++ release.optional

/-- What an added module is pinned as. -/
def addition (release : LogicalRelease) (catalogue : List MemberCandidate) (id : JsString) : ReleaseResult ReleaseMember :=
  let found := (catalogue.foldl (fun rows row => put rows row.id row) []).lookup id
  if id ∈ release.members.map (·.id) then
    .error [⟨"delta.add-already-selected", quoted id ++
      units " is already pinned by this release; a task addition may not substitute a different revision for a pinned member"⟩]
  else if denied release id then .error [⟨"delta.denied", quoted id ++ units " is denied by this release; deny beats addition"⟩]
  else
    match memberProblems .required id found, found with
    | [], some candidate =>
      let version := candidate.version.getD []
      match tokenProblem nfc version with
      | some problem => .error [⟨"delta.add-version", units "added " ++ quoted id ++ units s!" version {problem}"⟩]
      | none => .ok ⟨id, version, (candidate.sourceDigest.getD []).drop digestPrefix.length⟩
    | problems, _ => .error problems

/-- The refusals so far, and the selected members under their identifiers. -/
structure Selecting where
  refusals : List ReleaseRefusal
  selected : List (JsString × ReleaseMember)
  deriving DecidableEq

def Selecting.refuse (state : Selecting) (refusals : List ReleaseRefusal) : Selecting :=
  { state with refusals := state.refusals ++ refusals }

/-- Only optional members are narrowed away. -/
def narrowMember (release : LogicalRelease) (state : Selecting) (id : JsString) : Selecting :=
  if id ∈ release.required.map (·.id) then
    state.refuse [⟨"delta.narrow-required", quoted id ++ units " is a required member of this release and may not be narrowed away"⟩]
  else if id ∉ state.selected.map Prod.fst then
    state.refuse [⟨"delta.narrow-unknown", quoted id ++ units " is not selected by this release"⟩]
  else { state with selected := state.selected.filter fun entry => entry.1 != id }

def addModule (release : LogicalRelease) (catalogue : List MemberCandidate) (state : Selecting) (id : JsString) : Selecting :=
  match addition nfc release catalogue id with
  | .error refusals => state.refuse refusals
  | .ok member => { state with selected := put state.selected id member }

def startSelecting (release : LogicalRelease) (delta : TaskDelta) : Selecting where
  refusals :=
    (if delta.add ≠ [] ∧ ¬ release.allowTaskAdditions then
      [⟨"delta.additions-forbidden", units "this release does not allow task additions"⟩] else []) ++
    (if delta.narrow ≠ [] ∧ ¬ release.allowTaskNarrowing then
      [⟨"delta.narrowing-forbidden", units "this release does not allow task narrowing"⟩] else [])
  selected := release.members.foldl (fun held member => put held member.id member) []

def selecting (release : LogicalRelease) (delta : TaskDelta) (catalogue : List MemberCandidate) : Selecting :=
  delta.add.foldl (addModule nfc release catalogue) (delta.narrow.foldl (narrowMember release) (startSelecting release delta))

/-- The exact selection of a release under a delta. -/
def applyTaskDelta (release : LogicalRelease) (delta : TaskDelta) (catalogue : List MemberCandidate) : ReleaseResult ResolvedSelection :=
  match selecting nfc release delta catalogue with
  | ⟨refusal :: refusals, _⟩ => .error (refusal :: refusals)
  | ⟨[], selected⟩ => do
    let deltaBytes ← canonicalTaskDelta delta
    let manifest ← canonicalSetReleaseManifest nfc release
    .ok { family := release.family, version := release.version
          releaseDigest := units (digestSetReleaseManifest sha256 manifest)
          taskDeltaDigest := units (digestTaskDelta sha256 deltaBytes)
          modules := selected.map Prod.snd }

end Apply

end SecureHome.Toolchain
