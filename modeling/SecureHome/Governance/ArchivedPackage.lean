import SecureHome.Governance.PathSets
import SecureHome.Governance.Digests

/-! The archived package of a delivery. Its members are named with the digests of their
bytes, and the snapshots and the checkout have to hold exactly them. -/

namespace SecureHome.Governance
open Lib Toolchain

section Stages

/-- A stage of a check: it adds problems and goes on, adds them and stops, or throws. -/
inductive Stage where
  | goes (problems : List Problem)
  | stops (problems : List Problem)
  | throws
  deriving DecidableEq

def Stage.refuse (wrong : Bool) (code : String) (path message : JsString) : Stage :=
  if wrong then .stops [⟨code, path, message⟩] else .goes []

/-- The problems that the stages add, and the verdict; nothing if one throws. -/
def runStages : List Stage → Option (List Problem × Bool)
  | [] => some ([], true)
  | .goes problems :: rest => (runStages rest).map fun later => (problems ++ later.1, later.2)
  | .stops problems :: _ => some (problems, false)
  | .throws :: _ => none

end Stages

section Observations

inductive Status where
  | present
  | absent
  | error
  deriving DecidableEq, Repr

structure TreeEntry where
  mode : JsString
  sha256 : Option JsString
  deriving DecidableEq

/-- A map of what a tree holds, by relative paths. -/
structure Entries where
  rows : List (JsString × TreeEntry)
  distinct : (rows.map Prod.fst).Nodup

inductive TreeAnswer where
  | present (entries : Entries)
  | absent
  | error

def TreeAnswer.status : TreeAnswer → String
  | present _ => "PRESENT"
  | absent => "ABSENT"
  | error => "OBSERVATION_ERROR"

/-- What a repository answers about its commits. -/
structure Observer where
  commitExists : Option Value → Status
  isReachable : Option Value → Status
  pathExistsAt : Option Value → JsString → Status
  treeAt : Option Value → JsString → TreeAnswer

structure Checkout where
  pathExists : JsString → Except JsString Bool
  tree : JsString → Except JsString (Option Entries)

structure PackageContext where
  observe : Option Observer
  readBytes : Option (JsString → Except JsString (Option (List UInt8)))
  checkout : Option Checkout

structure ReviewedArtifact where
  path : JsString
  sha256 : JsString
  deriving DecidableEq

inductive ReviewFailure where
  | contract (code message : JsString)
  | other

/-- The digests, and the reading of a review as the artifacts of an accepting record. -/
structure PackageReaders where
  sha256Bytes : List UInt8 → JsString
  sha256Text : JsString → JsString
  reviewRecord : List UInt8 → Except ReviewFailure (List ReviewedArtifact)

/-- A status other than the one expected is refused. An unanswered question is refused on its own, or besides. -/
def observedStage (status expectation : Status) (besides : Bool) (path : JsString) (what code message : String) : Stage :=
  let unanswered : Problem := ⟨"ADV-G81", path, units what ++
    units " could not be observed; an unanswered repository question is a refusal, never a satisfied absence"⟩
  if status = .error then .stops (unanswered :: if besides then [⟨code, path, units message⟩] else [])
  else .refuse (status ≠ expectation) code path (units message)

def regularMode : JsString := units "100644"

/-- The problem of an entry, or the member it is. -/
def observedMember (path : JsString) (code label : String) (relative : JsString) (entry : TreeEntry) : Problem ⊕ (JsString × JsString) :=
  if entry.mode ≠ regularMode then .inl ⟨code, path, units label ++ units ": " ++ relative ++ units " has Git mode " ++ entry.mode ++
    units "; every member must be a regular " ++ regularMode ++ units " file"⟩
  else
    match entry.sha256 with
    | none => .inl ⟨code, path, units label ++ units ": " ++ relative ++ units " could not be read as bytes"⟩
    | some digest => .inr (relative, digest)

def observedMembers (entries : Entries) (path : JsString) (code label : String) : List Problem × List (JsString × JsString) :=
  let answers := (sortByBytes Prod.fst entries.rows).map fun (relative, entry) => observedMember path code label relative entry
  (answers.filterMap Sum.getLeft?, answers.filterMap Sum.getRight?)

def describeMembers (members : List (JsString × JsString)) : JsString :=
  (units ", ").intercalate (members.map fun (path, digest) => path ++ units "@" ++ digest.take 8)

/-- The entries of a tree are held against the declared members. -/
def treeStages (entries : Entries) (members : List (JsString × JsString)) (path : JsString) (label mismatch : String) : List Stage :=
  let (problems, seen) := observedMembers entries path "ADV-G85" label
  [.goes problems, .refuse (seen ≠ members) "ADV-G85" path (units mismatch ++ describeMembers seen)]

def treeAtStages (answer : TreeAnswer) (members : List (JsString × JsString)) (path : JsString) (unobserved label mismatch : String) :
    List Stage :=
  match answer with
  | .present entries => treeStages entries members path label mismatch
  | other => [.stops [⟨"ADV-G85", path, units unobserved ++ units " (" ++ units other.status ++ units ")"⟩]]

end Observations

section Fields

def archivedContract : String := "archived-openspec-change-v1"

def archivedFields : List String :=
  ["schemaVersion", "contract", "changeId", "activeRoot", "archiveRoot", "members", "bundleSha256", "reviewedIdentity",
    "archivedPackageIdentity"]

def memberFields : List String := ["path", "contentSha256"]

def archivedIdentityFields : List String := ["class", "value", "scope"]

def requiredMembers : List String := [".openspec.yaml", "proposal.md", "design.md", "assurance.md", "tasks.md"]

def reviewFile : String := "preimplementation-review.md"

def namesOf : Value → List JsString
  | .object fields => fields.map Prod.fst
  | _ => []

def exactKeys (value : Value) (expected : List String) (path : JsString) (code : String) : Stage :=
  let actual := sortByText id (namesOf value)
  let wanted := sortByText id (expected.map units)
  .refuse (actual ≠ wanted) code path (units "fields differ; expected " ++ (units ", ").intercalate wanted ++ units "; got " ++
    (units ", ").intercalate actual)

def isLowerHexUnit (unit : UInt16) : Bool := isDigit unit || 0x61 ≤ unit.toNat && unit.toNat ≤ 0x66

def isHashOf (length : Nat) (text : JsString) : Bool := text.length = length && text.all isLowerHexUnit

def isSha256 : Option Value → Bool
  | some (.string text) => isHashOf 64 text
  | _ => false

/-- `OID`, to which a value is its text. -/
def isObjectId (value : Option Value) : Bool := isHashOf 40 (textOf value)

/-- A letter, a colon and a slash of either kind. -/
def isDriveForm : JsString → Bool
  | letter :: colon :: slash :: _ => isAlphanumeric letter && !isDigit letter && colon = 0x3a && (slash = 0x5c || slash = 0x2f)
  | _ => false

def safeMemberPath : Option Value → Bool
  | some (.string text) =>
    text ≠ [] && text.head? ≠ some 0x2f && !isDriveForm text && !text.contains 0x5c &&
      (text.splitOn 0x2f).all fun segment => segment ≠ [] && segment ≠ units "." && segment ≠ units ".."
  | _ => false

/-- `CHANGE_ID`. -/
def isChangeId (text : JsString) : Bool :=
  (text.splitOn 0x2d).all fun word => word ≠ [] && word.all fun unit => isDigit unit || 0x61 ≤ unit.toNat && unit.toNat ≤ 0x7a

def decimalOf (digits : JsString) : Nat := digits.foldl (fun total unit => 10 * total + (unit.toNat - 0x30)) 0

def isRealDate (year month day : Nat) : Bool :=
  let leap := (year % 4 = 0 && year % 100 ≠ 0) || year % 400 = 0
  let lengths := [31, if leap then 29 else 28, 31, 30, 31, 30, 31, 31, 30, 31, 30, 31]
  1 ≤ month && month ≤ 12 && 1 ≤ day && day ≤ lengths.getD (month - 1) 0

def endsJsLine (unit : UInt16) : Bool := unit = 0x0a || unit = 0x0d || unit = 0x2028 || unit = 0x2029

/-- `DATED_PREFIX`: a date, and the text behind it. -/
def datedPrefix (text : JsString) : Option ((JsString × JsString × JsString) × JsString) :=
  let year := text.take 4
  let month := (text.drop 5).take 2
  let day := (text.drop 8).take 2
  let rest := text.drop 11
  if (year ++ month ++ day).length = 8 && (year ++ month ++ day).all isDigit && text[4]? = some 0x2d && text[7]? = some 0x2d &&
      text[10]? = some 0x2d && rest ≠ [] && !rest.any endsJsLine then
    some ((year, month, day), rest)
  else none

end Fields

section Package

variable (readers : PackageReaders) (value : Value) (path : JsString)

def changeId : JsString := textOf (read value "changeId")

def activeRoot : JsString := textOf (read value "activeRoot")

def archiveRoot : JsString := textOf (read value "archiveRoot")

def activePrefix : JsString := units "openspec/changes/"

def archivePrefix : JsString := units "openspec/changes/archive/"

/-- A member as its path and the digest of its bytes. -/
def memberPair (member : Value) : JsString × JsString := (textOf (read member "path"), textOf (read member "contentSha256"))

def memberPairs : List (JsString × JsString) := (members value "members").map memberPair

def under (name : String) : JsString := path ++ units "." ++ units name

/-- The fields of a package, and that it has members. -/
def headStages : List Stage :=
  let dated := datedPrefix ((archiveRoot value).drop archivePrefix.length)
  let expected := activePrefix ++ changeId value
  [.refuse (!isObject (some value)) "ADV-G78" path (units "archivedOpenSpec must be an object"),
    exactKeys value archivedFields path "ADV-G78",
    .refuse (!(match read value "schemaVersion" with | some (.number version) => version.text = units "1" | _ => false)) "ADV-G78"
      (under path "schemaVersion") (units "must be 1"),
    .refuse (!isText (read value "contract") archivedContract) "ADV-G78" (under path "contract")
      (units "must be " ++ units archivedContract),
    .refuse (!(textAt value "changeId").any isChangeId) "ADV-G78" (under path "changeId") (units "is not a canonical change id"),
    .refuse (textAt value "activeRoot" ≠ some expected) "ADV-G78" (under path "activeRoot") (units "must be " ++ expected),
    .refuse (!(textAt value "archiveRoot").any fun root => root.take archivePrefix.length = archivePrefix) "ADV-G78"
      (under path "archiveRoot") (units "must be under the archive root"),
    .refuse (!dated.any fun ((year, month, day), rest) =>
        isRealDate (decimalOf year) (decimalOf month) (decimalOf day) && rest = changeId value) "ADV-G78"
      (under path "archiveRoot") (units "must be a valid YYYY-MM-DD date followed by exactly the change id"),
    .refuse (!isArray (read value "members")) "ADV-G79" (under path "members") (units "must be an array"),
    .refuse ((members value "members").isEmpty) "ADV-G79" (under path "members")
      (units "is empty; a required member set that resolves to nothing is refused")]

/-- A member, after others of these paths. One that is no object ends the check without a problem. -/
def oneMemberStages (index : Nat) (seen : List JsString) (member : Value) : List Stage :=
  let memberPath := path ++ units ".members[" ++ units index.repr ++ units "]"
  [if isObject (some member) then exactKeys member memberFields memberPath "ADV-G79" else .stops [],
    .refuse (!safeMemberPath (read member "path")) "ADV-G84" (under memberPath "path") (units "is not a safe relative member path"),
    .refuse (!isSha256 (read member "contentSha256")) "ADV-G79" (under memberPath "contentSha256") (units "must be a lowercase SHA-256"),
    .refuse (seen.contains (memberPair member).1) "ADV-G79" (under memberPath "path") (units "is a duplicate member path")]

def memberStages : Nat → List JsString → List Value → List Stage
  | _, _, [] => []
  | index, seen, member :: rest => oneMemberStages path index seen member ++ memberStages (index + 1) ((memberPair member).1 :: seen) rest

/-- The members, as the text of the sorted ones tells them apart. -/
def membersSorted (items : List Value) : Bool :=
  stringify (.array (sortByBytes (fun member => (memberPair member).1) items)) = stringify (.array items)

def isDeltaSpec (name : JsString) : Bool := (units "specs/").isPrefixOf name && (units "/spec.md").isSuffixOf name

def bundlePreimage : Value :=
  objectOf [("schemaVersion", some (.number versionOne)), ("contract", some (.string (units archivedContract))),
    ("changeId", read value "changeId"), ("activeRoot", read value "activeRoot"), ("archiveRoot", read value "archiveRoot"),
    ("members", some (.array ((sortByBytes (fun member => (memberPair member).1) (members value "members")).map fun member =>
      objectOf [("path", read member "path"), ("contentSha256", read member "contentSha256")])))]

def bundleSha256 : JsString := readers.sha256Text (canonicalSerialize (bundlePreimage value))

/-- The order of the members, the ones that have to be there, and the digest of the bundle. -/
def bundleStages (waived : List JsString) : List Stage :=
  let names := (memberPairs value).map Prod.fst
  .refuse (!membersSorted (members value "members")) "ADV-G79" (under path "members") (units "must be sorted by canonical member path") ::
    (requiredMembers.map fun required =>
      .refuse (!names.contains (units required) && !waived.contains (units required)) "ADV-G78" (under path "members")
        (units "the minimum OpenSpec package structure requires " ++ units required)) ++
    [.refuse (!names.any isDeltaSpec && !waived.contains (units "specs/**/spec.md")) "ADV-G78" (under path "members")
        (units "the minimum OpenSpec package structure requires at least one specs/**/spec.md"),
      .refuse (!isSha256 (read value "bundleSha256")) "ADV-G80" (under path "bundleSha256") (units "must be a lowercase SHA-256"),
      .refuse (textAt value "bundleSha256" ≠ some (bundleSha256 readers value)) "ADV-G80" (under path "bundleSha256")
        (units "does not match the canonical bundle preimage; expected " ++ bundleSha256 readers value)]

def scopeOf (identity : Option Value) : List JsString := ((identity.map fun value => members value "scope").getD []).map stringOf

/-- A provenance identity. One that is no object ends the check without a problem. -/
def identityStages (name : String) : List Stage :=
  let identity := read value name
  let scopeProblems := canonicalPathSetProblems (readIn identity "scope")
  [if isObject identity then exactKeys (identity.getD .null) archivedIdentityFields (under path name) "ADV-G81" else .stops [],
    .refuse (scopeProblems ≠ []) "ADV-G84" (under (under path name) "scope") ((units "; ").intercalate scopeProblems),
    .refuse ((scopeOf identity).isEmpty) "ADV-G81" (under (under path name) "scope") (units "must be a non-empty canonical scope")]

def classStages : List Stage :=
  let reviewed := read value "reviewedIdentity"
  let archivedPkg := read value "archivedPackageIdentity"
  [.refuse (!isText (readIn archivedPkg "class") "local-git-commit") "ADV-G81" (under path "archivedPackageIdentity.class")
      (units ("must be local-git-commit; the archived package lands in durable current history by " ++
        "construction, so it needs no content alternative")),
    .refuse (!isObjectId (readIn archivedPkg "value")) "ADV-G81" (under path "archivedPackageIdentity.value") (units "is not an object id"),
    .refuse (!oneOf (readIn reviewed "class") ["local-git-commit", "content-sha256"]) "ADV-G81" (under path "reviewedIdentity.class")
      (units ("must be local-git-commit or content-sha256; an external-git-commit is opaque and cannot " ++ "satisfy completion"))]

/-- The archived package at its own snapshot. -/
def snapshotStages (observe : Observer) : List Stage :=
  let commit := readIn (read value "archivedPackageIdentity") "value"
  let place := under path "archivedPackageIdentity"
  [observedStage (observe.commitExists commit) .present true place "the archived-package commit" "ADV-G81"
      "the archived-package commit object is absent",
    observedStage (observe.isReachable commit) .present true place "archived-package reachability" "ADV-G81"
      ("the archived-package commit is not reachable from the current history; the archive is " ++
        "expected to have landed durably, so this is a refusal rather than object presence"),
    observedStage (observe.pathExistsAt commit (archiveRoot value)) .present false place
      "the archive root at the archived snapshot" "ADV-G85"
      "the archive root is absent at the archived-package snapshot",
    observedStage (observe.pathExistsAt commit (activeRoot value)) .absent false place "the active root at the archived snapshot" "ADV-G85"
      "the active root survives at the archived-package snapshot; archived is archive-only"] ++
    treeAtStages (observe.treeAt commit (archiveRoot value)) (memberPairs value) path "the archived-package tree could not be observed"
      "archived-package tree" "the archived-package tree does not match the declared members: observed "

def checkoutStages (checkout : Option Checkout) : List Stage :=
  match checkout with
  | none => [.stops [⟨"ADV-G85", path, units "the current checkout cannot be observed"⟩]]
  | some checkout =>
    match (checkout.pathExists (activeRoot value)).bind fun active => (checkout.tree (archiveRoot value)).map (active, ·) with
    | .error message => [.stops [⟨"ADV-G84", path, units "the current checkout is unsafe to read: " ++ message⟩]]
    | .ok (active, entries) =>
      .refuse active "ADV-G85" path (units "the active package still exists in the current checkout; the archive must replace it") ::
        match entries with
        | none => [.stops [⟨"ADV-G85", path, units "the archive root is absent in the current checkout"⟩]]
        | some entries => treeStages entries (memberPairs value) path "current checkout"
            "the current checkout does not match the declared members: observed "

/-- The reviewed snapshot: another commit, reachable, that has the active root alone and under it the members. -/
def verifyCommitReviewedIdentity (place : JsString) (observe : Observer) : List Stage :=
  let commit := readIn (read value "reviewedIdentity") "value"
  [observedStage (observe.commitExists commit) .present true place "the reviewed commit" "ADV-G81"
      "the reviewed commit object is absent; completion requires external verification",
    observedStage (observe.isReachable commit) .present true place "reachability" "ADV-G81"
      ("the reviewed commit is present but not reachable from the current history, so it is " ++
        "not durable local proof; completion requires external verification"),
    .refuse (same commit (readIn (read value "archivedPackageIdentity") "value")) "ADV-G85" place
      (units "the reviewed and archived-package snapshots must be different commits"),
    observedStage (observe.pathExistsAt commit (activeRoot value)) .present false place "the active root at the reviewed snapshot" "ADV-G85"
      "the active root is absent at the reviewed snapshot",
    observedStage (observe.pathExistsAt commit (archiveRoot value)) .absent false place
      "the archive root at the reviewed snapshot" "ADV-G85"
      "the archive root exists at the reviewed snapshot; reviewed is active-only"] ++
    treeAtStages (observe.treeAt commit (activeRoot value)) (memberPairs value) place "the reviewed active tree could not be observed"
      "reviewed active tree" "the reviewed active tree does not match the declared members: observed "

def planningPrefix : List String := [".openspec.yaml", "proposal.md"]

def planningSuffix : List String := ["design.md", "assurance.md", "tasks.md"]

/-- The delta specs among some paths, in canonical order. -/
def deltaSpecPaths (names : List JsString) : List JsString :=
  sortByBytes id (names.filter fun name => (units "specs/").isPrefixOf name && (units ".md").isSuffixOf name)

def planningProjection (specPaths : List JsString) : Option (List JsString) :=
  if specPaths = [] then none
  else some (planningPrefix.map units ++ sortByBytes id specPaths ++ planningSuffix.map units)

/-- A reviewed artifact is an archived member of the same bytes. -/
def artifactStages (place : JsString) (artifact : ReviewedArtifact) : List Stage :=
  match (memberPairs value).lookup artifact.path with
  | none => [.stops [⟨"ADV-G81", place, units "reviewed artifact " ++ artifact.path ++ units " is not an archived member"⟩]]
  | some digest => [.refuse (digest ≠ artifact.sha256) "ADV-G81" place (units "reviewed artifact " ++ artifact.path ++
      units " was reviewed at " ++ artifact.sha256.take 12 ++ units " but the archived member is " ++ digest.take 12)]

/-- An accepting record names exactly the planning artifacts, each with the bytes of the member. -/
def recordStages (place : JsString) (bytes : List UInt8) : List Stage :=
  match readers.reviewRecord bytes with
  | .error .other => [.throws]
  | .error (.contract code message) => [.stops [⟨"ADV-G81", place,
      units "the review artifact is not a complete accepting preimplementation-review-v2 record: " ++ code ++ units ": " ++ message⟩]]
  | .ok artifacts =>
    match planningProjection (deltaSpecPaths ((memberPairs value).map Prod.fst)) with
    | none => [.stops [⟨"ADV-G81", place,
        units "NO_DELTA_SPECS: governed-spec-driven-v2 requires at least one specs/**/*.md file"⟩]]
    | some expected =>
      let declared := sortByBytes id (artifacts.map ReviewedArtifact.path)
      let wanted := sortByBytes id expected
      let missing := wanted.filter fun name => !declared.contains name
      let extra := declared.filter fun name => !wanted.contains name
      .refuse (declared ≠ wanted) "ADV-G81" place (units "the review manifest is not the complete planning projection" ++
          (if missing ≠ [] then units "; missing " ++ (units ", ").intercalate missing else []) ++
          (if extra ≠ [] then units "; unexpected " ++ (units ", ").intercalate extra else [])) ::
        artifacts.flatMap (artifactStages value place)

/-- The review artifact: the member of that name, by its bytes. -/
def verifyContentReviewedIdentity (place : JsString) (readBytes : Option (JsString → Except JsString (Option (List UInt8)))) : List Stage :=
  let identity := read value "reviewedIdentity"
  let expectedScope := archiveRoot value ++ units "/" ++ units reviewFile
  .refuse (scopeOf identity ≠ [expectedScope]) "ADV-G81" (under place "scope")
      (units "a content-backed reviewed identity names exactly the accepted review artifact (" ++ expectedScope ++
        units "); an arbitrary package member is not a whole-package reviewed identity") ::
    match readBytes with
    | none => [.stops [⟨"ADV-G81", place, units "the review artifact cannot be read locally"⟩]]
    | some readBytes =>
      match readBytes expectedScope with
      | .error message => [.stops [⟨"ADV-G81", place, units "the review artifact is unreadable: " ++ message⟩]]
      | .ok none => [.stops [⟨"ADV-G81", place, units "the review artifact is missing"⟩]]
      | .ok (some bytes) =>
        let actual := readers.sha256Bytes bytes
        .refuse (!match readIn identity "value" with | some (.string text) => text = actual | _ => false) "ADV-G81" (under place "value")
            (units "the identity value is not the SHA-256 of the review artifact bytes") ::
          match (memberPairs value).lookup (units reviewFile) with
          | none => [.stops [⟨"ADV-G81", place, units "the package declares no " ++ units reviewFile ++
              units " member, so there is no reviewed record to bind"⟩]]
          | some declared =>
            .refuse (declared ≠ actual) "ADV-G81" (under place "value") (units "the reviewed record's bytes are not the declared " ++
                units reviewFile ++ units " member: identity " ++ actual.take 12 ++ units " vs member " ++ declared.take 12) ::
              recordStages readers value place bytes

/-- The stages over the repository, once the package is well formed. -/
def observationStages (context : PackageContext) : List Stage :=
  match context.observe with
  | none => [.stops [⟨"ADV-G81", path, units "repository observations are unavailable"⟩]]
  | some observe =>
    snapshotStages value path observe ++ checkoutStages value path context.checkout ++
      if isText (readIn (read value "reviewedIdentity") "class") "local-git-commit" then
        verifyCommitReviewedIdentity value (under path "reviewedIdentity") observe
      else verifyContentReviewedIdentity readers value (under path "reviewedIdentity") context.readBytes

def archiveStages (context : PackageContext) (waived : List JsString) : List Stage :=
  headStages value path ++ memberStages path 0 [] (members value "members") ++ bundleStages readers value path waived ++
    identityStages value path "reviewedIdentity" ++ identityStages value path "archivedPackageIdentity" ++ classStages value path ++
    observationStages readers value path context

def validateArchive (context : PackageContext) (waived : List JsString) : Option (List Problem × Bool) :=
  runStages (archiveStages readers value path context waived)

def validateArchivedOpenSpec (context : PackageContext) : Option (List Problem × Bool) := validateArchive readers value path context []

end Package

end SecureHome.Governance
