import SecureHome.Lib.Revisions
import SecureHome.Lib.Words

/-! Review history, compared with its prior governed revision. Admitted rounds are append-only,
which is a property of two revisions. -/

namespace SecureHome.Reviews
open Lib

section Paths

def changesRoot : List UInt8 := bytes "openspec/changes/"
def archiveRoot : List UInt8 := bytes "openspec/changes/archive/"

/-- A round of a live change, or one inside an archived change. -/
structure Round where
  change : List UInt8
  file : List UInt8
  deriving DecidableEq, Repr

/-- `[^/]+\.md`. -/
def isRoundFile (name : List UInt8) : Bool := (bytes ".md").isSuffixOf name && 3 < name.length

/-- `REVIEW_RE`. -/
def readReview (path : List UInt8) : Option Round :=
  match path.splitOn 0x2f with
  | [openspec, changes, change, reviews, file] =>
    if openspec = bytes "openspec" ∧ changes = bytes "changes" ∧ change ≠ [] ∧ change ≠ bytes "archive" ∧ reviews = bytes "reviews" ∧
        isRoundFile file = true then some ⟨change, file⟩
    else none
  | _ => none

def isDigit (byte : UInt8) : Bool := 0x30 ≤ byte.toNat && byte.toNat ≤ 0x39

/-- `\d{4}-\d{2}-\d{2}-([^/]+)`. -/
def readDated : List UInt8 → Option (List UInt8)
  | y1 :: y2 :: y3 :: y4 :: dash :: m1 :: m2 :: dash' :: d1 :: d2 :: dash'' :: name =>
    if [y1, y2, y3, y4, m1, m2, d1, d2].all isDigit = true ∧ [dash, dash', dash''].all (· == 0x2d) = true ∧ name ≠ [] then some name else none
  | _ => none

/-- `ARCHIVED_REVIEW_RE`. -/
def readArchivedReview (path : List UInt8) : Option Round :=
  match path.splitOn 0x2f with
  | [openspec, changes, archive, directory, reviews, file] =>
    if openspec = bytes "openspec" ∧ changes = bytes "changes" ∧ archive = bytes "archive" ∧ reviews = bytes "reviews" ∧
        isRoundFile file = true then (readDated directory).map (⟨·, file⟩)
    else none
  | _ => none

def isReview (path : List UInt8) : Bool := (readReview path).isSome
def isArchivedReview (path : List UInt8) : Bool := (readArchivedReview path).isSome

/-- A path below a `reviews` directory, from the longer of the two places where the pattern finds one. -/
def belowReviews (path : List UInt8) : Option (List (List UInt8)) :=
  match path.splitOn 0x2f with
  | openspec :: changes :: change :: rest =>
    if openspec = bytes "openspec" ∧ changes = bytes "changes" ∧ change ≠ [] then
      match rest with
      | inner :: reviews :: first :: others =>
        if inner ≠ [] ∧ reviews = bytes "reviews" ∧ (first ≠ [] ∨ others ≠ []) then some (first :: others)
        else if inner = bytes "reviews" then some (reviews :: first :: others)
        else none
      | [reviews, file] => if reviews = bytes "reviews" ∧ file ≠ [] then some [file] else none
      | _ => none
    else none
  | _ => none

/-- Nested means depth, not file type. -/
def isNestedReviewPath (path : List UInt8) : Bool := (belowReviews path).any fun parts => 1 < parts.length

/-- The name of the change a live review path belongs to. -/
def liveChangeOf (path : List UInt8) : Option (List UInt8) :=
  match path.splitOn 0x2f with
  | openspec :: changes :: change :: reviews :: _ :: _ =>
    if openspec = bytes "openspec" ∧ changes = bytes "changes" ∧ change ≠ [] ∧ reviews = bytes "reviews" then some change else none
  | _ => none

/-- `path.slice(0, path.indexOf(word))`. -/
def upTo (word path : List UInt8) : List UInt8 :=
  match indexOf word path with
  | some index => path.take index
  | none => path.dropLast

/-- `path.slice(path.lastIndexOf(word) + word.length)`. -/
def afterLast (word path : List UInt8) : List UInt8 :=
  match indexOf word.reverse path.reverse with
  | some index => path.drop (path.length - index)
  | none => path.drop (word.length - 1)

end Paths

section Comparison

/-- Two revisions of a repository and what git answers of them. -/
structure Comparison (Commit : Type) where
  tree : Commit → FileTree
  parents : Commit → List Commit
  /-- The printed id of a commit. -/
  printed : Commit → List UInt8
  base : Commit
  head : Commit
  /-- `git rev-list base..HEAD`. -/
  window : List Commit
  window_exact : ∀ commit, commit ∈ window ↔ Between parents base head commit
  changes : List TreeChange
  compares : Compares (tree base) (tree head) changes

variable {Commit : Type} (git : Comparison Commit)

def Comparison.old : FileTree := git.tree git.base
def Comparison.new : FileTree := git.tree git.head

def abbreviated (commit : Commit) : List UInt8 := (git.printed commit).take 12

def quoted (path : List UInt8) : List UInt8 := bytes "\"" ++ path ++ bytes "\""

/-- What a parent of a candidate says against it, or that it is a witness. -/
inductive ParentAnswer where
  | witness
  | present
  | rejected (reason : List UInt8)
  deriving DecidableEq, Repr

def askParent (historicalPath currentPath : List UInt8) (finalBlob : NamedObject) (candidate parent : Commit) : ParentAnswer :=
  match (git.tree parent).blobAt historicalPath with
  | some _ => .present
  | none =>
    match (git.tree parent).blobAt currentPath with
    | none => .rejected (abbreviated git candidate ++ bytes "^ (" ++ abbreviated git parent ++ bytes ") carries no preimplementation-review.md")
    | some current =>
      if .blob current ≠ finalBlob then
        .rejected (bytes "at " ++ abbreviated git candidate ++ bytes "^ (" ++ abbreviated git parent ++
          bytes ") the current review was a different document")
      else .witness

/-- What is found before the first witness, if there is one. -/
def searchWitness (historicalPath currentPath : List UInt8) (finalBlob : NamedObject) : List Commit → List (List UInt8) → Option (List (List UInt8))
  | [], rejected => some rejected
  | candidate :: rest, rejected =>
    match git.parents candidate with
    | [] => searchWitness historicalPath currentPath finalBlob rest
        (rejected ++ [abbreviated git candidate ++ bytes " is a root commit, so it archived nothing"])
    | parents =>
      let answers := parents.map (askParent git historicalPath currentPath finalBlob candidate)
      if .witness ∈ answers then none
      else searchWitness historicalPath currentPath finalBlob rest
        (rejected ++ answers.filterMap fun | .rejected reason => some reason | _ => none)

def countText (count : Nat) : List UInt8 := bytes (toString count)

/-- Proves that an admission was a transition. -/
def admissionProvenanceProblem (historicalPath : List UInt8) : Option (List UInt8) :=
  let changeRoot := upTo (bytes "/reviews/") historicalPath
  let currentPath := changeRoot ++ bytes "/preimplementation-review.md"
  match git.new.revParse historicalPath with
  | none => some (quoted historicalPath ++ bytes ": HEAD does not carry it, so there are no bytes to account for")
  | some finalBlob =>
    if git.window = [] then some (quoted historicalPath ++ bytes ": no commit in this window adds it")
    else
      let carrying := git.window.filter fun commit => ((git.tree commit).blobAt historicalPath).map .blob = some finalBlob
      if carrying = [] then
        some (quoted historicalPath ++ bytes (": no revision between the base and HEAD carries the bytes HEAD " ++
          "carries, so the file at HEAD was never admitted in this window"))
      else
        (searchWitness git historicalPath currentPath finalBlob carrying []).map fun rejected =>
          quoted historicalPath ++ bytes " does not match the current review it claims to archive: " ++ countText carrying.length ++
            bytes (" revision(s) carry its bytes and none archives them from the " ++
              "change's current review. Admission is a transition, not an authored file") ++
            (if rejected = [] then [] else bytes " — " ++ (bytes "; ").intercalate (rejected.take 3))

/-- Is the change genuinely being archived, rather than merely having a review taken away from it? -/
def isWholeChangeArchived (changeName archiveDir : List UInt8) : Bool :=
  let liveDir := changesRoot ++ changeName
  git.new.lsTree liveDir = [] && git.old.lsTree liveDir ≠ [] && git.new.lsTree archiveDir ≠ []

/-- Validates one review move into the archive, in full. -/
def archiveMoveProblem (source target : List UInt8) : Option (List UInt8) :=
  match liveChangeOf source with
  | none => some (quoted source ++ bytes " is not a review inside a live change, so it cannot be archived")
  | some change =>
    match readArchivedReview target with
    | none => some (quoted target ++ bytes (" is not openspec/changes/archive/YYYY-MM-DD-<change-name>/reviews/<file>.md; " ++
        "a review leaves a live change only by archiving that change"))
    | some archived =>
      let archiveDir := upTo (bytes "/reviews/") target
      if archived.change ≠ change then
        some (quoted source ++ bytes " belongs to change " ++ quoted change ++ bytes " but was moved under archive identity " ++
          quoted archived.change ++ bytes "; a review may not be reassigned to another change")
      else if archived.file ≠ afterLast (bytes "/") source then
        some (quoted source ++ bytes " was renamed to " ++ quoted archived.file ++ bytes " while archiving; rounds keep their name")
      else if isWholeChangeArchived git change archiveDir = false then
        some (quoted source ++ bytes " was moved into " ++ quoted archiveDir ++ bytes " while change " ++ quoted change ++
          bytes " is still live. A review leaves a live change only as part of archiving the whole change")
      else if git.old.revParse source = none ∨ git.new.revParse target = none ∨ git.old.revParse source ≠ git.new.revParse target then
        some (quoted source ++ bytes " was archived to " ++ quoted target ++
          bytes " with modified bytes. An archive move may relocate a round; it may not rewrite one")
      else none

/-- What one line of the comparison comes to. -/
inductive Judgement where
  | skipped
  | refused (problem : List UInt8)
  | added
  | carried
  | archived
  deriving DecidableEq, Repr

def judgeMove (source target : List UInt8) : Judgement :=
  match archiveMoveProblem git source target with
  | some problem => .refused (bytes "review history " ++ problem)
  | none => .archived

def judgeRename (source target : List UInt8) : Judgement :=
  if isReview source = false ∧ isArchivedReview source = false then .skipped
  else if isArchivedReview source then
    .refused (bytes "review history " ++ quoted source ++ bytes " was moved out of the archive to " ++ quoted target ++
      bytes ". An archived change is immutable")
  else if isArchivedReview target = false then
    if archiveRoot.isPrefixOf target then
      .refused (bytes "review history " ++ quoted source ++ bytes " was moved to " ++ quoted target ++
        bytes (", which is not openspec/changes/archive/YYYY-MM-DD-<change-name>/reviews/<file>.md; " ++
          "a review leaves a live change only by archiving that change"))
    else
      .refused (bytes "review history " ++ quoted source ++ bytes " was renamed to " ++ quoted target ++
        bytes ". An admitted round is append-only: add a new round, never rewrite one in place")
  else judgeMove git source target

def judgeArchivedAddition (path : List UInt8) (archived : Round) : Judgement :=
  let liveSource := changesRoot ++ archived.change ++ bytes "/reviews/" ++ afterLast (bytes "/reviews/") path
  if git.old.revParse liveSource ≠ none then judgeMove git liveSource path
  else
    .refused (bytes "review history " ++ quoted path ++
      bytes (" first appears inside an archived change. An archived change is a closed record: add the round to the live change " ++
        "before archiving it"))

def judgeAddition (path : List UInt8) : Judgement :=
  match admissionProvenanceProblem git path with
  | some problem => .refused (bytes "review history " ++ problem)
  | none => .added

/-- A deleted round whose bytes may have reappeared in the archive. -/
def judgeDeletion (path : List UInt8) : Judgement :=
  match (git.new.lsTree archiveRoot).find? ((bytes "/" ++ afterLast (bytes "/reviews/") path).isSuffixOf ·) with
  | some destination => judgeMove git path destination
  | none =>
    .refused (bytes "review history " ++ quoted path ++ bytes (" was deleted. Historical rounds are append-only; " ++
      "archiving may relocate a round byte-for-byte, but nothing may remove one"))

def judgeNested (offender : List UInt8) : Judgement :=
  .refused (bytes "review history " ++ quoted offender ++ bytes (" is nested inside a reviews/ directory. An " ++
    "admitted round is a direct child named <epoch>-<reviewed-sha12>.md, because that is the only path whose admission provenance " ++
    "this check can prove. A nested path is not a second supported representation"))

/-- One line of the comparison, by its status and its paths as they are printed. -/
def judgeChange (status source : List UInt8) (target : Option (List UInt8)) : Judgement :=
  if isNestedReviewPath source ∨ target.any isNestedReviewPath then
    judgeNested (if isNestedReviewPath source then source else target.getD [])
  else if (bytes "R").isPrefixOf status then judgeRename git source (target.getD [])
  else
    match if status = bytes "A" then readArchivedReview source else none with
    | some archived => judgeArchivedAddition git source archived
    | none =>
      if isReview source = false then .skipped
      else if status = bytes "A" then judgeAddition git source
      else if status = bytes "M" ∨ status = bytes "T" then
        .refused (bytes "review history " ++ quoted source ++ bytes (" was modified. Historical rounds are append-only: " ++
          "copy the superseded review to a new round instead of editing an admitted one"))
      else if status = bytes "D" then judgeDeletion git source
      else .carried

def isBlank (line : List UInt8) : Bool := line.all fun byte => byte == 0x20 || (0x09 ≤ byte.toNat && byte.toNat ≤ 0x0d)

def judgeLine (line : List UInt8) : Judgement :=
  if isBlank line then .skipped
  else match line.splitOn 0x09 with
    | status :: source :: rest => judgeChange git status source rest.head?
    -- A line without a path names no round.
    | _ => .skipped

structure HistoryReport where
  problems : List (List UInt8)
  added : Nat
  carried : Nat
  archived : Nat
  deriving DecidableEq, Repr

def HistoryReport.count (report : HistoryReport) : Judgement → HistoryReport
  | .skipped => report
  | .refused problem => { report with problems := report.problems ++ [problem] }
  | .added => { report with added := report.added + 1 }
  | .carried => { report with carried := report.carried + 1 }
  | .archived => { report with archived := report.archived + 1 }

/-- Judges every line of the comparison. -/
def checkReviewHistory (raw : Option (List UInt8)) : HistoryReport :=
  match raw with
  | none =>
    ⟨[bytes "the authoritative comparison " ++ git.printed git.base ++ bytes ("..HEAD could not be established, so " ++
      "NOTHING was compared. This refuses rather than reporting zero changed " ++
      "review files: an unestablished comparison is not an empty one")], 0, 0, 0⟩
  | some raw => (raw.splitOn 0x0a).foldl (fun report line => report.count (judgeLine git line)) ⟨[], 0, 0, 0⟩

end Comparison

end SecureHome.Reviews
