import SecureHome.Toolchain.SetRelease
import SecureHome.Governance.Validate

/-! Canonical sets of repository paths: duplicate-free, and in the order of their bytes. -/

namespace SecureHome.Governance
open Lib Toolchain

/-- Byte order, so that the canonical order is no locale's. -/
def compareRepoPaths (left right : JsString) : Int := byBytes left right

def isStringValue : Value → Bool
  | .string _ => true
  | _ => false

/-- What is wrong with each member on its own. -/
def memberShapes : Nat → List Value → List JsString
  | _, [] => []
  | index, member :: rest =>
    (if !isStringValue member then [units "[" ++ units index.repr ++ units "] must be a string"]
    else if !isRepoPath (stringOf member) then [units "[" ++ units index.repr ++ units "] is not a repository-relative POSIX path"]
    else []) ++ memberShapes (index + 1) rest

def repeatedPaths : List JsString → List JsString → List JsString
  | _, [] => []
  | seen, member :: rest => (if member ∈ seen then [units "contains a duplicate path"] else []) ++ repeatedPaths (member :: seen) rest

def canonicalPathSetProblems (value : Option Value) : List JsString :=
  match value with
  | some (.array items) =>
    let shapes := memberShapes 0 items
    let paths := items.map stringOf
    let repeated := repeatedPaths [] paths
    if shapes ≠ [] then shapes
    else if repeated ≠ [] then repeated
    else if (paths.mergeSort fun left right => decide (compareRepoPaths left right ≤ 0)) ≠ paths then
      [units "must be in canonical path order"]
    else []
  | _ => [units "must be an array of canonical repository-relative paths"]

end SecureHome.Governance
