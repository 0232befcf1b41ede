import Mathlib
import SecureHome.Lib.Fallible
import SecureHome.Core.Decisions
import SecureHome.Core.Primitives

/-! Materialization eligibility over the observed change set. Protection outranks the
roots and the bounds, and a refusal refuses the whole set. -/

namespace SecureHome.Core
open Lib Contracts

/-- A change under its normalized path. -/
def normalizedChange (subject : String) (change : ObservedChange) : Except Refusal ObservedChange :=
  match normalizePath change.path with
  | .ok path => .ok { change with path }
  | .error reason => .error ⟨.pathUndecidable, change.path, none, s!"{subject} cannot be normalized: {reason}"⟩

/-- Derive the authoritative change set from host observation only. -/
def deriveAuthoritativeChangeSet : WorkspaceObservation → ObservedDecision AuthoritativeChangeSet
  | .failed failure => .operationalFailure ⟨"workspace", s!"observation reported failed: {failure}"⟩
  | .ok changes =>
    match changes.mapM (normalizedChange "observed path") with
    | .ok normalized => .proceed ⟨canonicalSort normalized (·.path)⟩
    | .error refusal => .refusal refusal

structure Materializable where
  changes : List ObservedChange
  /-- The bound names checked, for refusal-evidence completeness. -/
  boundsChecked : List String
  deriving DecidableEq, Repr

section Decide

variable (policy : PathPolicy)

/-- The normalized protected sources, after the declared prohibitions. -/
def protectedPrefixes (protectedSources : List String) : Except Refusal (List String) := do
  let normalized ← protectedSources.mapM fun source =>
    (normalizePath source).mapError fun reason => Refusal.mk .pathUndecidable source none
      (s!"protected authority source cannot be normalized: {reason} — an unestablishable protection refuses " ++
        "rather than lapsing")
  return policy.prohibitedPrefixes ++ normalized

def normalizedRoots : Except Refusal (List String) :=
  policy.allowedWriteRoots.mapM fun root =>
    (normalizePath root).mapError fun reason => Refusal.mk .pathUndecidable root none
      s!"declared write root cannot be normalized: {reason}"

/-- A path and where it leads: its link's target, if it is reached through one. -/
def effectiveEntry (change : ObservedChange) : Except Refusal (String × String) :=
  match change.linkTarget with
  | none => .ok (change.path, change.path)
  | some linkTarget =>
    match normalizePath linkTarget with
    | .ok target => .ok (change.path, target)
    | .error reason => .error ⟨.pathUndecidable, change.path, some linkTarget,
        s!"path is reached through a link whose reported target cannot be normalized: {reason}"⟩

/-- A path's entry in the table is the one set last. -/
def effectiveOf (effectivePaths : List (String × String)) (path : String) : String :=
  (effectivePaths.reverse.lookup path).getD path

def protectedRefusal (protectedPrefixes roots : List String) (effectivePaths : List (String × String))
    (change : ObservedChange) : Option Refusal :=
  let effective := effectiveOf effectivePaths change.path
  let protection := protectedPrefixes.find? fun pathPrefix =>
    isPathPrefix pathPrefix change.path || isPathPrefix pathPrefix effective
  protection.map fun protection => ⟨.protectedPath, change.path, some protection,
    if roots.any fun root => isPathPrefix root change.path then
      s!"change touches protected governing material (rule \"{protection}\") — protection outranks the allowed " ++
        "write root that would otherwise admit it; the whole change set refuses"
    else s!"change touches protected governing material (rule \"{protection}\"); the whole change set refuses"⟩

def outsideRefusal (roots : List String) (effectivePaths : List (String × String)) (change : ObservedChange) :
    Option Refusal :=
  let effective := effectiveOf effectivePaths change.path
  if !roots.any fun root => isPathPrefix root change.path then
    some ⟨.pathOutsideRoots, change.path, none, "path resolves under no declared allowed write root"⟩
  else if effective ≠ change.path && !roots.any fun root => isPathPrefix root effective then
    some ⟨.pathOutsideRoots, change.path, some effective,
      s!"path is reached through a link whose target \"{effective}\" resolves outside every declared allowed write root"⟩
  else none

/-- Refuse, never truncate. Exactly at a bound proceeds. -/
def overBound (changes : List ObservedChange) : Option Refusal :=
  let oversized := changes.find? fun change => change.bytes > policy.maxFileBytes
  let totalBytes := (changes.map (·.bytes)).sum
  if changes.length > policy.maxFiles then
    some ⟨.overBound, "max_files", some (toString changes.length),
      s!"change set carries {changes.length} files against a declared bound of {policy.maxFiles}"⟩
  else
    match oversized with
    | some change => some ⟨.overBound, "max_file_bytes", some (toString change.bytes),
        s!"\"{change.path}\" carries {change.bytes} bytes against a declared per-file bound of {policy.maxFileBytes}"⟩
    | none =>
      if totalBytes > policy.maxTotalBytes then
        some ⟨.overBound, "max_total_bytes", some (toString totalBytes),
          s!"change set carries {totalBytes} bytes against a declared total bound of {policy.maxTotalBytes}"⟩
      else none

def refuseIf : Option Refusal → Except Refusal Unit
  | some refusal => .error refusal
  | none => .ok ()

def materialize (observed : List ObservedChange) (protectedSources : List String) : Except Refusal Materializable := do
  let protectedPrefixes ← protectedPrefixes policy protectedSources
  let roots ← normalizedRoots policy
  let changes ← observed.mapM (normalizedChange "path")
  let effectivePaths ← changes.mapM effectiveEntry
  refuseIf (changes.findSome? (protectedRefusal protectedPrefixes roots effectivePaths))
  refuseIf (changes.findSome? (outsideRefusal roots effectivePaths))
  refuseIf (overBound policy changes)
  return ⟨canonicalSort changes (·.path), ["max_files", "max_file_bytes", "max_total_bytes"]⟩

end Decide

def decideMaterialization (policy : Option (Captured PathPolicy)) (observed : AuthoritativeChangeSet)
    (protectedSources : List String) : Decision Materializable :=
  match policy with
  | none => .refusal ⟨.missingAuthority, "path-policy", none,
      "no captured path policy — materialization has no authority to decide from"⟩
  | some policy =>
    match materialize policy.value observed.changes protectedSources with
    | .ok value => .proceed value
    | .error refusal => .refusal refusal

end SecureHome.Core
