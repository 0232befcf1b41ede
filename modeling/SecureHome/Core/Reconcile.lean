import SecureHome.Core.Decisions
import SecureHome.Core.Primitives

/-! Observed-versus-claimed reconciliation. Claims are untrusted: they arrive parsed but
of unknown shape, and never alter the authoritative set. -/

namespace SecureHome.Core
open Contracts

/-- One entry of a claim set. A field that is missing or no string is none. -/
inductive RawClaim where
  | other
  | fields (path kind : Option String)
  deriving DecidableEq, Repr

inductive RawClaims where
  | absent
  | unlisted
  | listed (entries : List RawClaim)
  deriving DecidableEq, Repr

def kindLabel : ChangeKind → String
  | .created => "created"
  | .modified => "modified"
  | .deleted => "deleted"

def parseKind (label : String) : Option ChangeKind :=
  if label = "created" then some .created
  else if label = "modified" then some .modified
  else if label = "deleted" then some .deleted
  else none

def parseClaim : RawClaim → Option FileChange
  | .fields (some path) (some kind) => if path = "" then none else (parseKind kind).map (⟨path, ·⟩)
  | .fields _ _ | .other => none

/-- One malformed entry makes the whole set malformed. -/
def parseClaims : List RawClaim → Option (List FileChange)
  | [] => some []
  | entry :: rest =>
    match parseClaim entry, parseClaims rest with
    | some claim, some claims => some (claim :: claims)
    | _, _ => none

def keyOf (path : String) (kind : ChangeKind) : String := s!"{kindLabel kind} {path}"

/-- The kind a path is last listed with. -/
def kindOf (changes : List ObservedChange) (path : String) : Option ChangeKind :=
  (changes.reverse.find? (·.path = path)).map (·.kind)

def divergence (claimed observed : ChangeKind) : String :=
  s!"divergent kind: claimed \"{kindLabel claimed}\", observed \"{kindLabel observed}\" — the observed kind is authoritative"

def claimDisagreement (observed : List ObservedChange) (claim : FileChange) : Option Disagreement :=
  if observed.any fun change => keyOf change.path change.kind = keyOf claim.path claim.kind then none
  else
    match kindOf observed claim.path with
    | none => some ⟨claim.path, "claimed but not observed"⟩
    | some kind => some ⟨claim.path, divergence claim.kind kind⟩

def unclaimedDisagreement (claimed : List FileChange) (change : ObservedChange) : Option Disagreement :=
  if claimed.any fun claim => keyOf claim.path claim.kind = keyOf change.path change.kind then none
  else if claimed.any fun claim => claim.path = change.path then none
  else some ⟨change.path, "observed but not claimed"⟩

def disagreementsOf (observed : List ObservedChange) (claimed : List FileChange) : List Disagreement :=
  claimed.filterMap (claimDisagreement observed) ++ observed.filterMap (unclaimedDisagreement claimed)

def reconcileClaims (authoritative : AuthoritativeChangeSet) : RawClaims → Reconciliation
  | .absent => ⟨false, .absent, [], authoritative.changes.map fun change =>
      ⟨change.path, "observed but not claimed (claim set absent)"⟩⟩
  | .unlisted => malformed
  | .listed entries =>
    match parseClaims entries with
    | none => malformed
    | some claimed =>
      let disagreements := disagreementsOf authoritative.changes claimed
      ⟨disagreements.isEmpty, .present, canonicalSort claimed fun claim => s!"{claim.path}:{kindLabel claim.kind}",
        canonicalSort disagreements (·.path)⟩
where
  malformed : Reconciliation := ⟨false, .malformed, [],
    [⟨"(claim set)", "claimed change set is malformed; observation authoritative"⟩]⟩

end SecureHome.Core
