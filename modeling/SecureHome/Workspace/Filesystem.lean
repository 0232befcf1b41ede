import SecureHome.Core.Decisions
import SecureHome.Core.Primitives
import SecureHome.Ports.Calls

/-! The filesystem observer. A baseline manifest is captured when the base identity is
observed, and the change set is the difference from it. The walk itself is the
platform's: a manifest is what it found. -/

namespace SecureHome.Workspace
open Core Contracts Ports

inductive EntryKind where
  | file
  | symlink
  deriving DecidableEq, Repr

def EntryKind.label : EntryKind → String
  | file => "file"
  | symlink => "symlink"

/-- What `lstat` reports in the high bits of a mode, of the two kinds a walk keeps. -/
def kindOfMode (mode : Nat) : EntryKind := if mode / 0x1000 = 0xA then .symlink else .file

/-- `sha256:` and 64 lowercase hexadecimal digits. -/
def isDigest (text : String) : Bool :=
  text.toList.take 7 == "sha256:".toList && (text.toList.drop 7).length == 64 &&
    (text.toList.drop 7).all fun character => "0123456789abcdef".toList.contains character

structure ManifestEntry where
  kind : EntryKind
  mode : Nat
  bytes : Nat
  digest : String
  linkTarget : Option String
  typed : kind = kindOfMode mode
  digested : isDigest digest = true
  deriving DecidableEq

/-- A map from paths to entries, in the order the walk found them. -/
structure Manifest where
  entries : List (String × ManifestEntry)
  distinct : (entries.map (·.1)).Nodup

namespace Manifest

def get (manifest : Manifest) (path : String) : Option ManifestEntry := manifest.entries.lookup path

end Manifest

def manifestLine (entry : String × ManifestEntry) : String :=
  s!"{entry.1}:{entry.2.kind.label}:{entry.2.mode}:{entry.2.digest}"

def manifestDigest (digestOf : String → String) (manifest : Manifest) : String :=
  digestOf ("\n".intercalate ((canonicalSort manifest.entries (·.1)).map manifestLine))

/-- Baselines, keyed by run. -/
structure FilesystemWorkspaceObserver where
  baselines : String → Option Manifest := fun _ => none

namespace FilesystemWorkspaceObserver

def observeBase (observer : FilesystemWorkspaceObserver) (digestOf : String → String) (runId : String) :
    Except String Manifest → BaseObservation × FilesystemWorkspaceObserver
  | .ok manifest => (.ok (manifestDigest digestOf manifest),
      { observer with baselines := Function.update observer.baselines runId (some manifest) })
  | .error reason => (.failed reason, observer)

def currentChange (baseline : Manifest) (entry : String × ManifestEntry) : Option ObservedChange :=
  match baseline.get entry.1 with
  | none => some ⟨entry.1, .created, entry.2.bytes, entry.2.linkTarget⟩
  | some before =>
    if before.digest ≠ entry.2.digest ∨ before.mode ≠ entry.2.mode then
      some ⟨entry.1, .modified, entry.2.bytes, entry.2.linkTarget⟩
    else none

/-- A deletion's size is 0: the file is not there to measure. -/
def deletedChange (current : Manifest) (entry : String × ManifestEntry) : Option ObservedChange :=
  if (current.get entry.1).isSome then none else some ⟨entry.1, .deleted, 0, entry.2.linkTarget⟩

def observe (observer : FilesystemWorkspaceObserver) (runId : String) (found : Except String Manifest) :
    WorkspaceObservation :=
  match observer.baselines runId with
  | none => .failed
      s!"no workspace baseline was captured for run {runId}; the change set is not derivable"
  | some baseline =>
    match found with
    | .ok current =>
      .ok (current.entries.filterMap (currentChange baseline) ++ baseline.entries.filterMap (deletedChange current))
    | .error reason => .failed reason

end FilesystemWorkspaceObserver

end SecureHome.Workspace
