import SecureHome.Lib.Conditions
import SecureHome.Governance.Validate
import Mathlib.Logic.Function.Basic

/-! Recoverable publication of prepared projections: stage everything, fence the layout once,
then replace. An error of the application or of the cleanup restores what was there. -/

namespace SecureHome.Governance.Publication
open Lib

structure File where
  bytes : List UInt8
  mode : Nat
  deriving DecidableEq, Repr

/-- A staging directory, with what it has by the names `prepared` and `original`. -/
structure Directory where
  prepared : Option File := none
  original : Option File := none
  deriving DecidableEq, Repr

def Directory.listing (directory : Directory) : List String :=
  (if directory.original.isSome then ["original"] else []) ++ (if directory.prepared.isSome then ["prepared"] else [])

/-- A target's file and its staging directory, with the two flags of its staged entry. -/
structure Place where
  file : Option File
  directory : Option Directory := none
  backedUp : Bool := false
  installed : Bool := false
  deriving DecidableEq, Repr

/-- What a failed operation throws. -/
structure Fault where
  code : Option String := none
  path : Option JsString := none
  message : JsString
  deriving DecidableEq, Repr

/-- The operations of a publication that may fail. Every one is made once at most. -/
inductive Operation where
  | contain (target : String)
  | access (target : String)
  | makeDirectory (target : String)
  | writePrepared (target : String)
  | modePrepared (target : String)
  | fence
  | readPrepared (target : String)
  | statPrepared (target : String)
  | listDirectory (target : String)
  | backup (target : String)
  | install (target : String)
  | remove (again : Bool) (target : String)
  | present (target : String)
  | restore (target : String)
  | rewrite (target : String)
  | remode (target : String)
  | unlink (target : String)
  deriving DecidableEq, Repr

/-- What a failed removal took out of its directory. -/
structure Taken where
  prepared : Bool
  original : Bool
  deriving DecidableEq, Repr

/-- The platform: which operations fail, and what a file is created with. The fence is one
operation here, which fails if it cannot read the layout or finds another. -/
structure Platform where
  faults : Operation → Option Fault
  missing : Operation → Fault
  taken : Bool → String → Taken
  umask : Nat

def Platform.defaultMode (platform : Platform) : Nat := 0o666 - (0o666 &&& platform.umask)

structure Rendering where
  expected : JsString
  actual : Option JsString
  deriving DecidableEq, Repr

/-- The rendered targets, each of them once. -/
structure Rendered where
  projections : List (String × Rendering)
  distinct : (projections.map (·.1)).Nodup

/-- The projections that are not as they should be. -/
def Rendered.changed (rendered : Rendered) : List (String × Rendering) :=
  rendered.projections.filter fun projection => some projection.2.expected ≠ projection.2.actual

structure StagedEntry where
  target : String
  original : Option File
  expected : List UInt8
  mode : Nat
  deriving DecidableEq, Repr

structure Publishing where
  places : String → Place
  staged : List StagedEntry := []
  activeTarget : String := "governance/state.json"

abbrev Act := EStateM Fault Publishing

def change (target : String) (how : Place → Place) : Act Unit :=
  modify fun state => { state with places := Function.update state.places target (how (state.places target)) }

def onlyIf (condition : Bool) (act : Act Unit) : Act Unit := if condition then act else pure ()

section Operations

variable (platform : Platform)

def perform (operation : Operation) : Act Unit :=
  match platform.faults operation with
  | some fault => throw fault
  | none => pure ()

/-- The entry that a changed projection is staged as. -/
def entryOf (preparationInput : String → Option File) (projection : String × Rendering) : StagedEntry :=
  let original := preparationInput projection.1
  ⟨projection.1, original, encode projection.2.expected, (original.map (·.mode)).getD platform.defaultMode⟩

/-- Stages one changed projection. Its file is not to be written over if it is read-only. -/
def stage (preparationInput : String → Option File) (projection : String × Rendering) : Act Unit := do
  let target := projection.1
  let entry := entryOf platform preparationInput projection
  modify fun state => { state with activeTarget := target }
  perform platform (.contain target)
  onlyIf entry.original.isSome (perform platform (.access target))
  perform platform (.makeDirectory target)
  change target fun place => { place with directory := some {} }
  modify fun state => { state with staged := state.staged ++ [entry] }
  perform platform (.writePrepared target)
  change target fun place =>
    { place with directory := place.directory.map ({ · with prepared := some ⟨entry.expected, platform.defaultMode⟩ }) }
  perform platform (.modePrepared target)
  change target fun place =>
    { place with directory := place.directory.map fun directory =>
      { directory with prepared := directory.prepared.map ({ · with mode := entry.mode }) } }

def differs (entry : StagedEntry) : Fault :=
  ⟨some "ADV-G76", some (units entry.target), units "staged projection differs from the bound render plan"⟩

/-- Binds the file about to be renamed to the plan. -/
def bindStaged (entry : StagedEntry) : Act Unit := do
  perform platform (.readPrepared entry.target)
  let directory := ((← get).places entry.target).directory.getD {}
  match directory.prepared with
  | none => throw (differs entry)
  | some file =>
    onlyIf (file.bytes ≠ entry.expected) (throw (differs entry))
    perform platform (.statPrepared entry.target)
    onlyIf (file.mode ≠ entry.mode) (throw (differs entry))
    perform platform (.listDirectory entry.target)
    onlyIf (directory.listing ≠ ["prepared"]) (throw (differs entry))

/-- Moves the original away. -/
def renameToBackup (entry : StagedEntry) : Act Unit := do
  perform platform (.backup entry.target)
  match ((← get).places entry.target).file with
  | none => throw (platform.missing (.backup entry.target))
  | some file =>
    change entry.target fun place =>
      { place with file := none, directory := place.directory.map ({ · with original := some file }), backedUp := true }

/-- Moves the prepared file to its place. -/
def renameInto (entry : StagedEntry) : Act Unit := do
  perform platform (.install entry.target)
  match ((← get).places entry.target).directory.bind (·.prepared) with
  | none => throw (platform.missing (.install entry.target))
  | some file =>
    change entry.target fun place =>
      { place with file := some file, directory := place.directory.map ({ · with prepared := none }), installed := true }

def publish (entry : StagedEntry) : Act Unit := do
  modify fun state => { state with activeTarget := entry.target }
  onlyIf entry.original.isSome (renameToBackup platform entry)
  renameInto platform entry

/-- A directory after its removal: gone, or without what a failed removal took. -/
def removed (again : Bool) (target : String) (directory : Option Directory) : Option Directory :=
  match platform.faults (.remove again target) with
  | none => none
  | some _ =>
    let taken := platform.taken again target
    directory.map fun left => ⟨if taken.prepared then none else left.prepared, if taken.original then none else left.original⟩

/-- Removes every staging directory, whatever fails on the way. -/
def cleanup (again : Bool) : Act Unit := do
  let staged := (← get).staged
  staged.forM fun entry => change entry.target fun place => { place with directory := removed platform again entry.target place.directory }
  onlyIf ((staged.filterMap fun entry => platform.faults (.remove again entry.target)) ≠ [])
    (throw { message := units "projection staging cleanup failed" })

/-- Puts back what was there, from the backup or else from memory. -/
def restore (entry : StagedEntry) : Act Unit := do
  match entry.original with
  | some original =>
    match platform.faults (.present entry.target), ((← get).places entry.target).directory.bind (·.original) with
    | none, some backup =>
      perform platform (.restore entry.target)
      change entry.target fun place =>
        { place with file := some backup, directory := place.directory.map ({ · with original := none }) }
    | _, _ =>
      perform platform (.rewrite entry.target)
      change entry.target fun place =>
        { place with file := some ⟨original.bytes, (place.file.map (·.mode)).getD platform.defaultMode⟩ }
      perform platform (.remode entry.target)
      change entry.target fun place => { place with file := place.file.map ({ · with mode := original.mode }) }
  | none =>
    perform platform (.unlink entry.target)
    match ((← get).places entry.target).file with
    | none => throw (platform.missing (.unlink entry.target))
    | some _ => change entry.target fun place => { place with file := none }

structure RecoveryError where
  target : String
  cause : Fault
  deriving DecidableEq, Repr

/-- Recovers the entries that were moved. A failure is kept and the next one is tried. -/
def recover : List StagedEntry → Publishing → List RecoveryError × Publishing
  | [], state => ([], state)
  | entry :: entries, state =>
    let place := state.places entry.target
    if !place.backedUp && !place.installed then recover entries state
    else
      match restore platform entry state with
      | .ok () state => recover entries state
      | .error cause state =>
        let (errors, state) := recover entries state
        (⟨entry.target, cause⟩ :: errors, state)

/-- What is published, or where it failed. -/
def attempt (rendered : Rendered) (preparationInput : String → Option File) : Act (List String) := do
  rendered.changed.forM (stage platform preparationInput)
  perform platform .fence
  let staged := (← get).staged
  staged.forM (bindStaged platform)
  staged.forM (publish platform)
  cleanup platform false
  return staged.map (·.target)

inductive Outcome where
  | returned (wrote : List String)
  | thrown (message : JsString) (errors : List RecoveryError)
  deriving DecidableEq, Repr

/-- How a publication ends, with the problems it adds and the places it leaves. -/
structure Report where
  outcome : Outcome
  problems : List Problem := []
  places : String → Place

def problemOf (fault : Fault) (activeTarget : String) : Problem :=
  ⟨if fault.code = some "ADV-G76" then "ADV-G76" else "ADV-G36", fault.path.getD (units activeTarget),
    units "projection preparation write failed: " ++ fault.message⟩

/-- Restores what was there. Never deletes recovery material or claims restoration when recovery failed. -/
def recoverFrom (problems : List Problem) (state : Publishing) : Report :=
  match recover platform state.staged.reverse state with
  | ([], state) =>
    match cleanup platform true state with
    | .ok () state => { outcome := .returned [], problems, places := state.places }
    | .error fault state => { outcome := .thrown fault.message [], problems, places := state.places }
  | (error :: errors, state) =>
    { outcome := .thrown (units "projection recovery failed") (error :: errors), problems, places := state.places }

def writePreparedProjections (rendered : Rendered) (preparationInput : String → Option File) (files : String → Option File) : Report :=
  match attempt platform rendered preparationInput { places := fun target => { file := files target } } with
  | .ok wrote state => { outcome := .returned wrote, places := state.places }
  | .error fault state => recoverFrom platform [problemOf fault state.activeTarget] state

end Operations

end SecureHome.Governance.Publication
