import SecureHome.Governance.Publication
import Mathlib.Data.List.Nodup

/-! What a publication leaves behind, whatever fails in it. -/

namespace SecureHome.Governance.Publication
open Lib

variable {platform : Platform} {preparationInput : String → Option File} {files : String → Option File} {rendered : Rendered}

section Operations

/-- The operations that stage an entry, and those that bind and publish it. -/
def stageOperations (entry : StagedEntry) : List Operation :=
  .contain entry.target :: (if entry.original.isSome then [.access entry.target] else []) ++
    [.makeDirectory entry.target, .writePrepared entry.target, .modePrepared entry.target]

def bindOperations (entry : StagedEntry) : List Operation :=
  [.readPrepared entry.target, .statPrepared entry.target, .listDirectory entry.target]

def publishOperations (entry : StagedEntry) : List Operation :=
  (if entry.original.isSome then [.backup entry.target] else []) ++ [.install entry.target]

/-- None of these operations fails. -/
def Undisturbed (platform : Platform) (operations : List Operation) : Prop := ∀ operation ∈ operations, platform.faults operation = none

theorem undisturbed_append {one other : List Operation} :
    Undisturbed platform (one ++ other) ↔ Undisturbed platform one ∧ Undisturbed platform other := List.forall_mem_append

theorem undisturbed_cons {operation : Operation} {others : List Operation} :
    Undisturbed platform (operation :: others) ↔ platform.faults operation = none ∧ Undisturbed platform others := List.forall_mem_cons

theorem undisturbed_nil : Undisturbed platform [] := fun _ member => absurd member List.not_mem_nil

theorem perform_ends {before : Publishing → Prop} (operation : Operation) :
    Meets before (perform platform operation) (fun _ state => before state ∧ platform.faults operation = none)
      fun _ state => before state ∧ platform.faults operation ≠ none := by
  unfold perform
  cases fails : platform.faults operation with
  | none => exact .pure () fun _ holds => ⟨holds, rfl⟩
  | some fault => exact .throw fault fun _ holds => ⟨holds, nofun⟩

variable {holds held bad : Publishing → Prop} {done operations : List Operation}

theorem perform_after (operation : Operation) (member : operation ∈ operations) (worse : ∀ state, holds state → bad state) :
    Meets (fun state => holds state ∧ Undisturbed platform done) (perform platform operation)
      (fun _ state => holds state ∧ Undisturbed platform (done ++ [operation]))
      fun _ state => bad state ∧ ¬ Undisturbed platform operations := by
  refine (perform_ends operation).weaken (fun _ => id) ?_ ?_
  · rintro _ state ⟨⟨here, before⟩, works⟩
    exact ⟨here, undisturbed_append.mpr ⟨before, undisturbed_cons.mpr ⟨works, undisturbed_nil⟩⟩⟩
  · rintro _ state ⟨⟨here, _⟩, fails⟩
    exact ⟨worse state here, fun none => fails (none operation member)⟩

theorem perform_when (condition : Bool) (operation : Operation) (member : condition = true → operation ∈ operations)
    (worse : ∀ state, holds state → bad state) :
    Meets (fun state => holds state ∧ Undisturbed platform done) (onlyIf condition (perform platform operation))
      (fun _ state => holds state ∧ Undisturbed platform (done ++ if condition then [operation] else []))
      fun _ state => bad state ∧ ¬ Undisturbed platform operations := by
  cases condition with
  | true => exact perform_after operation (member rfl) worse
  | false => exact .pure () fun state here => by simpa using here

theorem modify_after {failed : Fault → Publishing → Prop} (how : Publishing → Publishing) (moves : ∀ state, holds state → held (how state)) :
    Meets (fun state => holds state ∧ Undisturbed platform done) (modify how) (fun _ state => held state ∧ Undisturbed platform done) failed :=
  .modify how fun state ⟨here, before⟩ => ⟨moves state here, before⟩

end Operations

section Staging

/-- What an entry's place is once it is staged. -/
def stagedFrom (state : Publishing) (entry : StagedEntry) : Publishing where
  places := Function.update state.places entry.target
    { state.places entry.target with directory := some ⟨some ⟨entry.expected, entry.mode⟩, none⟩ }
  staged := state.staged ++ [entry]
  activeTarget := entry.target

/-- Staging an entry moves no file. -/
def Quiet (state : Publishing) (entry : StagedEntry) (after : Publishing) : Prop :=
  (after.staged = state.staged ∨ after.staged = state.staged ++ [entry]) ∧
    ∃ directory, after.places = Function.update state.places entry.target { state.places entry.target with directory }

theorem stage_ends (state : Publishing) (projection : String × Rendering) :
    let entry := entryOf platform preparationInput projection
    Meets (· = state) (stage platform preparationInput projection)
      (fun _ after => after = stagedFrom state entry ∧ Undisturbed platform (stageOperations entry))
      fun _ after => Quiet state entry after ∧ ¬ Undisturbed platform (stageOperations entry) := by
  intro entry
  have target : projection.1 = entry.target := rfl
  unfold stage
  simp only [target]
  rw [show entryOf platform preparationInput projection = entry from rfl]
  clear_value entry
  -- Only the directory at the entry's place changes, and the entry is staged on the way.
  let reached (staged : List StagedEntry) (directory : Option Directory) (after : Publishing) : Prop :=
    after = ⟨Function.update state.places entry.target { state.places entry.target with directory }, staged, entry.target⟩
  have quiet (directory : Option Directory) (after : Publishing) :
      (reached state.staged directory after → Quiet state entry after) ∧
        (reached (state.staged ++ [entry]) directory after → Quiet state entry after) :=
    ⟨fun same => same ▸ ⟨.inl rfl, directory, rfl⟩, fun same => same ▸ ⟨.inr rfl, directory, rfl⟩⟩
  have changed (staged : List StagedEntry) (directory : Option Directory) (how : Option Directory → Option Directory) (after : Publishing)
      (same : reached staged directory after) :
      reached staged (how directory) { after with
        places := Function.update after.places entry.target { after.places entry.target with directory := how (after.places entry.target).directory } } := by
    subst same
    show Publishing.mk _ _ _ = Publishing.mk _ _ _
    simp only [Function.update_self, Function.update_idem]
  have starts : Meets (· = state) (modify fun state => { state with activeTarget := entry.target } : Act Unit)
      (fun _ after => reached state.staged (state.places entry.target).directory after ∧ Undisturbed platform [])
      (fun _ after => Quiet state entry after ∧ ¬ Undisturbed platform (stageOperations entry)) :=
    .modify _ fun before same => ⟨by rw [same]; exact congrArg (Publishing.mk · _ _) (Function.update_eq_self _ _).symm, undisturbed_nil⟩
  refine starts.andThen ?_
  refine (perform_after (.contain entry.target) (by simp [stageOperations]) fun after => (quiet _ after).1).andThen ?_
  refine (perform_when entry.original.isSome (.access entry.target) (fun present => by simp [stageOperations, present]) fun after => (quiet _ after).1).andThen ?_
  refine (perform_after (.makeDirectory entry.target) (by simp [stageOperations]) fun after => (quiet _ after).1).andThen ?_
  refine (modify_after _ (changed state.staged (state.places entry.target).directory fun _ => some {})).andThen ?_
  refine (@modify_after platform _ (reached (state.staged ++ [entry]) (some {})) _ _ _ fun after same => by subst same; rfl).andThen ?_
  refine (perform_after (.writePrepared entry.target) (by simp [stageOperations]) fun after => (quiet _ after).2).andThen ?_
  refine (modify_after _ (changed _ _ fun directory => directory.map ({ · with prepared := some ⟨entry.expected, platform.defaultMode⟩ }))).andThen ?_
  refine (perform_after (.modePrepared entry.target) (by simp [stageOperations]) fun after => (quiet _ after).2).andThen ?_
  refine (modify_after _ (changed _ _ fun directory => directory.map fun directory =>
    { directory with prepared := directory.prepared.map ({ · with mode := entry.mode }) })).weaken (fun _ => id) ?_ fun _ _ => id
  rintro _ after ⟨same, works⟩
  refine ⟨same, ?_⟩
  simpa [stageOperations] using works
end Staging

section Publishing

/-- The place of an entry that is staged. -/
def preparedPlace (entry : StagedEntry) : Place where
  file := entry.original
  directory := some ⟨some ⟨entry.expected, entry.mode⟩, none⟩

/-- The place of an entry that is published. -/
def installedPlace (entry : StagedEntry) : Place :=
  ⟨some ⟨entry.expected, entry.mode⟩, some ⟨none, entry.original⟩, entry.original.isSome, true⟩

def placedAt (state : Publishing) (target : String) (place : Place) : Publishing :=
  { state with places := Function.update state.places target place }

theorem bind_ends (state : Publishing) (entry : StagedEntry) (prepared : state.places entry.target = preparedPlace entry) :
    Meets (· = state) (bindStaged platform entry) (fun _ after => after = state ∧ Undisturbed platform (bindOperations entry))
      fun _ after => after = state ∧ ¬ Undisturbed platform (bindOperations entry) := by
  have starts : Meets (fun after => after = state ∧ Undisturbed platform []) (bindStaged platform entry)
      (fun _ after => after = state ∧ Undisturbed platform (bindOperations entry))
      (fun _ after => after = state ∧ ¬ Undisturbed platform (bindOperations entry)) := by
    unfold bindStaged
    refine (perform_after _ (by simp [bindOperations]) fun _ => id).andThen (.read fun seen ⟨same, works⟩ => ?_)
    subst same
    rw [prepared]
    simp only [preparedPlace, Option.getD_some, ne_eq, not_true_eq_false, decide_false, onlyIf, Bool.false_eq_true, if_false, pure_bind,
      Directory.listing, Option.isSome_none, Option.isSome_some, if_true, List.nil_append]
    refine Meets.weaken ?_ (fun after (same : after = seen) =>
      show after = seen ∧ Undisturbed platform ([] ++ [.readPrepared entry.target]) from ⟨same, works⟩) (fun _ _ => id) fun _ _ => id
    refine (perform_after _ (by simp [bindOperations]) fun _ => id).andThen ?_
    refine (perform_after _ (by simp [bindOperations]) fun _ => id).andThen ?_
    exact .pure () fun _ held => held
  exact starts.weaken (fun _ same => ⟨same, undisturbed_nil⟩) (fun _ _ => id) fun _ _ => id

theorem renameToBackup_ends (state : Publishing) {entry : StagedEntry} {file : File} (there : (state.places entry.target).file = some file) :
    Meets (· = state) (renameToBackup platform entry)
      (fun _ after => after = placedAt state entry.target { state.places entry.target with
        file := none, directory := (state.places entry.target).directory.map ({ · with original := some file }), backedUp := true } ∧
          platform.faults (.backup entry.target) = none)
      fun _ after => after = state ∧ platform.faults (.backup entry.target) ≠ none := by
  refine (perform_ends _).andThen (.read fun seen ⟨same, works⟩ => ?_)
  subst same
  rw [there]
  exact .modify _ fun before same => ⟨by rw [same]; rfl, works⟩

theorem renameInto_ends (state : Publishing) {entry : StagedEntry} {file : File}
    (there : (state.places entry.target).directory.bind (·.prepared) = some file) :
    Meets (· = state) (renameInto platform entry)
      (fun _ after => after = placedAt state entry.target { state.places entry.target with
        file := some file, directory := (state.places entry.target).directory.map ({ · with prepared := none }), installed := true } ∧
          platform.faults (.install entry.target) = none)
      fun _ after => after = state ∧ platform.faults (.install entry.target) ≠ none := by
  refine (perform_ends _).andThen (.read fun seen ⟨same, works⟩ => ?_)
  subst same
  rw [there]
  exact .modify _ fun before same => ⟨by rw [same]; rfl, works⟩

/-- How far an entry's place gets if its publication fails. -/
def HalfWay (entry : StagedEntry) (place : Place) : Prop :=
  place = preparedPlace entry ∨
    entry.original.isSome = true ∧ place = ⟨none, some ⟨some ⟨entry.expected, entry.mode⟩, entry.original⟩, true, false⟩

theorem publish_ends (state : Publishing) (entry : StagedEntry) (prepared : state.places entry.target = preparedPlace entry) :
    Meets (· = state) (publish platform entry)
      (fun _ after => after.staged = state.staged ∧ after.places = Function.update state.places entry.target (installedPlace entry) ∧
        Undisturbed platform (publishOperations entry))
      fun _ after => (after.staged = state.staged ∧ ∃ place, after.places = Function.update state.places entry.target place ∧ HalfWay entry place) ∧
        ¬ Undisturbed platform (publishOperations entry) := by
  have kept : Function.update state.places entry.target (preparedPlace entry) = state.places := by
    rw [← prepared, Function.update_eq_self]
  refine Meets.through (· = { state with activeTarget := entry.target }) (.modify _ fun before same => by rw [same]) ?_
  cases original : entry.original with
  | none =>
    have direct := (@renameInto_ends platform { state with activeTarget := entry.target } entry ⟨entry.expected, entry.mode⟩ (by
      show (state.places entry.target).directory.bind (·.prepared) = _
      rw [prepared]
      rfl))
    refine direct.weaken (fun _ => id) ?_ ?_
    · rintro _ _ ⟨rfl, works⟩
      refine ⟨rfl, ?_, ?_⟩
      · show Function.update _ _ _ = _
        simp only [prepared, preparedPlace, installedPlace, original]
        rfl
      · simpa [publishOperations, original, undisturbed_cons, undisturbed_nil] using works
    · rintro _ _ ⟨rfl, fails⟩
      refine ⟨⟨rfl, _, kept.symm, .inl rfl⟩, fun none => fails (none _ ?_)⟩
      simp [publishOperations]
  | some file =>
    have there : (state.places entry.target).file = some file := by rw [prepared]; exact original
    have away := @renameToBackup_ends platform { state with activeTarget := entry.target } entry file there
    let moved : Publishing := placedAt { state with activeTarget := entry.target } entry.target
      ⟨none, some ⟨some ⟨entry.expected, entry.mode⟩, some file⟩, true, false⟩
    refine Meets.through (fun after => after = moved ∧ platform.faults (.backup entry.target) = none) (away.weaken (fun _ => id) ?_ ?_) ?_
    · rintro _ _ ⟨rfl, works⟩
      refine ⟨?_, works⟩
      simp only [moved, prepared, preparedPlace]
      rfl
    · rintro _ _ ⟨rfl, fails⟩
      refine ⟨⟨rfl, _, kept.symm, .inl rfl⟩, fun none => fails (none _ ?_)⟩
      simp [publishOperations, original]
    · have halfway : moved.places entry.target = ⟨none, some ⟨some ⟨entry.expected, entry.mode⟩, some file⟩, true, false⟩ :=
        Function.update_self ..
      intro before ⟨same, backed⟩
      have into := @renameInto_ends platform moved entry ⟨entry.expected, entry.mode⟩ (by rw [halfway]; rfl) before same
      cases ran : renameInto platform entry before with
      | ok value after =>
        rw [ran] at into
        obtain ⟨rfl, works⟩ := into
        refine ⟨rfl, ?_, ?_⟩
        · show Function.update (Function.update _ _ _) _ _ = _
          rw [Function.update_idem, halfway]
          simp only [installedPlace, original]
          rfl
        · simp [publishOperations, original, undisturbed_cons, undisturbed_nil, backed, works]
      | error fault after =>
        rw [ran] at into
        obtain ⟨rfl, fails⟩ := into
        refine ⟨⟨rfl, _, rfl, .inr ⟨by rw [original]; rfl, by rw [original]⟩⟩, fun none => fails (none _ ?_)⟩
        simp [publishOperations]

end Publishing

section Cleanup

/-- Every staging directory after its removal. -/
def cleared (platform : Platform) (again : Bool) (state : Publishing) : Publishing :=
  { state with places := fun target =>
      if target ∈ state.staged.map (·.target) then
        { state.places target with directory := removed platform again target (state.places target).directory }
      else state.places target }

theorem cleanup_ends (again : Bool) (state : Publishing) (distinct : (state.staged.map (·.target)).Nodup) :
    Meets (· = state) (cleanup platform again)
      (fun _ after => after = cleared platform again state ∧ ∀ entry ∈ state.staged, platform.faults (.remove again entry.target) = none)
      fun _ after => after = cleared platform again state ∧ ∃ entry ∈ state.staged, platform.faults (.remove again entry.target) ≠ none := by
  refine .read fun seen same => ?_
  subst same
  let passed (done : List StagedEntry) (after : Publishing) : Prop :=
    after = { seen with places := (cleared platform again { seen with staged := done }).places }
  refine Meets.through (passed seen.staged) (.weaken (.forM passed fun done entry rest whole => .modify _ fun before same => ?_)
    (fun _ same => by simpa [passed, cleared] using same) (fun _ _ => id) fun _ _ => id) ?_
  · have fresh : entry.target ∉ done.map (·.target) := by
      rw [whole, List.map_append, List.nodup_append] at distinct
      exact fun again => distinct.2.2 _ again _ List.mem_cons_self rfl
    subst same
    refine congrArg (Publishing.mk · _ _) (funext fun target => ?_)
    unfold cleared
    dsimp only
    by_cases here : target = entry.target
    · subst here
      rw [Function.update_self, if_neg fresh, if_pos (by simp)]
    · rw [Function.update_of_ne here]
      simp [here]
  · unfold onlyIf
    split
    next failing =>
      refine .throw _ fun after same => ⟨same, ?_⟩
      by_contra none
      refine absurd failing ?_
      rw [decide_eq_true_eq, not_not, List.filterMap_eq_nil_iff]
      intro entry member
      by_contra fails
      exact none ⟨entry, member, fails⟩
    next clean =>
      refine .pure () fun after same => ⟨same, ?_⟩
      rw [decide_eq_true_eq, not_not, List.filterMap_eq_nil_iff] at clean
      exact clean

end Cleanup

section Recovery

/-- A file is where it was, or its bytes are in its backup. -/
def Kept (original : Option File) (place : Place) : Prop :=
  ∀ file, original = some file → place.file = some file ∨
    ∃ backup, place.directory.bind (·.original) = some backup ∧ backup.bytes = file.bytes

/-- A place that can be recovered: its backup is whole, or else its file has the mode of the original. -/
structure Movable (original : Option File) (place : Place) : Prop where
  backup : place.directory.bind (·.original) = original ∨
    place.directory.bind (·.original) = none ∧ place.file.map (·.mode) = original.map (·.mode)
  file : original = none → place.file.isSome = true

/-- The original is in no backup and cannot be written again. -/
def Forfeits (platform : Platform) (entry : StagedEntry) (place : Place) : Prop :=
  entry.original.isSome = true ∧ place.directory.bind (·.original) = none ∧ platform.faults (.rewrite entry.target) ≠ none

/-- What an action at one place leaves: that place changed, and nothing else. -/
abbrev LeavesAt (state : Publishing) (target : String) (holds : Place → Prop) (after : Publishing) : Prop :=
  ∃ place, after = placedAt state target place ∧ holds place

theorem leavesAt_same {state : Publishing} {target : String} {holds : Place → Prop} (here : holds (state.places target)) :
    LeavesAt state target holds state := ⟨_, congrArg (Publishing.mk · _ _) (Function.update_eq_self _ _).symm, here⟩

/-- Writing an original from memory. -/
theorem rewrite_ends (state : Publishing) {entry : StagedEntry} {original : File} (some_file : entry.original = some original)
    (movable : Movable entry.original (state.places entry.target)) :
    Meets (· = state)
      (do
        perform platform (.rewrite entry.target)
        change entry.target fun place =>
          { place with file := some ⟨original.bytes, (place.file.map (·.mode)).getD platform.defaultMode⟩ }
        perform platform (.remode entry.target)
        change entry.target fun place => { place with file := place.file.map ({ · with mode := original.mode }) })
      (fun _ => LeavesAt state entry.target fun place => place.file = entry.original)
      fun _ => LeavesAt state entry.target fun place => Kept entry.original place ∨ Forfeits platform entry (state.places entry.target) := by
  have backed (place : Place) (same : place.directory = (state.places entry.target).directory)
      (whole : (state.places entry.target).directory.bind (·.original) = entry.original) : Kept entry.original place :=
    fun file found => .inr ⟨file, by rw [same, whole, found], rfl⟩
  let written : Place := { state.places entry.target with
    file := some ⟨original.bytes, ((state.places entry.target).file.map (·.mode)).getD platform.defaultMode⟩ }
  refine Meets.through (· = state) ((perform_ends _).weaken (fun _ => id) (fun _ _ held => held.1) ?_) ?_
  · rintro _ _ ⟨rfl, fails⟩
    refine leavesAt_same ?_
    rcases movable.backup with whole | ⟨gone, _⟩
    · exact .inl (backed _ rfl whole)
    · exact .inr ⟨by rw [some_file]; rfl, gone, fails⟩
  refine Meets.through (· = placedAt state entry.target written) (.modify _ fun before same => by rw [same]; rfl) ?_
  refine Meets.through (· = placedAt state entry.target written) ((perform_ends _).weaken (fun _ => id) (fun _ _ held => held.1) ?_) ?_
  · rintro _ _ ⟨rfl, _⟩
    refine ⟨written, rfl, .inl ?_⟩
    rcases movable.backup with whole | ⟨_, modes⟩
    · exact backed _ rfl whole
    · intro file found
      rw [some_file] at modes found
      cases found
      refine .inl ?_
      show some (File.mk original.bytes (((state.places entry.target).file.map (·.mode)).getD platform.defaultMode)) = _
      rw [modes]
      rfl
  · refine .modify _ fun before same => ⟨{ written with file := some original }, ?_, some_file.symm⟩
    subst same
    show Publishing.mk _ _ _ = Publishing.mk _ _ _
    simp only [placedAt, Function.update_self, Function.update_idem]
    rfl

theorem restore_ends (state : Publishing) (entry : StagedEntry) (movable : Movable entry.original (state.places entry.target)) :
    Meets (· = state) (restore platform entry) (fun _ => LeavesAt state entry.target fun place => place.file = entry.original)
      fun _ => LeavesAt state entry.target fun place => Kept entry.original place ∨ Forfeits platform entry (state.places entry.target) := by
  unfold restore
  split
  next original some_file =>
    refine .read fun seen same => ?_
    subst same
    split
    next backup _ kept =>
      have whole : backup = original := by
        rcases movable.backup with whole | ⟨gone, _⟩
        · rw [kept, some_file] at whole
          exact Option.some.inj whole
        · rw [kept] at gone
          cases gone
      refine Meets.through (· = seen) ((perform_ends _).weaken (fun _ => id) (fun _ _ held => held.1) ?_) ?_
      · rintro _ _ ⟨rfl, _⟩
        refine leavesAt_same (.inl fun file found => .inr ⟨backup, kept, ?_⟩)
        rw [some_file] at found
        rw [whole, Option.some.inj found]
      · refine .modify _ fun before same => ?_
        subst same
        exact ⟨_, rfl, whole ▸ some_file.symm⟩
    next => exact rewrite_ends _ some_file movable
  next none_there =>
    refine Meets.through (· = state) ((perform_ends _).weaken (fun _ => id) (fun _ _ held => held.1) ?_) (.read fun seen same => ?_)
    · rintro _ _ ⟨rfl, _⟩
      refine leavesAt_same (.inl fun file found => ?_)
      rw [none_there] at found
      cases found
    · subst same
      obtain ⟨file, there⟩ := Option.isSome_iff_exists.mp (movable.file none_there)
      rw [there]
      refine .modify _ fun before same => ?_
      subst same
      exact ⟨_, rfl, none_there.symm⟩

theorem restore_forfeits {state : Publishing} {entry : StagedEntry} (forfeits : Forfeits platform entry (state.places entry.target)) :
    ∃ fault, restore platform entry state = .error fault state := by
  obtain ⟨some_file, none_kept, fails⟩ := forfeits
  obtain ⟨file, original⟩ := Option.isSome_iff_exists.mp some_file
  obtain ⟨fault, failed⟩ := Option.ne_none_iff_exists'.mp fails
  refine ⟨fault, ?_⟩
  unfold restore perform
  rw [original, failed]
  dsimp only [bind, EStateM.bind, get, getThe, MonadStateOf.get, EStateM.get]
  rw [none_kept]
  cases platform.faults (.present entry.target) <;> rfl

/-- An entry that was moved. -/
def Place.moved (place : Place) : Bool := place.backedUp || place.installed

/-- What a recovery makes of entries: those it leaves alone, those it restores, and those it says it failed on. -/
structure Recovered (platform : Platform) (entries : List StagedEntry) (state : Publishing) (errors : List RecoveryError) (after : Publishing) : Prop where
  staged : after.staged = state.staged
  elsewhere : ∀ target, (∀ entry ∈ entries, entry.target ≠ target) → after.places target = state.places target
  left : ∀ entry ∈ entries, (state.places entry.target).moved = false → after.places entry.target = state.places entry.target
  restored : errors = [] → ∀ entry ∈ entries, (state.places entry.target).moved = true → (after.places entry.target).file = entry.original
  kept : ∀ entry ∈ entries, (state.places entry.target).moved = true →
    Kept entry.original (after.places entry.target) ∨ Forfeits platform entry (state.places entry.target)
  forfeited : ∀ entry ∈ entries, (state.places entry.target).moved = true → Forfeits platform entry (state.places entry.target) →
    errors ≠ [] ∧ after.places entry.target = state.places entry.target

/-- One entry recovered at its own place, before others. -/
theorem Recovered.cons {entry : StagedEntry} {entries : List StagedEntry} {state after : Publishing} {place : Place} {errors all : List RecoveryError}
    (fresh : entry.target ∉ entries.map (·.target)) (later : Recovered platform entries (placedAt state entry.target place) errors after)
    (left : (state.places entry.target).moved = false → place = state.places entry.target)
    (restored : all = [] → errors = [] ∧ ((state.places entry.target).moved = true → place.file = entry.original))
    (kept : (state.places entry.target).moved = true → Kept entry.original place ∨ Forfeits platform entry (state.places entry.target))
    (forfeited : (state.places entry.target).moved = true → Forfeits platform entry (state.places entry.target) →
      all ≠ [] ∧ place = state.places entry.target) : Recovered platform (entry :: entries) state all after := by
  have apart (other : StagedEntry) (member : other ∈ entries) : other.target ≠ entry.target := fun same => fresh (List.mem_map.mpr ⟨other, member, same⟩)
  have there (other : StagedEntry) (member : other ∈ entries) :
      (placedAt state entry.target place).places other.target = state.places other.target := Function.update_of_ne (apart other member) ..
  have here : after.places entry.target = place :=
    (later.elsewhere entry.target apart).trans (Function.update_self ..)
  refine ⟨later.staged, fun target others => ?_, fun other member => ?_, fun none other member => ?_, fun other member => ?_, fun other member => ?_⟩
  · rw [later.elsewhere target fun other member => others other (List.mem_cons_of_mem _ member)]
    exact Function.update_of_ne (others entry List.mem_cons_self).symm ..
  · rcases List.mem_cons.mp member with rfl | member
    · exact fun still => here.trans (left still)
    · exact there other member ▸ later.left other member
  · rcases List.mem_cons.mp member with rfl | member
    · exact fun moved => here ▸ (restored none).2 moved
    · exact there other member ▸ later.restored (restored none).1 other member
  · rcases List.mem_cons.mp member with rfl | member
    · exact fun moved => here ▸ kept moved
    · exact there other member ▸ later.kept other member
  · rcases List.mem_cons.mp member with rfl | member
    · exact fun moved forfeits => ⟨(forfeited moved forfeits).1, here.trans (forfeited moved forfeits).2⟩
    · intro moved forfeits
      rw [← there other member] at moved forfeits ⊢
      obtain ⟨failed, same⟩ := later.forfeited other member moved forfeits
      exact ⟨fun none => failed (restored none).1, same⟩

theorem recover_recovered {entries : List StagedEntry} {state : Publishing} (distinct : (entries.map (·.target)).Nodup)
    (movable : ∀ entry ∈ entries, (state.places entry.target).moved = true → Movable entry.original (state.places entry.target)) :
    Recovered platform entries state (recover platform entries state).1 (recover platform entries state).2 := by
  induction entries generalizing state with
  | nil => exact ⟨rfl, fun _ _ => rfl, by simp, by simp, by simp, by simp⟩
  | cons entry entries ih =>
    obtain ⟨fresh, distinct⟩ := List.nodup_cons.mp distinct
    have later (place : Place) : Recovered platform entries (placedAt state entry.target place)
        (recover platform entries (placedAt state entry.target place)).1 (recover platform entries (placedAt state entry.target place)).2 := by
      refine ih distinct fun other member => ?_
      have apart : other.target ≠ entry.target := fun same => fresh (List.mem_map.mpr ⟨other, member, same⟩)
      rw [show (placedAt state entry.target place).places other.target = state.places other.target from Function.update_of_ne apart ..]
      exact movable other (List.mem_cons_of_mem _ member)
    have unchanged : placedAt state entry.target (state.places entry.target) = state :=
      congrArg (Publishing.mk · _ _) (Function.update_eq_self _ _)
    rw [recover]
    cases moved : (state.places entry.target).moved with
    | false =>
      have still : (!(state.places entry.target).backedUp && !(state.places entry.target).installed) = true := by
        simpa [Place.moved] using moved
      have rest := later (state.places entry.target)
      rw [unchanged] at rest
      simp only [still, if_true]
      refine @Recovered.cons platform entry entries state _ (state.places entry.target) _ _ fresh (by rw [unchanged]; exact rest) (fun _ => rfl) (fun none => ⟨none, ?_⟩) ?_ ?_
      all_goals
        rw [moved]
        nofun
    | true =>
      have flagged : (!(state.places entry.target).backedUp && !(state.places entry.target).installed) = false := by
        cases backed : (state.places entry.target).backedUp <;> simp_all [Place.moved]
      have ended := @restore_ends platform state entry (movable entry List.mem_cons_self moved) state rfl
      simp only [flagged, Bool.false_eq_true, if_false]
      cases ran : restore platform entry state with
      | ok value next =>
        rw [ran] at ended
        obtain ⟨place, rfl, same⟩ := ended
        refine Recovered.cons fresh (later place) (by rw [moved]; nofun) (fun none => ⟨none, fun _ => same⟩) (fun _ => .inl ?_) fun _ forfeits => ?_
        · exact fun file found => .inl (same.trans found)
        · obtain ⟨fault, failed⟩ := restore_forfeits forfeits
          rw [ran] at failed
          cases failed
      | error cause next =>
        rw [ran] at ended
        obtain ⟨place, rfl, kept⟩ := ended
        refine Recovered.cons fresh (later place) (by rw [moved]; nofun) (fun none => absurd none (List.cons_ne_nil _ _)) (fun _ => kept) fun _ forfeits => ?_
        obtain ⟨fault, failed⟩ := restore_forfeits forfeits
        rw [ran] at failed
        injection failed with _ same
        refine ⟨List.cons_ne_nil _ _, ?_⟩
        have here := congrFun (congrArg Publishing.places same) entry.target
        exact (Function.update_self ..).symm.trans here

end Recovery

section Attempt

def entriesOf (platform : Platform) (preparationInput : String → Option File) (rendered : Rendered) : List StagedEntry :=
  rendered.changed.map (entryOf platform preparationInput)

/-- The operations of a publication before its cleanup. -/
def operations (entries : List StagedEntry) : List Operation :=
  entries.flatMap stageOperations ++ .fence :: (entries.flatMap bindOperations ++ entries.flatMap publishOperations)

def startOf (files : String → Option File) : Publishing := { places := fun target => { file := files target } }

/-- Every staged entry stands as said, and nothing else has been touched. -/
structure Stands (placeOf : StagedEntry → Place) (files : String → Option File) (entries : List StagedEntry) (state : Publishing) : Prop where
  staged : state.staged = entries
  places : ∀ entry ∈ entries, state.places entry.target = placeOf entry
  elsewhere : ∀ target, (∀ entry ∈ entries, entry.target ≠ target) → state.places target = { file := files target }

/-- A place that was not moved holds its file, and one that was has it in its backup. -/
def Standing (original : Option File) (place : Place) : Prop :=
  (place.moved = false → place.file = original) ∧ (place.moved = true → Movable original place ∧ place.directory.bind (·.original) = original)

/-- Every original is where it was or in its backup, and what was moved is staged. -/
structure Intact (files : String → Option File) (entries : List StagedEntry) (state : Publishing) : Prop where
  staged : state.staged <+: entries
  standing : ∀ target, Standing (files target) (state.places target)
  moved : ∀ target, (state.places target).moved = true → ∃ entry ∈ state.staged, entry.target = target

variable {entries : List StagedEntry} {placeOf : StagedEntry → Place} {state : Publishing}

theorem standing_still {original : Option File} {place : Place} (still : place.moved = false) (file : place.file = original) :
    Standing original place := by
  refine ⟨fun _ => file, fun moved => ?_⟩
  rw [still] at moved
  cases moved

theorem standing_backed {original : Option File} {place : Place} (moved : place.moved = true) (file : original = none → place.file.isSome = true)
    (backup : place.directory.bind (·.original) = original) : Standing original place := by
  refine ⟨fun still => ?_, fun _ => ⟨⟨.inl backup, file⟩, backup⟩⟩
  rw [moved] at still
  cases still

/-- The places of the entries and the others, one by one. -/
theorem Stands.each (stands : Stands placeOf files entries state) (holds : String → Place → Prop)
    (here : ∀ entry ∈ entries, holds entry.target (placeOf entry)) (there : ∀ target, holds target { file := files target }) (target : String) :
    holds target (state.places target) := by
  by_cases among : ∃ entry ∈ entries, entry.target = target
  · obtain ⟨entry, member, rfl⟩ := among
    rw [stands.places entry member]
    exact here entry member
  · rw [stands.elsewhere target fun entry member same => among ⟨entry, member, same⟩]
    exact there target

theorem Stands.intact (stands : Stands placeOf files entries state) (standing : ∀ entry ∈ entries, Standing (files entry.target) (placeOf entry)) :
    Intact files entries state := by
  refine ⟨stands.staged ▸ List.prefix_refl _, stands.each (fun target => Standing (files target)) standing fun target => standing_still rfl rfl, fun target moved => ?_⟩
  by_contra none
  rw [stands.elsewhere target fun entry member same => none ⟨entry, stands.staged ▸ member, same⟩] at moved
  cases moved

/-- The entries are those of distinct targets, with the files that are there. -/
structure Proper (files : String → Option File) (entries : List StagedEntry) : Prop where
  distinct : (entries.map (·.target)).Nodup
  original : ∀ entry ∈ entries, entry.original = files entry.target
  mode : ∀ entry ∈ entries, ∀ file, entry.original = some file → entry.mode = file.mode

theorem entriesOf_proper (observed : ∀ target, preparationInput target = files target) :
    Proper files (entriesOf platform preparationInput rendered) where
  distinct := by
    unfold entriesOf
    rw [List.map_map]
    exact rendered.distinct.sublist (List.filter_sublist.map _)
  original entry member := by
    obtain ⟨projection, _, rfl⟩ := List.mem_map.mp member
    exact observed _
  mode entry member file found := by
    obtain ⟨projection, _, rfl⟩ := List.mem_map.mp member
    have original : preparationInput projection.1 = some file := found
    unfold entryOf
    rw [original]
    rfl

theorem prepared_standing (proper : Proper files entries) (entry : StagedEntry) (member : entry ∈ entries) :
    Standing (files entry.target) (preparedPlace entry) := standing_still rfl (proper.original entry member)

theorem installed_standing (proper : Proper files entries) (entry : StagedEntry) (member : entry ∈ entries) :
    Standing (files entry.target) (installedPlace entry) :=
  standing_backed (Bool.or_true _) (fun _ => rfl) (proper.original entry member)

/-- A pass whose every item works or disturbs it. -/
theorem undisturbed_some {Item : Type} {items : List Item} {of : Item → List Operation} {item : Item} (member : item ∈ items)
    (disturbed : ¬ Undisturbed platform (of item)) : ¬ Undisturbed platform (items.flatMap of) := fun none =>
  disturbed fun operation listed => none operation (List.mem_flatMap.mpr ⟨item, member, listed⟩)

theorem undisturbed_next {Item : Type} {done : List Item} {of : Item → List Operation} {item : Item}
    (before : Undisturbed platform (done.flatMap of)) (works : Undisturbed platform (of item)) :
    Undisturbed platform ((done ++ [item]).flatMap of) := by
  rw [List.flatMap_append, List.flatMap_singleton]
  exact undisturbed_append.mpr ⟨before, works⟩

theorem staging_ends (observed : ∀ target, preparationInput target = files target) :
    let entries := entriesOf platform preparationInput rendered
    Meets (· = startOf files) (rendered.changed.forM (stage platform preparationInput))
      (fun _ after => Stands preparedPlace files entries after ∧ Undisturbed platform (entries.flatMap stageOperations))
      fun _ after => Intact files entries after ∧ ¬ Undisturbed platform (entries.flatMap stageOperations) := by
  intro entries
  have proper : Proper files entries := entriesOf_proper observed
  let staged (done : List (String × Rendering)) := done.map (entryOf platform preparationInput)
  refine Meets.weaken (.forM (fun done after => Stands preparedPlace files (staged done) after ∧ Undisturbed platform ((staged done).flatMap stageOperations))
    fun done projection rest whole before ⟨stands, works⟩ => ?_) (fun _ same => ?_) (fun _ _ => id) fun _ _ => id
  · have split : entries = staged done ++ entryOf platform preparationInput projection :: staged rest := by
      show rendered.changed.map _ = _
      rw [whole, List.map_append, List.map_cons]
    have member : entryOf platform preparationInput projection ∈ entries := split ▸ List.mem_append_right _ List.mem_cons_self
    have fresh (entry : StagedEntry) (listed : entry ∈ staged done) : entry.target ≠ (entryOf platform preparationInput projection).target := by
      have distinct := proper.distinct
      rw [split, List.map_append, List.nodup_append] at distinct
      exact distinct.2.2 _ (List.mem_map_of_mem listed) _ List.mem_cons_self
    have there := stands.elsewhere _ fresh
    have next : staged (done ++ [projection]) = staged done ++ [entryOf platform preparationInput projection] := List.map_append
    have standing := stands.each (fun target place => place.moved = false ∧ place.file = files target)
      (fun entry listed => ⟨rfl, proper.original entry (split ▸ List.mem_append_left _ listed)⟩) fun _ => ⟨rfl, rfl⟩
    have ended := @stage_ends platform preparationInput before projection before rfl
    rw [next]
    cases ran : stage platform preparationInput projection before with
    | ok value after =>
      rw [ran] at ended
      obtain ⟨rfl, now⟩ := ended
      generalize entryOf platform preparationInput projection = entry at *
      refine ⟨⟨by rw [stagedFrom, stands.staged], fun other listed => ?_, fun target others => ?_⟩, undisturbed_next works now⟩
      · rcases List.mem_append.mp listed with listed | same
        · exact (Function.update_of_ne (fresh other listed) ..).trans (stands.places other listed)
        · rw [List.mem_singleton.mp same]
          refine (Function.update_self ..).trans ?_
          rw [there, ← proper.original entry member]
          rfl
      · refine (Function.update_of_ne (others entry (by simp)).symm ..).trans ?_
        exact stands.elsewhere target fun other listed => others other (List.mem_append_left _ listed)
    | error fault after =>
      rw [ran] at ended
      obtain ⟨⟨grown, directory, places⟩, disturbed⟩ := ended
      generalize entryOf platform preparationInput projection = entry at *
      have still (target : String) : (after.places target).moved = false ∧ (after.places target).file = files target := by
        rw [places]
        by_cases here : target = entry.target
        · rw [here, Function.update_self]
          exact standing entry.target
        · rw [Function.update_of_ne here]
          exact standing target
      refine ⟨⟨?_, fun target => standing_still (still target).1 (still target).2, fun target moved => ?_⟩, undisturbed_some member disturbed⟩
      · rcases grown with same | same
        · rw [same, stands.staged, split]
          exact List.prefix_append _ _
        · rw [same, stands.staged, split]
          exact ⟨staged rest, by rw [List.append_assoc]; rfl⟩
      · rw [(still target).1] at moved
        cases moved
  · subst same
    exact ⟨⟨rfl, fun _ member => absurd member List.not_mem_nil, fun _ _ => rfl⟩, undisturbed_nil⟩

theorem binding_ends (stands : Stands preparedPlace files entries state) :
    Meets (· = state) (entries.forM (bindStaged platform)) (fun _ after => after = state ∧ Undisturbed platform (entries.flatMap bindOperations))
      fun _ after => after = state ∧ ¬ Undisturbed platform (entries.flatMap bindOperations) := by
  refine Meets.weaken (.forM (fun done after => after = state ∧ Undisturbed platform (done.flatMap bindOperations))
    fun done entry rest whole before ⟨same, works⟩ => ?_) (fun _ same => ⟨same, undisturbed_nil⟩) (fun _ _ => id) fun _ _ => id
  subst same
  have member : entry ∈ entries := whole ▸ List.mem_append_right _ List.mem_cons_self
  have ended := @bind_ends platform before entry (stands.places entry member) before rfl
  cases ran : bindStaged platform entry before with
  | ok value after =>
    rw [ran] at ended
    exact ⟨ended.1, undisturbed_next works ended.2⟩
  | error fault after =>
    rw [ran] at ended
    exact ⟨ended.1, undisturbed_some member ended.2⟩

/-- The place of an entry once those before it are published. -/
def placeAfter (published : List StagedEntry) (entry : StagedEntry) : Place :=
  if entry ∈ published then installedPlace entry else preparedPlace entry

theorem publishing_ends (proper : Proper files entries) (stands : Stands preparedPlace files entries state) :
    Meets (· = state) (entries.forM (publish platform))
      (fun _ after => Stands installedPlace files entries after ∧ Undisturbed platform (entries.flatMap publishOperations))
      fun _ after => Intact files entries after ∧ ¬ Undisturbed platform (entries.flatMap publishOperations) := by
  have standing (done : List StagedEntry) (entry : StagedEntry) (member : entry ∈ entries) : Standing (files entry.target) (placeAfter done entry) := by
    unfold placeAfter
    split
    · exact installed_standing proper entry member
    · exact prepared_standing proper entry member
  refine Meets.weaken (.forM (fun done after => Stands (placeAfter done) files entries after ∧ Undisturbed platform (done.flatMap publishOperations))
    fun done entry rest whole before ⟨stands, works⟩ => ?_) (fun _ same => ?_) (fun _ after held => ?_) fun _ _ => id
  · have member : entry ∈ entries := whole ▸ List.mem_append_right _ List.mem_cons_self
    have alone (other : StagedEntry) (listed : other ∈ entries) (same : other.target = entry.target) : other = entry :=
      List.inj_on_of_nodup_map proper.distinct listed member same
    have fresh : entry ∉ done := by
      have distinct := List.Nodup.of_map _ proper.distinct
      rw [whole, List.nodup_append] at distinct
      exact fun again => distinct.2.2 _ again _ List.mem_cons_self rfl
    have prepared : before.places entry.target = preparedPlace entry := by
      rw [stands.places entry member, placeAfter, if_neg fresh]
    have ended := @publish_ends platform before entry prepared before rfl
    cases ran : publish platform entry before with
    | ok value after =>
      rw [ran] at ended
      obtain ⟨staged, places, now⟩ := ended
      refine ⟨⟨staged.trans stands.staged, fun other listed => ?_, fun target others => ?_⟩, undisturbed_next works now⟩
      · rw [places]
        by_cases here : other.target = entry.target
        · rw [alone other listed here, Function.update_self, placeAfter, if_pos (by simp)]
        · rw [Function.update_of_ne here, stands.places other listed]
          have differs : other ≠ entry := fun same => here (by rw [same])
          simp [placeAfter, differs]
      · rw [places, Function.update_of_ne (others entry member).symm]
        exact stands.elsewhere target others
    | error fault after =>
      rw [ran] at ended
      obtain ⟨⟨staged, place, places, halfway⟩, disturbed⟩ := ended
      have before_intact := stands.intact (standing done)
      have half : Standing (files entry.target) place := by
        rcases halfway with rfl | ⟨some_file, rfl⟩
        · exact prepared_standing proper entry member
        · refine standing_backed rfl (fun none => ?_) (proper.original entry member)
          rw [proper.original entry member, none] at some_file
          cases some_file
      refine ⟨⟨staged ▸ before_intact.staged, fun target => ?_, fun target moved => ?_⟩, undisturbed_some member disturbed⟩
      · rw [places]
        by_cases here : target = entry.target
        · rw [here, Function.update_self]
          exact half
        · rw [Function.update_of_ne here]
          exact before_intact.standing target
      · by_cases here : target = entry.target
        · exact ⟨entry, by rw [staged, stands.staged]; exact member, here.symm⟩
        · rw [places, Function.update_of_ne here] at moved
          rw [staged]
          exact before_intact.moved target moved
  · subst same
    refine ⟨⟨stands.staged, fun entry member => ?_, stands.elsewhere⟩, undisturbed_nil⟩
    rw [stands.places entry member, placeAfter, if_neg List.not_mem_nil]
  · refine ⟨⟨held.1.staged, fun entry member => ?_, held.1.elsewhere⟩, held.2⟩
    rw [held.1.places entry member, placeAfter, if_pos member]

/-- Published whole, a publication fails in its cleanup alone. -/
theorem attempt_ends (observed : ∀ target, preparationInput target = files target) :
    let entries := entriesOf platform preparationInput rendered
    Meets (· = startOf files) (attempt platform rendered preparationInput)
      (fun _ after => ∃ published, Stands installedPlace files entries published ∧ after = cleared platform false published ∧
        ∀ entry ∈ entries, platform.faults (.remove false entry.target) = none)
      fun _ after => Intact files entries after ∧ ¬ Undisturbed platform (operations entries) ∨
        Undisturbed platform (operations entries) ∧ ∃ published, Stands installedPlace files entries published ∧
          after = cleared platform false published ∧ ∃ entry ∈ entries, platform.faults (.remove false entry.target) ≠ none := by
  intro entries
  have proper : Proper files entries := entriesOf_proper observed
  let failed (_ : Fault) (after : Publishing) : Prop := Intact files entries after ∧ ¬ Undisturbed platform (operations entries) ∨
    Undisturbed platform (operations entries) ∧ ∃ published, Stands installedPlace files entries published ∧
      after = cleared platform false published ∧ ∃ entry ∈ entries, platform.faults (.remove false entry.target) ≠ none
  have early {after : Publishing} {some_operations : List Operation} (among : ∀ operation ∈ some_operations, operation ∈ operations entries)
      (intact : Intact files entries after) (disturbed : ¬ Undisturbed platform some_operations) (fault : Fault) : failed fault after :=
    .inl ⟨intact, fun none => disturbed fun operation member => none operation (among operation member)⟩
  have resting {after : Publishing} (stands : Stands preparedPlace files entries after) : Intact files entries after :=
    stands.intact (prepared_standing proper)
  refine Meets.andThen ((staging_ends observed).weaken (fun _ => id) (fun _ _ => id) fun fault after ⟨intact, disturbed⟩ =>
    early (fun operation member => ?_) intact disturbed fault) ?_
  · exact List.mem_append_left _ member
  refine Meets.andThen ((perform_ends .fence).weaken (fun _ => id) (fun _ _ => id) fun fault after ⟨⟨stands, _⟩, fails⟩ =>
    @early _ [.fence] (fun operation member => ?_) (resting stands) (fun none => fails (none _ (List.mem_singleton_self _))) fault) ?_
  · rw [List.mem_singleton.mp member]
    exact List.mem_append_right _ List.mem_cons_self
  refine .read fun seen ⟨⟨prepared, staged⟩, fenced⟩ => ?_
  rw [prepared.staged]
  refine Meets.andThen ((binding_ends prepared).weaken (fun _ => id) (fun _ _ => id) fun fault after ⟨same, disturbed⟩ =>
    early (fun operation member => ?_) (same ▸ resting prepared) disturbed fault) ?_
  · exact List.mem_append_right _ (List.mem_cons_of_mem _ (List.mem_append_left _ member))
  refine Meets.through (fun after => (Stands installedPlace files entries after ∧ Undisturbed platform (entries.flatMap publishOperations)) ∧
    Undisturbed platform (entries.flatMap bindOperations)) ?_ ?_
  · intro before ⟨same, bound⟩
    have ended := @publishing_ends platform files entries before proper (same ▸ prepared) before rfl
    cases ran : entries.forM (publish platform) before with
    | ok value after =>
      rw [ran] at ended
      exact ⟨ended, bound⟩
    | error fault after =>
      rw [ran] at ended
      refine early (fun operation member => ?_) ended.1 ended.2 fault
      exact List.mem_append_right _ (List.mem_cons_of_mem _ (List.mem_append_right _ member))
  · intro published ⟨⟨stands, done⟩, bound⟩
    have all : Undisturbed platform (operations entries) :=
      undisturbed_append.mpr ⟨staged, undisturbed_cons.mpr ⟨fenced, undisturbed_append.mpr ⟨bound, done⟩⟩⟩
    have ended := @cleanup_ends platform false published (stands.staged ▸ proper.distinct) published rfl
    refine @Meets.through _ _ _ (· = published) failed _ _ _ (fun after => after = cleared platform false published ∧
      ∀ entry ∈ entries, platform.faults (.remove false entry.target) = none) ?_ (.pure _ fun after held => ⟨published, stands, held⟩) published rfl
    rintro before rfl
    cases ran : cleanup platform false before with
    | ok value after =>
      rw [ran] at ended
      exact ⟨ended.1, stands.staged ▸ ended.2⟩
    | error fault after =>
      rw [ran] at ended
      exact .inr ⟨all, before, stands, ended.1, stands.staged ▸ ended.2⟩

end Attempt

section Recoverability

/-- Published whole, or all restored, or every original kept. -/
def Report.Recoverable (report : Report) (files : String → Option File) (entries : List StagedEntry) : Prop :=
  match report.outcome with
  | .returned _ =>
    if report.problems = [] then ∀ entry ∈ entries, (report.places entry.target).file = some ⟨entry.expected, entry.mode⟩
    else ∀ target, (report.places target).file = files target
  | .thrown _ _ => ∀ target, Kept (files target) (report.places target)

/-- Everything goes well up to a cleanup that fails, and there is an entry that lost its backup in it and cannot be written again. -/
def Loses (platform : Platform) (entries : List StagedEntry) : Prop :=
  Undisturbed platform (operations entries) ∧ (∃ entry ∈ entries, platform.faults (.remove false entry.target) ≠ none) ∧
    ∃ entry ∈ entries, ∃ original, entry.original = some original ∧ entry.expected ≠ original.bytes ∧
      (platform.faults (.remove false entry.target) = none ∨ (platform.taken false entry.target).original = true) ∧
      platform.faults (.rewrite entry.target) ≠ none

variable {entries : List StagedEntry} {state : Publishing} {problems : List Problem}

theorem kept_in_place {original : Option File} {place : Place} (same : place.file = original) : Kept original place :=
  fun _ found => .inl (same.trans found)

/-- A recovery fails to keep an original exactly if an entry forfeits it. -/
theorem recoverFrom_recoverable (proper : Proper files entries) (staged : state.staged <+: entries) (some_problems : problems ≠ [])
    (still : ∀ target, (state.places target).moved = false → (state.places target).file = files target)
    (movable : ∀ entry ∈ state.staged, (state.places entry.target).moved = true → Movable entry.original (state.places entry.target))
    (moved : ∀ target, (state.places target).moved = true → ∃ entry ∈ state.staged, entry.target = target) :
    (recoverFrom platform problems state).Recoverable files entries ↔
      ¬ ∃ entry ∈ state.staged, (state.places entry.target).moved = true ∧ Forfeits platform entry (state.places entry.target) ∧
        ¬ Kept entry.original (state.places entry.target) := by
  have distinct : (state.staged.map (·.target)).Nodup := proper.distinct.sublist (staged.sublist.map _)
  have original (entry : StagedEntry) (member : entry ∈ state.staged) : entry.original = files entry.target :=
    proper.original entry (staged.subset member)
  have recovered : Recovered platform state.staged.reverse state _ _ :=
    @recover_recovered platform _ _ (by rw [List.map_reverse, List.nodup_reverse]; exact distinct)
      fun entry member => movable entry (List.mem_reverse.mp member)
  unfold recoverFrom
  generalize recover platform state.staged.reverse state = result at recovered
  obtain ⟨errors, after⟩ := result
  dsimp only at recovered
  have each (holds : String → Place → Prop) (restored : ∀ entry ∈ state.staged, (state.places entry.target).moved = true →
      holds entry.target (after.places entry.target)) (unmoved : ∀ target place, place.file = files target → holds target place) (target : String) :
      holds target (after.places target) := by
    cases here : (state.places target).moved with
    | true =>
      obtain ⟨entry, member, rfl⟩ := moved target here
      exact restored entry member here
    | false =>
      refine unmoved target _ ?_
      rw [← still target here]
      by_cases among : ∃ entry ∈ state.staged, entry.target = target
      · obtain ⟨entry, member, rfl⟩ := among
        rw [recovered.left entry (List.mem_reverse.mpr member) here]
      · rw [recovered.elsewhere target fun entry member same => among ⟨entry, List.mem_reverse.mp member, same⟩]
  cases errors with
  | nil =>
    have restored : ∀ target, (after.places target).file = files target :=
      each (fun target place => place.file = files target)
        (fun entry member here => (recovered.restored rfl entry (List.mem_reverse.mpr member) here).trans (original entry member))
        fun _ _ same => same
    have none_forfeits : ¬ ∃ entry ∈ state.staged, (state.places entry.target).moved = true ∧
        Forfeits platform entry (state.places entry.target) ∧ ¬ Kept entry.original (state.places entry.target) :=
      fun ⟨entry, member, here, forfeits, _⟩ => (recovered.forfeited entry (List.mem_reverse.mpr member) here forfeits).1 rfl
    refine iff_of_true ?_ none_forfeits
    have ended := @cleanup_ends platform true after (by rw [recovered.staged]; exact distinct) after rfl
    have files_left (target : String) : ((cleared platform true after).places target).file = files target := by
      unfold cleared
      dsimp only
      split
      · exact restored target
      · exact restored target
    dsimp only
    cases ran : cleanup platform true after with
    | ok value final =>
      rw [ran] at ended
      show if problems = [] then _ else _
      rw [if_neg some_problems, ended.1]
      exact files_left
    | error fault final =>
      rw [ran] at ended
      show ∀ target, Kept (files target) (final.places target)
      rw [ended.1]
      exact fun target => kept_in_place (files_left target)
  | cons error errors =>
    show (∀ target, Kept (files target) (after.places target)) ↔ _
    constructor
    · rintro kept ⟨entry, member, here, forfeits, lost⟩
      have there := kept entry.target
      rw [(recovered.forfeited entry (List.mem_reverse.mpr member) here forfeits).2, ← original entry member] at there
      exact lost there
    · intro none
      refine each (fun target place => Kept (files target) place) (fun entry member here => ?_) fun _ _ same => kept_in_place same
      rw [← original entry member]
      rcases recovered.kept entry (List.mem_reverse.mpr member) here with kept | forfeits
      · exact kept
      · by_contra lost
        refine none ⟨entry, member, here, forfeits, ?_⟩
        rw [(recovered.forfeited entry (List.mem_reverse.mpr member) here forfeits).2] at lost
        exact lost

/-- What is left at an entry's place by a cleanup that fails. -/
theorem installed_cleared {published : Publishing} (stands : Stands installedPlace files entries published)
    {entry : StagedEntry} (member : entry ∈ entries) :
    (cleared platform false published).places entry.target =
      { installedPlace entry with directory := removed platform false entry.target (some ⟨none, entry.original⟩) } := by
  unfold cleared
  dsimp only
  rw [if_pos (by rw [stands.staged]; exact List.mem_map_of_mem member), stands.places entry member]
  rfl

theorem removed_backup (target : String) (original : Option File) :
    (removed platform false target (some ⟨none, original⟩)).bind (·.original) =
      if platform.faults (.remove false target) = none ∨ (platform.taken false target).original = true then none else original := by
  unfold removed
  split
  next works => simp [works]
  next fault fails => cases taken : (platform.taken false target).original <;> simp [fails, taken]

/-- A publication is recoverable exactly if no backup is lost in a failing cleanup whose original cannot be written again. -/
theorem publication_recoverable_iff (observed : ∀ target, preparationInput target = files target) :
    (writePreparedProjections platform rendered preparationInput files).Recoverable files (entriesOf platform preparationInput rendered) ↔
      ¬ Loses platform (entriesOf platform preparationInput rendered) := by
  have proper : Proper files (entriesOf platform preparationInput rendered) := entriesOf_proper observed
  have ended := @attempt_ends platform preparationInput files rendered observed (startOf files) rfl
  unfold writePreparedProjections
  generalize entriesOf platform preparationInput rendered = entries at *
  rw [show ({ places := fun target => { file := files target } } : Publishing) = startOf files from rfl]
  cases ran : attempt platform rendered preparationInput (startOf files) with
  | ok wrote after =>
    rw [ran] at ended
    obtain ⟨published, stands, rfl, clean⟩ := ended
    refine iff_of_true (fun entry member => ?_) fun ⟨_, ⟨entry, member, fails⟩, _⟩ => fails (clean entry member)
    show ((cleared platform false published).places entry.target).file = _
    rw [installed_cleared stands member]
    rfl
  | error fault after =>
    rw [ran] at ended
    rcases ended with ⟨intact, disturbed⟩ | ⟨all, published, stands, rfl, failing⟩
    · have whole (entry : StagedEntry) (member : entry ∈ after.staged) (here : (after.places entry.target).moved = true) :=
        (intact.standing entry.target).2 here
      have original (entry : StagedEntry) (member : entry ∈ after.staged) := proper.original entry (intact.staged.subset member)
      refine (recoverFrom_recoverable proper intact.staged (List.cons_ne_nil _ _) (fun target here => (intact.standing target).1 here)
        (fun entry member here => original entry member ▸ (whole entry member here).1) intact.moved).trans (iff_of_true ?_ fun loses => disturbed loses.1)
      rintro ⟨entry, member, here, ⟨some_file, none_kept, _⟩, _⟩
      rw [(whole entry member here).2, ← original entry member] at none_kept
      rw [none_kept] at some_file
      cases some_file
    · have place {entry : StagedEntry} (member : entry ∈ entries) : (cleared platform false published).places entry.target =
          { installedPlace entry with directory := removed platform false entry.target (some ⟨none, entry.original⟩) } := installed_cleared stands member
      have staged : (cleared platform false published).staged = entries := stands.staged
      have elsewhere (target : String) (others : ∀ entry ∈ entries, entry.target ≠ target) :
          (cleared platform false published).places target = { file := files target } := by
        unfold cleared
        dsimp only
        rw [if_neg, stands.elsewhere target others]
        rw [stands.staged]
        exact fun listed => (List.mem_map.mp listed).elim fun entry ⟨member, same⟩ => others entry member same
      have moved {entry : StagedEntry} (member : entry ∈ entries) : ((cleared platform false published).places entry.target).moved = true := by
        rw [place member]
        exact Bool.or_true _
      refine (recoverFrom_recoverable proper (staged ▸ List.prefix_refl _) (List.cons_ne_nil _ _) (fun target here => ?_) (fun entry member _ => ?_)
        fun target here => ?_).trans (not_congr ?_)
      · rw [elsewhere target fun entry member same => ?_]
        rw [← same, moved member] at here
        cases here
      · rw [staged] at member
        rw [place member]
        refine ⟨?_, fun _ => rfl⟩
        dsimp only
        rw [removed_backup]
        split
        · cases original : entry.original with
          | none => exact .inl rfl
          | some file => exact .inr ⟨rfl, congrArg some (proper.mode entry member file original)⟩
        · exact .inl rfl
      · by_contra none
        rw [elsewhere target fun entry member same => none ⟨entry, staged ▸ member, same⟩] at here
        cases here
      · rw [staged]
        refine Iff.trans ?_ (and_iff_right all).symm
        refine Iff.trans ?_ (and_iff_right failing).symm
        refine exists_congr fun entry => and_congr_right fun member => ?_
        rw [place member]
        constructor
        · rintro ⟨_, ⟨some_file, none_kept, fails⟩, lost⟩
          obtain ⟨original, found⟩ := Option.isSome_iff_exists.mp some_file
          refine ⟨original, found, fun same => lost fun file there => .inl ?_, ?_, fails⟩
          · rw [found] at there
            cases there
            exact congrArg some (by rw [same, proper.mode entry member original found])
          · dsimp only at none_kept
            rw [removed_backup] at none_kept
            by_contra whole
            rw [if_neg whole, found] at none_kept
            cases none_kept
        · rintro ⟨original, found, other, gone, fails⟩
          have none_kept : (removed platform false entry.target (some ⟨none, entry.original⟩)).bind (·.original) = none := by
            rw [removed_backup, if_pos gone]
          refine ⟨Bool.or_true _, ⟨by rw [found]; rfl, none_kept, fails⟩, fun kept => ?_⟩
          rcases kept original found with same | ⟨backup, there, _⟩
          · exact other (congrArg File.bytes (Option.some.inj same))
          · dsimp only at there
            rw [none_kept] at there
            cases there

end Recoverability

section Samples

def sampleFiles : String → Option File := fun target => if target = "docs/a.md" then some ⟨encode (units "old\n"), 0o644⟩ else none

def sampleRendered : Rendered where
  projections := [("docs/a.md", ⟨units "new\n", some (units "old\n")⟩), ("docs/b.md", ⟨units "made\n", none⟩)]
  distinct := by decide

def sampleFault (operation : String) : Fault := ⟨some "EIO", none, units s!"EIO: i/o error, {operation}"⟩

def soundPlatform : Platform := ⟨fun _ => none, fun _ => sampleFault "open", fun _ _ => ⟨false, false⟩, 0o022⟩

/-- A removal fails once it has taken the backup, and the original cannot be written again. -/
def lossyPlatform : Platform :=
  { soundPlatform with
    faults := fun operation =>
      if operation = .remove false "docs/a.md" then some (sampleFault "rm")
      else if operation = .rewrite "docs/a.md" then some (sampleFault "write") else none
    taken := fun _ _ => ⟨false, true⟩ }

theorem publication_recoverable_sound :
    (writePreparedProjections soundPlatform sampleRendered sampleFiles sampleFiles).Recoverable sampleFiles
      (entriesOf soundPlatform sampleFiles sampleRendered) :=
  (publication_recoverable_iff fun _ => rfl).mpr fun ⟨_, ⟨_, _, fails⟩, _⟩ => fails rfl

theorem lost_original :
    let report := writePreparedProjections lossyPlatform sampleRendered sampleFiles sampleFiles
    report.outcome = .thrown (units "projection recovery failed") [⟨"docs/a.md", sampleFault "write"⟩] ∧
      (report.places "docs/a.md").file = some ⟨encode (units "new\n"), 0o644⟩ ∧
      (report.places "docs/a.md").directory.bind (·.original) = none ∧
      ¬ report.Recoverable sampleFiles (entriesOf lossyPlatform sampleFiles sampleRendered) := by
  intro report
  have outcome : report.outcome = .thrown (units "projection recovery failed") [⟨"docs/a.md", sampleFault "write"⟩] := by decide +kernel
  have file : (report.places "docs/a.md").file = some ⟨encode (units "new\n"), 0o644⟩ := by decide +kernel
  have backup : (report.places "docs/a.md").directory.bind (·.original) = none := by decide +kernel
  refine ⟨outcome, file, backup, fun recoverable => ?_⟩
  unfold Report.Recoverable at recoverable
  rw [outcome] at recoverable
  rcases recoverable "docs/a.md" ⟨encode (units "old\n"), 0o644⟩ rfl with same | ⟨_, there, _⟩
  · rw [file] at same
    exact absurd same (by decide +kernel)
  · rw [backup] at there
    cases there

end Samples

end SecureHome.Governance.Publication
