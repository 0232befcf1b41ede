import SecureHome.Reviews.History

/-! What an accepted comparison leaves of the admitted rounds. -/

namespace SecureHome.Reviews
open Lib

section Paths

variable {path : List UInt8} {round : Round}

theorem readReview_segments (read : readReview path = some round) :
    path.splitOn 0x2f = [bytes "openspec", bytes "changes", round.change, bytes "reviews", round.file] ∧ round.change ≠ [] := by
  unfold readReview at read
  split at read
  next split =>
    split at read
    next named =>
      cases read
      obtain ⟨rfl, rfl, some_change, _, rfl, _⟩ := named
      exact ⟨split, some_change⟩
    next => cases read
  next => cases read

theorem readArchivedReview_segments (read : readArchivedReview path = some round) : ∃ directory,
    path.splitOn 0x2f = [bytes "openspec", bytes "changes", bytes "archive", directory, bytes "reviews", round.file] := by
  unfold readArchivedReview at read
  split at read
  next directory _ _ split =>
    split at read
    next named =>
      obtain ⟨rfl, rfl, rfl, rfl, _⟩ := named
      obtain ⟨name, _, rfl⟩ := Option.map_eq_some_iff.mp read
      exact ⟨directory, split⟩
    next => cases read
  next => cases read

theorem review_path (read : readReview path = some round) : path = changesRoot ++ round.change ++ bytes "/reviews/" ++ round.file := by
  have joined : [0x2f].intercalate (path.splitOn 0x2f) = path := List.intercalate_splitOn _
  rw [(readReview_segments read).1] at joined
  rw [← joined]
  simp [changesRoot, List.intercalate_cons_cons, show bytes "openspec/changes/" = bytes "openspec" ++ 0x2f :: (bytes "changes" ++ [0x2f]) from rfl,
    show bytes "/reviews/" = 0x2f :: (bytes "reviews" ++ [0x2f]) from rfl]

theorem liveDir_plain (read : readReview path = some round) : (changesRoot ++ round.change).getLast? ≠ some 0x2f := by
  obtain ⟨split, some_change⟩ := readReview_segments read
  have apart : (0x2f : UInt8) ∉ round.change := by
    refine @splitOn_apart _ _ _ path _ ?_
    rw [split]
    simp
  rw [List.getLast?_append_of_ne_nil _ some_change]
  exact fun last => apart (List.mem_of_getLast? last)

theorem liveChangeOf_review (read : readReview path = some round) : liveChangeOf path = some round.change := by
  obtain ⟨split, some_change⟩ := readReview_segments read
  unfold liveChangeOf
  rw [split]
  exact if_pos ⟨rfl, rfl, some_change, rfl⟩

/-- What follows the last slash is the last segment. -/
theorem afterLast_segment {before file : List UInt8} (apart : 0x2f ∉ file) : afterLast (bytes "/") (before ++ 0x2f :: file) = file := by
  have found : indexOf (bytes "/").reverse (before ++ 0x2f :: file).reverse = some file.length := by
    refine indexOf_some.mpr ⟨⟨file.reverse, before.reverse, by simp [show (bytes "/").reverse = [0x2f] from rfl], by simp⟩, fun one other same => ?_⟩
    have split : file.reverse ++ 0x2f :: before.reverse = one ++ 0x2f :: other := by
      simpa [show (bytes "/").reverse = [0x2f] from rfl] using same
    by_contra shorter
    rcases List.append_eq_append_iff.mp split with ⟨between, rfl, _⟩ | ⟨between, here, there⟩
    · simp at shorter
    · cases between with
      | nil =>
        rw [List.append_nil] at here
        simp [← here] at shorter
      | cons symbol between =>
        rw [List.cons_append, List.cons.injEq] at there
        rw [← there.1] at here
        refine apart (List.mem_reverse.mp ?_)
        rw [here]
        exact List.mem_append_right _ List.mem_cons_self
  unfold afterLast
  rw [found]
  have length : (before ++ 0x2f :: file).length - file.length = (before ++ [0x2f]).length := by
    simp only [List.length_append, List.length_cons, List.length_nil]
    omega
  have whole : before ++ 0x2f :: file = (before ++ [0x2f]) ++ file := List.append_cons before 0x2f file
  dsimp only
  rw [length, whole, List.drop_left]

theorem afterLast_review (read : readReview path = some round) : afterLast (bytes "/") path = round.file := by
  have apart : (0x2f : UInt8) ∉ round.file := by
    refine @splitOn_apart _ _ _ path _ ?_
    rw [(readReview_segments read).1]
    simp
  have whole : path = (changesRoot ++ round.change ++ bytes "/reviews") ++ 0x2f :: round.file := by
    rw [review_path read, show bytes "/reviews/" = bytes "/reviews" ++ [0x2f] from rfl]
    simp
  rw [whole, afterLast_segment apart]

/-- The root of a change is found up to its reviews, unless it is named like their directory. -/
theorem upTo_review (read : readReview path = some round) (other : round.change ≠ bytes "reviews") :
    upTo (bytes "/reviews/") path = changesRoot ++ round.change := by
  have found : indexOf (bytes "/reviews/") path = some (changesRoot ++ round.change).length := by
    refine indexOf_some.mpr ⟨⟨changesRoot ++ round.change, round.file, ?_, rfl⟩, fun one rest same => ?_⟩
    · rw [review_path read, List.append_assoc]
    · have parts : one.splitOn 0x2f ++ bytes "reviews" :: rest.splitOn 0x2f =
          [bytes "openspec", bytes "changes", round.change, bytes "reviews", round.file] := by
        rw [← (readReview_segments read).1, same, show bytes "/reviews/" = 0x2f :: (bytes "reviews" ++ [0x2f]) from rfl, List.cons_append,
          List.splitOn_append_cons_self, List.append_assoc, List.singleton_append,
          List.splitOn_append_cons_self_of_not_mem (by decide)]
      have joined : [0x2f].intercalate (one.splitOn 0x2f) = one := List.intercalate_splitOn _
      have later := List.splitOn_ne_nil (0x2f : UInt8) rest
      -- The directory of the reviews is the only one of its name.
      match before : one.splitOn 0x2f with
      | [] => exact absurd before (List.splitOn_ne_nil _ _)
      | [_] =>
        rw [before] at parts
        exact absurd (List.cons.inj (List.cons.inj parts).2).1 (by decide)
      | [_, _] =>
        rw [before] at parts
        exact absurd (List.cons.inj (List.cons.inj (List.cons.inj parts).2).2).1.symm other
      | [openspec, changes, change] =>
        rw [before] at parts joined
        simp only [List.cons_append, List.nil_append, List.cons.injEq] at parts
        obtain ⟨rfl, rfl, rfl, _⟩ := parts
        rw [← joined]
        simp [changesRoot, List.intercalate_cons_cons, show bytes "openspec/changes/" = bytes "openspec" ++ 0x2f :: (bytes "changes" ++ [0x2f]) from rfl]
      | _ :: _ :: _ :: _ :: more =>
        rw [before] at parts
        have long := congrArg List.length parts
        have some_rest := List.length_pos_iff.mpr later
        simp only [List.length_append, List.length_cons, List.length_nil] at long
        omega
  unfold upTo
  rw [found, review_path read, List.append_assoc]
  exact List.take_left

/-- A quoted path reads as no round. -/
theorem quoted_unread {rest : List UInt8} : isReview (0x22 :: rest) = false ∧ isArchivedReview (0x22 :: rest) = false := by
  have first {parts : List (List UInt8)} : (0x22 :: rest).splitOn 0x2f ≠ bytes "openspec" :: parts := by
    intro split
    have joined : [0x2f].intercalate ((0x22 :: rest).splitOn 0x2f) = 0x22 :: rest := List.intercalate_splitOn _
    rw [split] at joined
    cases parts with
    | nil =>
      rw [List.intercalate_singleton] at joined
      exact absurd (List.cons.inj joined).1 (by decide)
    | cons part parts =>
      rw [List.intercalate_cons_cons] at joined
      exact absurd (List.cons.inj joined).1 (by decide)
  constructor
  · cases read : readReview (0x22 :: rest) with
    | none => simp [isReview, read]
    | some round => exact absurd (readReview_segments read).1 first
  · cases read : readArchivedReview (0x22 :: rest) with
    | none => simp [isArchivedReview, read]
    | some round => exact absurd (readArchivedReview_segments read).choose_spec first

end Paths

section Meaning

variable {Commit : Type} (git : Comparison Commit)

/-- A round whose whole change was archived is in that change's own archive, under its own name and with its bytes. -/
def ArchivedWhole (round : Round) (blob : List UInt8) : Prop :=
  (∀ path, (git.new.entryAt path).isSome → ¬ (changesRoot ++ round.change ++ bytes "/") <+: path) ∧
    ∃ path, readArchivedReview path = some round ∧ git.new.blobAt path = some blob

/-- A round was the change's current review before it was admitted. -/
def Admitted (path : List UInt8) (round : Round) (blob : List UInt8) : Prop :=
  ∃ commit, Between git.parents git.base git.head commit ∧ (git.tree commit).blobAt path = some blob ∧
    ∃ parent ∈ git.parents commit, (git.tree parent).entryAt path = none ∧
      (git.tree parent).blobAt (changesRoot ++ round.change ++ bytes "/preimplementation-review.md") = some blob

/-- No admitted round is rewritten or removed, and every new one was admitted. -/
structure AppendOnly : Prop where
  kept : ∀ path round blob, readReview path = some round → git.old.blobAt path = some blob →
    git.new.blobAt path = some blob ∨ ArchivedWhole git round blob
  closed : ∀ path blob, isArchivedReview path = true → git.old.blobAt path = some blob → git.new.blobAt path = some blob
  admitted : ∀ path round blob, readReview path = some round → git.new.blobAt path = some blob → git.old.blobAt path = none →
    Admitted git path round blob

/-- What a change has to leave alone that the loop passes over: rounds with quoted paths, archived rounds that are modified or deleted, rounds that
something else is renamed to, and rounds of a change named like their directory. -/
def Spares : TreeChange → Prop
  | .modified path | .retyped path =>
    isArchivedReview path = true ∨ (isReview path = true ∧ needsQuotes path = true) → git.new.blobAt path = git.old.blobAt path
  | .deleted path => isArchivedReview path = false ∧
    ∀ round blob, readReview path = some round → needsQuotes path = true → git.old.blobAt path = some blob → ArchivedWhole git round blob
  | .added path => ∀ round blob, readReview path = some round → (needsQuotes path = true ∨ round.change = bytes "reviews") →
    git.new.blobAt path = some blob → Admitted git path round blob
  | .renamed _ source target => isArchivedReview source = false ∧
    (∀ round blob, readReview source = some round → needsQuotes source = true → git.old.blobAt source = some blob → ArchivedWhole git round blob) ∧
      ∀ round blob, readReview target = some round → git.new.blobAt target = some blob → Admitted git target round blob

end Meaning

section Judgements

variable {Commit : Type} {git : Comparison Commit} {path source target blob : List UInt8} {round : Round}

theorem askParent_witness {currentPath : List UInt8} {finalBlob : NamedObject} {candidate parent : Commit}
    (answer : askParent git path currentPath finalBlob candidate parent = .witness) :
    (git.tree parent).blobAt path = none ∧ ((git.tree parent).blobAt currentPath).map .blob = some finalBlob := by
  unfold askParent at answer
  split at answer
  next => cases answer
  next absent =>
    split at answer
    next => cases answer
    next current found =>
      split at answer
      next => cases answer
      next same =>
        rw [found]
        exact ⟨absent, congrArg some (not_not.mp same)⟩

theorem searchWitness_found {currentPath : List UInt8} {finalBlob : NamedObject} {carrying : List Commit} {rejected : List (List UInt8)}
    (found : searchWitness git path currentPath finalBlob carrying rejected = none) : ∃ commit ∈ carrying, ∃ parent ∈ git.parents commit,
      (git.tree parent).blobAt path = none ∧ ((git.tree parent).blobAt currentPath).map .blob = some finalBlob := by
  induction carrying generalizing rejected with
  | nil => cases found
  | cons candidate rest ih =>
    rw [searchWitness] at found
    split at found
    next =>
      obtain ⟨commit, member, witness⟩ := ih found
      exact ⟨commit, List.mem_cons_of_mem _ member, witness⟩
    next =>
      dsimp only at found
      split at found
      next witness =>
        obtain ⟨parent, member, answer⟩ := List.mem_map.mp witness
        exact ⟨candidate, List.mem_cons_self, parent, member, askParent_witness answer⟩
      next =>
        obtain ⟨commit, member, witness⟩ := ih found
        exact ⟨commit, List.mem_cons_of_mem _ member, witness⟩

theorem blobAt_none {tree : FileTree} : tree.blobAt path = none ↔ tree.entryAt path = none := Option.map_eq_none_iff

theorem revParse_blobAt {tree : FileTree} (present : tree.blobAt path = some blob) : tree.revParse path = some (.blob blob) := by
  obtain ⟨entry, found, rfl⟩ := Option.map_eq_some_iff.mp present
  exact FileTree.revParse_blob found

theorem blobAt_revParse {tree : FileTree} (parsed : tree.revParse path = some (.blob blob)) : tree.blobAt path = some blob := by
  obtain ⟨entry, found, rfl⟩ := FileTree.revParse_entry parsed
  exact Option.map_eq_some_iff.mpr ⟨entry, found, rfl⟩

/-- An admission that is not refused was a transition. -/
theorem admission_found (read : readReview path = some round) (other : round.change ≠ bytes "reviews") (present : git.new.blobAt path = some blob)
    (accepted : admissionProvenanceProblem git path = none) : Admitted git path round blob := by
  unfold admissionProvenanceProblem at accepted
  dsimp only at accepted
  rw [upTo_review read other, revParse_blobAt present] at accepted
  dsimp only at accepted
  split at accepted
  next => cases accepted
  next =>
    split at accepted
    next => cases accepted
    next =>
      obtain ⟨commit, carries, parent, linked, absent, current⟩ := searchWitness_found (Option.map_eq_none_iff.mp accepted)
      obtain ⟨inside, carried⟩ := List.mem_filter.mp carries
      obtain ⟨own, found, same⟩ := Option.map_eq_some_iff.mp (of_decide_eq_true carried)
      obtain ⟨reviewed, found', same'⟩ := Option.map_eq_some_iff.mp current
      cases same
      cases same'
      exact ⟨commit, (git.window_exact commit).mp inside, found, parent, linked, blobAt_none.mp absent, found'⟩

theorem lsTree_empty {tree : FileTree} {directory : List UInt8} (plain : directory.getLast? ≠ some 0x2f) (empty : tree.lsTree directory = [])
    (present : (tree.entryAt path).isSome) : ¬ (directory ++ [0x2f]) <+: path := by
  intro below
  obtain ⟨entry, found⟩ := Option.isSome_iff_exists.mp present
  have listed : path ∈ tree.lsTree directory := by
    unfold FileTree.lsTree
    dsimp only
    rw [if_neg plain]
    refine List.mem_filter.mpr ⟨FileTree.mem_files found, ?_⟩
    rw [Bool.or_eq_true]
    exact .inr (List.isPrefixOf_iff_prefix.mpr below)
  rw [empty] at listed
  cases listed

/-- A move that is not refused took the whole change into its own archive. -/
theorem move_found (read : readReview source = some round) (present : git.old.blobAt source = some blob)
    (accepted : archiveMoveProblem git source target = none) : ArchivedWhole git round blob ∧ isArchivedReview target = true := by
  unfold archiveMoveProblem at accepted
  rw [liveChangeOf_review read, afterLast_review read] at accepted
  dsimp only at accepted
  split at accepted
  next => cases accepted
  next archived found =>
    split at accepted
    next => cases accepted
    next same_change =>
      split at accepted
      next => cases accepted
      next same_file =>
        split at accepted
        next => cases accepted
        next whole =>
          split at accepted
          next => cases accepted
          next same_blob =>
            obtain ⟨_, there, unchanged⟩ : git.old.revParse source ≠ none ∧ git.new.revParse target ≠ none ∧ git.old.revParse source = git.new.revParse target := by
              simpa only [not_or, not_not] using same_blob
            have own : archived = round := by
              cases archived
              cases round
              simp only [not_not] at same_change same_file
              subst same_change
              subst same_file
              rfl
            rw [revParse_blobAt present] at unchanged
            refine ⟨⟨fun path present => ?_, target, own ▸ found, blobAt_revParse unchanged.symm⟩, by rw [isArchivedReview, found]; rfl⟩
            simp only [isWholeChangeArchived, Bool.not_eq_false, Bool.and_eq_true, decide_eq_true_eq] at whole
            exact lsTree_empty (liveDir_plain read) whole.1.1 present

/-- A line that is not refused. -/
def Accepts (judgement : Judgement) : Prop := ∀ problem, judgement ≠ .refused problem

theorem accepts_move (accepted : Accepts (judgeMove git source target)) : archiveMoveProblem git source target = none := by
  unfold judgeMove at accepted
  cases found : archiveMoveProblem git source target with
  | none => rfl
  | some problem =>
    rw [found] at accepted
    exact absurd rfl (accepted _)

theorem printed_plain (plain : needsQuotes path = false) : printedPath path = path := if_neg (by rw [plain]; exact Bool.false_ne_true)

theorem printed_quoted (quotes : needsQuotes path = true) : ∃ rest, printedPath path = 0x22 :: rest := ⟨_, if_pos quotes⟩

theorem readReview_is (read : readReview path = some round) : isReview path = true := by
  rw [isReview, read]
  rfl

theorem review_open (read : readReview path = some round) : readArchivedReview path = none := by
  cases archived : readArchivedReview path with
  | none => rfl
  | some other =>
    obtain ⟨_, split⟩ := readArchivedReview_segments archived
    rw [(readReview_segments read).1] at split
    exact absurd (congrArg List.length split) (by simp)

/-- The line of a change, by its status and its printed paths. -/
theorem judgeLine_printed (change : TreeChange) : judgeLine git (printedChange change) = match changeFields change with
    | status :: source :: rest => judgeChange git status source rest.head?
    | _ => .skipped := by
  have blank : isBlank (printedChange change) = false := by
    cases change <;> rfl
  unfold judgeLine
  rw [blank, printedChange_read]
  rfl

variable {status : List UInt8} {other : Option (List UInt8)}

theorem not_nested (accepted : Accepts (judgeChange git status path other)) : ¬ (isNestedReviewPath path = true ∨ other.any isNestedReviewPath = true) := by
  intro nested
  unfold judgeChange at accepted
  rw [if_pos nested] at accepted
  exact accepted _ rfl

/-- What has not been refused of a path that reads as a round of a live change, when it is not renamed. -/
theorem accepts_review (read : readReview path = some round) (renames : (bytes "R").isPrefixOf status = false)
    (accepted : Accepts (judgeChange git status path none)) :
    (status = bytes "A" → admissionProvenanceProblem git path = none) ∧ status ≠ bytes "M" ∧ status ≠ bytes "T" ∧
      (status = bytes "D" → ∃ destination, archiveMoveProblem git path destination = none) := by
  have direct := not_nested accepted
  unfold judgeChange at accepted
  have open_round : (if status = bytes "A" then readArchivedReview path else none) = none := by
    rw [review_open read]
    exact ite_self none
  rw [if_neg direct, renames, if_neg Bool.false_ne_true, open_round] at accepted
  dsimp only at accepted
  rw [readReview_is read, if_neg (by simp)] at accepted
  refine ⟨fun addition => ?_, fun modification => ?_, fun retyping => ?_, fun deletion => ?_⟩
  · rw [if_pos addition] at accepted
    unfold judgeAddition at accepted
    cases found : admissionProvenanceProblem git path with
    | none => rfl
    | some problem =>
      rw [found] at accepted
      exact absurd rfl (accepted _)
  · subst modification
    exact accepted _ rfl
  · subst retyping
    exact accepted _ rfl
  · subst deletion
    have deleted : Accepts (judgeDeletion git path) := accepted
    unfold judgeDeletion at deleted
    split at deleted
    next destination _ => exact ⟨destination, accepts_move deleted⟩
    next => exact absurd rfl (deleted _)

/-- What has not been refused of a rename. -/
theorem accepts_rename {score : Fin 101} (accepted : Accepts (judgeChange git (bytes "R" ++ scoreDigits score) source (some target))) :
    isArchivedReview source = false ∧ (isReview source = true → archiveMoveProblem git source target = none) := by
  have direct := not_nested accepted
  unfold judgeChange at accepted
  have renames : (bytes "R").isPrefixOf (bytes "R" ++ scoreDigits score) = true := List.isPrefixOf_iff_prefix.mpr (List.prefix_append _ _)
  rw [if_neg direct, if_pos renames, Option.getD_some] at accepted
  unfold judgeRename at accepted
  split at accepted
  next skipped => exact ⟨skipped.2, fun live => absurd (skipped.1.symm.trans live) Bool.false_ne_true⟩
  next =>
    split at accepted
    next => exact absurd rfl (accepted _)
    next open_source =>
      refine ⟨Bool.not_eq_true _ ▸ open_source, fun _ => ?_⟩
      split at accepted
      next => split at accepted <;> exact absurd rfl (accepted _)
      next => exact accepts_move accepted

/-- The report has no problem exactly if no line of the comparison is refused. -/
theorem problems_empty (lines : List (List UInt8)) (report : HistoryReport) :
    (lines.foldl (fun report line => report.count (judgeLine git line)) report).problems = [] ↔
      report.problems = [] ∧ ∀ line ∈ lines, Accepts (judgeLine git line) := by
  induction lines generalizing report with
  | nil => simp
  | cons line lines ih =>
    rw [List.foldl_cons, ih, List.forall_mem_cons]
    have counted : (report.count (judgeLine git line)).problems = [] ↔ report.problems = [] ∧ Accepts (judgeLine git line) := by
      cases judged : judgeLine git line <;> simp [HistoryReport.count, Accepts]
    rw [counted, and_assoc]

theorem accepted_lines (accepted : (checkReviewHistory git (some (printedChanges git.changes))).problems = []) :
    ∀ change ∈ git.changes, Accepts (judgeLine git (printedChange change)) := by
  unfold checkReviewHistory at accepted
  dsimp only at accepted
  rw [problems_empty, printedChanges_read] at accepted
  exact fun change member => accepted.2 _ (List.mem_append_left _ (List.mem_map_of_mem member))

end Judgements

section Histories

variable {Commit : Type} {git : Comparison Commit} (accepted : (checkReviewHistory git (some (printedChanges git.changes))).problems = [])
include accepted

variable {path source target blob : List UInt8} {round : Round}

/-- What a listed change of an accepted comparison is, when its path is printed as it is. -/
theorem accepted_addition (member : .added path ∈ git.changes) (plain : needsQuotes path = false) (read : readReview path = some round)
    (other : round.change ≠ bytes "reviews") (present : git.new.blobAt path = some blob) : Admitted git path round blob := by
  have judged := accepted_lines accepted _ member
  rw [judgeLine_printed] at judged
  simp only [changeFields, List.head?_nil, printed_plain plain] at judged
  exact admission_found read other present ((accepts_review read rfl judged).1 rfl)

theorem accepted_deletion (member : .deleted path ∈ git.changes) (plain : needsQuotes path = false) (read : readReview path = some round)
    (present : git.old.blobAt path = some blob) : ArchivedWhole git round blob := by
  have judged := accepted_lines accepted _ member
  rw [judgeLine_printed] at judged
  simp only [changeFields, List.head?_nil, printed_plain plain] at judged
  obtain ⟨destination, moved⟩ := (accepts_review read rfl judged).2.2.2 rfl
  exact (move_found read present moved).1

theorem accepted_modification (member : .modified path ∈ git.changes ∨ .retyped path ∈ git.changes) (read : readReview path = some round) :
    needsQuotes path = true := by
  by_contra plain
  have printed := printed_plain (Bool.not_eq_true _ ▸ plain)
  rcases member with member | member <;> have judged := accepted_lines accepted _ member <;> rw [judgeLine_printed] at judged <;>
    simp only [changeFields, List.head?_nil, printed] at judged
  · exact (accepts_review read rfl judged).2.1 rfl
  · exact (accepts_review read rfl judged).2.2.1 rfl

theorem accepted_rename {score : Fin 101} (member : .renamed score source target ∈ git.changes) (plain : needsQuotes source = false)
    (read : readReview source = some round) (present : git.old.blobAt source = some blob) :
    ArchivedWhole git round blob ∧ isArchivedReview (printedPath target) = true := by
  have judged := accepted_lines accepted _ member
  rw [judgeLine_printed] at judged
  simp only [changeFields, List.head?_cons, printed_plain plain] at judged
  exact move_found read present ((accepts_rename judged).2 (readReview_is read))

omit accepted in
theorem review_below (read : readReview path = some round) : changesRoot ++ round.change ++ bytes "/" <+: path := by
  rw [review_path read, show bytes "/reviews/" = bytes "/" ++ bytes "reviews/" from rfl, ← List.append_assoc _ (bytes "/"), List.append_assoc _ _ round.file]
  exact List.prefix_append _ _

omit accepted in
theorem blobAt_some {tree : FileTree} : (tree.entryAt path).isSome ↔ ∃ blob, tree.blobAt path = some blob := by
  rw [← Option.isSome_iff_exists, FileTree.blobAt, Option.isSome_map]

omit accepted in
/-- A path in both trees whose change leaves its bytes alone. -/
theorem spared_blob (spared : ∀ change ∈ git.changes, Spares git change) {before after : FileEntry} (old : git.old.entryAt path = some before)
    (new : git.new.entryAt path = some after) (judged : isArchivedReview path = true ∨ (isReview path = true ∧
      (.modified path ∈ git.changes ∨ .retyped path ∈ git.changes → needsQuotes path = true))) : git.new.blobAt path = git.old.blobAt path := by
  by_cases same : before = after
  · rw [FileTree.blobAt, FileTree.blobAt, old, new, same]
  · have changed := git.compares.changed path before after old new same
    have reached : isArchivedReview path = true ∨ (isReview path = true ∧ needsQuotes path = true) :=
      judged.imp_right fun ⟨review, quotes⟩ => ⟨review, quotes changed⟩
    rcases changed with modified | retyped
    · exact spared _ modified reached
    · exact spared _ retyped reached

/-- An accepted comparison keeps its rounds append-only exactly if the changes that the loop passes over spare them. -/
theorem history_append_only : AppendOnly git ↔ ∀ change ∈ git.changes, Spares git change := by
  constructor
  · intro history change member
    have gone_archived (path : List UInt8) (old : (git.old.entryAt path).isSome) (new : git.new.entryAt path = none) : isArchivedReview path = false := by
      obtain ⟨blob, present⟩ := blobAt_some.mp old
      by_contra archived
      have kept := history.closed path blob (Bool.not_eq_false _ ▸ archived) present
      rw [blobAt_none.mpr new] at kept
      cases kept
    have gone_whole (path : List UInt8) (round : Round) (blob : List UInt8) (read : readReview path = some round)
        (present : git.old.blobAt path = some blob) (new : git.new.entryAt path = none) : ArchivedWhole git round blob := by
      refine (history.kept path round blob read present).resolve_left fun kept => ?_
      rw [blobAt_none.mpr new] at kept
      cases kept
    have same_bytes (path : List UInt8) (before after : FileEntry) (old : git.old.entryAt path = some before) (new : git.new.entryAt path = some after) :
        isArchivedReview path = true ∨ (isReview path = true ∧ needsQuotes path = true) → git.new.blobAt path = git.old.blobAt path := by
      have present : git.old.blobAt path = some before.blob := by rw [FileTree.blobAt, old]; rfl
      rw [present]
      rintro (archived | ⟨review, _⟩)
      · exact history.closed path before.blob archived present
      · obtain ⟨round, read⟩ := Option.isSome_iff_exists.mp review
        refine (history.kept path round before.blob read present).resolve_right fun whole => ?_
        exact whole.1 path (by rw [new]; rfl) (review_below read)
    cases change with
    | added path => exact fun round blob read _ present =>
        history.admitted path round blob read present (blobAt_none.mpr (git.compares.added path member).1)
    | deleted path =>
      obtain ⟨old, new⟩ := git.compares.deleted path member
      exact ⟨gone_archived path old new, fun round blob read _ present => gone_whole path round blob read present new⟩
    | modified path =>
      obtain ⟨before, after, old, new, _⟩ := git.compares.modified path member
      exact same_bytes path before after old new
    | retyped path =>
      obtain ⟨before, after, old, new, _⟩ := git.compares.retyped path member
      exact same_bytes path before after old new
    | renamed score source target =>
      obtain ⟨old, new, absent, _⟩ := git.compares.renamed score source target member
      exact ⟨gone_archived source old new, fun round blob read _ present => gone_whole source round blob read present new,
        fun round blob read present => history.admitted target round blob read present (blobAt_none.mpr absent)⟩
  · intro spared
    refine ⟨fun path round blob read present => ?_, fun path blob archived present => ?_, fun path round blob read present absent => ?_⟩
    · have old := blobAt_some.mpr ⟨blob, present⟩
      cases new : git.new.entryAt path with
      | none =>
        right
        rcases git.compares.gone path old new with deleted | ⟨score, target, renamed⟩
        · cases quotes : needsQuotes path with
          | true => exact (spared _ deleted).2 round blob read quotes present
          | false => exact accepted_deletion accepted deleted quotes read present
        · cases quotes : needsQuotes path with
          | true => exact (spared _ renamed).2.1 round blob read quotes present
          | false => exact (accepted_rename accepted renamed quotes read present).1
      | some after =>
        left
        obtain ⟨before, old⟩ := Option.isSome_iff_exists.mp old
        rw [spared_blob spared old new (.inr ⟨readReview_is read, fun changed => accepted_modification accepted changed read⟩), present]
    · have old := blobAt_some.mpr ⟨blob, present⟩
      cases new : git.new.entryAt path with
      | none =>
        rcases git.compares.gone path old new with deleted | ⟨score, target, renamed⟩
        · exact absurd ((spared _ deleted).1.symm.trans archived) Bool.false_ne_true
        · exact absurd ((spared _ renamed).1.symm.trans archived) Bool.false_ne_true
      | some after =>
        obtain ⟨before, old⟩ := Option.isSome_iff_exists.mp old
        rw [spared_blob spared old new (.inl archived), present]
    · rcases git.compares.born path (blobAt_none.mp absent) (blobAt_some.mpr ⟨blob, present⟩) with added | ⟨score, source, renamed⟩
      · by_cases passed : needsQuotes path = true ∨ round.change = bytes "reviews"
        · exact spared _ added round blob read passed present
        · obtain ⟨plain, other⟩ := not_or.mp passed
          exact accepted_addition accepted added (Bool.not_eq_true _ ▸ plain) read other present
      · exact (spared _ renamed).2.2 round blob read present

end Histories

section Examples

def onlyFile (path blob : List UInt8) : FileTree := ⟨[(path, ⟨.regular, blob⟩)], List.nodup_singleton _⟩

theorem onlyFile_at {path other blob : List UInt8} : (onlyFile path blob).entryAt other = if other = path then some ⟨.regular, blob⟩ else none := by
  unfold onlyFile FileTree.entryAt
  rw [List.lookup_cons, List.lookup_nil]
  by_cases same : other = path
  · rw [if_pos same, beq_iff_eq.mpr same]
  · rw [if_neg same, beq_eq_false_iff_ne.mpr same]

/-- The commit at the head has the base as its one parent. -/
theorem between_two {commit : Bool} : Between (fun commit => if commit = true then [false] else []) false true commit ↔ commit = true := by
  cases commit with
  | true =>
    refine ⟨fun _ => rfl, fun _ => ⟨.refl, fun reached => ?_⟩⟩
    rcases Relation.ReflTransGen.cases_head reached with same | ⟨_, step, _⟩
    · cases same
    · cases step
  | false => exact ⟨fun between => absurd .refl between.2, nofun⟩

def currentReview : List UInt8 := bytes "openspec/changes/alpha/preimplementation-review.md"
def newRound : List UInt8 := bytes "openspec/changes/alpha/reviews/1-0123456789ab.md"

def withRound : FileTree where
  files := [(newRound, ⟨.regular, bytes "accepted"⟩), (currentReview, ⟨.regular, bytes "accepted"⟩)]
  distinct := by decide +kernel

theorem withRound_at {path : List UInt8} :
    withRound.entryAt path = if path = newRound then some ⟨.regular, bytes "accepted"⟩ else (onlyFile currentReview (bytes "accepted")).entryAt path := by
  unfold withRound onlyFile FileTree.entryAt
  rw [List.lookup_cons]
  by_cases same : path = newRound
  · rw [if_pos same, beq_iff_eq.mpr same]
  · rw [if_neg same, beq_eq_false_iff_ne.mpr same]

/-- The current review is admitted as a round. -/
def admittedRound : Comparison Bool where
  tree commit := if commit = true then withRound else onlyFile currentReview (bytes "accepted")
  parents commit := if commit = true then [false] else []
  printed _ := bytes "0123456789abcdef"
  base := false
  head := true
  window := [true]
  window_exact commit := by rw [between_two, List.mem_singleton]
  changes := [.added newRound]
  compares := by
    have absent : (onlyFile currentReview (bytes "accepted")).entryAt newRound = none := by decide +kernel
    constructor <;> simp only [List.mem_singleton, ↓reduceIte, Bool.false_eq_true, withRound_at]
    · rintro path ⟨⟩
      exact ⟨absent, by rw [if_pos rfl]; rfl⟩
    · exact nofun
    · exact nofun
    · exact nofun
    · exact nofun
    · intro path old new
      split at new
      next => cases new
      next => simp_all
    · intro path old new
      split at new
      next same => exact .inl (congrArg _ same)
      next => simp_all
    · intro path before after old new other
      split at new
      next same =>
        rw [same, absent] at old
        cases old
      next => simp_all

theorem history_append_only_admitted : (checkReviewHistory admittedRound (some (printedChanges admittedRound.changes))).problems = [] ∧
    AppendOnly admittedRound := by
  have accepted : (checkReviewHistory admittedRound (some (printedChanges admittedRound.changes))).problems = [] := by decide +kernel
  refine ⟨accepted, (history_append_only accepted).mpr ?_⟩
  intro change listed
  obtain rfl := List.mem_singleton.mp listed
  rintro round blob read (quotes | directory)
  · exact absurd quotes (by decide +kernel)
  · have named : readReview newRound = some ⟨bytes "alpha", bytes "1-0123456789ab.md"⟩ := by decide +kernel
    rw [named] at read
    cases read
    exact absurd directory (by decide)

def closedRound : List UInt8 := bytes "openspec/changes/archive/2026-01-02-alpha/reviews/1-0123456789ab.md"

/-- A round of an archived change with other bytes. -/
def rewrittenArchive : Comparison Bool where
  tree commit := onlyFile closedRound (if commit = true then bytes "accepted" else bytes "refused")
  parents commit := if commit = true then [false] else []
  printed _ := bytes "0123456789abcdef"
  base := false
  head := true
  window := [true]
  window_exact commit := by rw [between_two, List.mem_singleton]
  changes := [.modified closedRound]
  compares := by
    constructor <;> simp only [List.mem_singleton, onlyFile_at]
    · exact nofun
    · exact nofun
    · rintro path ⟨⟩
      exact ⟨_, _, rfl, rfl, by decide, rfl⟩
    · exact nofun
    · exact nofun
    · intro path old new
      split at new <;> simp_all
    · intro path old new
      split at old <;> simp_all
    · intro path before after old new _
      split at old <;> simp_all

theorem rewrittenArchive_passes : (checkReviewHistory rewrittenArchive (some (printedChanges rewrittenArchive.changes))).problems = [] ∧
    ¬ AppendOnly rewrittenArchive := by
  refine ⟨by decide +kernel, fun history => ?_⟩
  have kept := history.closed closedRound (bytes "refused") (by decide +kernel) (by decide +kernel)
  exact absurd kept (by decide +kernel)

end Examples

end SecureHome.Reviews
