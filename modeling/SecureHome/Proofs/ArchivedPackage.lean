import SecureHome.Governance.ArchivedPackage
import SecureHome.Proofs.ManifestText

/-! What an archived package without problems is bound to, and the stages that end its check
without naming one. -/

namespace SecureHome.Governance
open Lib Toolchain

section Runs

variable {stages others : List Stage} {stage : Stage} {verdict : Bool}

def Clean (stages : List Stage) : Prop := ∀ stage ∈ stages, stage = .goes []

/-- No stage stops without a problem. -/
def Reported (stages : List Stage) : Prop := ∀ stage ∈ stages, stage ≠ .stops []

/-- The first stage that is not clean stops without a problem. -/
def Silent (stages : List Stage) : Prop := ∃ before after, stages = before ++ .stops [] :: after ∧ Clean before

theorem clean_append : Clean (stages ++ others) ↔ Clean stages ∧ Clean others := List.forall_mem_append

theorem clean_cons : Clean (stage :: stages) ↔ stage = .goes [] ∧ Clean stages := List.forall_mem_cons

theorem clean_nil : Clean [] := by simp [Clean]

theorem reported_append : Reported (stages ++ others) ↔ Reported stages ∧ Reported others := List.forall_mem_append

theorem reported_cons : Reported (stage :: stages) ↔ stage ≠ .stops [] ∧ Reported stages := List.forall_mem_cons

theorem reported_nil : Reported [] := by simp [Reported]

theorem silent_cons : Silent (stage :: stages) ↔ stage = .stops [] ∨ (stage = .goes [] ∧ Silent stages) := by
  constructor
  · rintro ⟨before, after, split, clean⟩
    cases before with
    | nil => exact .inl (List.cons.inj split).1
    | cons first before =>
      obtain ⟨rfl, rfl⟩ := List.cons.inj split
      exact .inr ⟨(clean_cons.mp clean).1, before, after, rfl, (clean_cons.mp clean).2⟩
  · rintro (rfl | ⟨rfl, before, after, rfl, clean⟩)
    · exact ⟨[], stages, rfl, clean_nil⟩
    · exact ⟨.goes [] :: before, after, rfl, clean_cons.mpr ⟨rfl, clean⟩⟩

theorem not_silent_nil : ¬ Silent [] := by
  rintro ⟨before, after, split, _⟩
  simp at split

theorem silent_append : Silent (stages ++ others) ↔ Silent stages ∨ (Clean stages ∧ Silent others) := by
  induction stages with
  | nil => simp [not_silent_nil, clean_nil]
  | cons stage stages ih =>
    rw [List.cons_append, silent_cons, silent_cons, clean_cons, ih]
    tauto

theorem Reported.not_silent (reported : Reported stages) : ¬ Silent stages := by
  rintro ⟨before, after, rfl, _⟩
  exact reported _ (List.mem_append_right _ List.mem_cons_self) rfl

/-- A run without problems went through clean stages, to their end or to a silent one. -/
theorem runStages_quiet : runStages stages = some ([], verdict) ↔
    (Clean stages ∧ verdict = true) ∨ (Silent stages ∧ verdict = false) := by
  induction stages with
  | nil => simp [runStages, clean_nil, not_silent_nil, eq_comm]
  | cons stage stages ih =>
    rw [clean_cons, silent_cons]
    cases stage with
    | goes problems =>
      have step : runStages (.goes problems :: stages) = some ([], verdict) ↔ problems = [] ∧ runStages stages = some ([], verdict) := by
        rw [runStages, Option.map_eq_some_iff]
        constructor
        · rintro ⟨⟨later, final⟩, run, same⟩
          obtain ⟨none, rfl⟩ := Prod.mk.inj same
          obtain ⟨rfl, rfl⟩ := List.append_eq_nil_iff.mp none
          exact ⟨rfl, run⟩
        · rintro ⟨rfl, run⟩
          exact ⟨_, run, rfl⟩
      rw [step, ih]
      simp only [Stage.goes.injEq, reduceCtorEq, false_or]
      tauto
    | stops problems => simp [runStages, eq_comm]
    | throws => simp [runStages]

theorem refuse_clean {wrong : Bool} {code : String} {path message : JsString} :
    Stage.refuse wrong code path message = .goes [] ↔ wrong = false := by
  unfold Stage.refuse
  cases wrong <;> simp

theorem refuse_reported {wrong : Bool} {code : String} {path message : JsString} : Stage.refuse wrong code path message ≠ .stops [] := by
  unfold Stage.refuse
  cases wrong <;> simp

theorem observed_clean {status expectation : Status} {besides : Bool} {path : JsString} {what code message : String}
    (asked : expectation ≠ .error) :
    observedStage status expectation besides path what code message = .goes [] ↔ status = expectation := by
  unfold observedStage
  dsimp only
  split
  next failed => simp [failed, asked.symm]
  next answered =>
    rw [refuse_clean]
    simp

theorem observed_reported {status expectation : Status} {besides : Bool} {path : JsString} {what code message : String} :
    observedStage status expectation besides path what code message ≠ .stops [] := by
  unfold observedStage
  dsimp only
  split
  · simp
  · exact refuse_reported

end Runs

section Trees

variable {entries : Entries} {pairs : List (JsString × JsString)} {path : JsString} {label mismatch unobserved : String}

/-- The entries of a tree are regular files, of exactly these paths and digests. -/
def FilesAre (entries : Entries) (pairs : List (JsString × JsString)) : Prop :=
  (entries.rows.map fun (name, entry) => (name, entry.mode, entry.sha256)).Perm
    (pairs.map fun (name, digest) => (name, regularMode, some digest))

/-- Without a problem, the observed members are the entries. -/
theorem observed_files {rows : List (JsString × TreeEntry)} {code : String}
    (quiet : ((rows.map fun (relative, entry) => observedMember path code label relative entry).filterMap Sum.getLeft?) = []) :
    (rows.map fun (name, entry) => (name, entry.mode, entry.sha256)) =
      ((rows.map fun (relative, entry) => observedMember path code label relative entry).filterMap Sum.getRight?).map
        fun (name, digest) => (name, regularMode, some digest) := by
  induction rows with
  | nil => rfl
  | cons row rows ih =>
    obtain ⟨relative, entry⟩ := row
    rw [List.map_cons, List.filterMap_cons] at quiet
    rw [List.map_cons, List.map_cons, List.filterMap_cons]
    dsimp only at quiet ⊢
    cases answer : observedMember path code label relative entry with
    | inl problem => simp [answer] at quiet
    | inr pair =>
      rw [answer] at quiet
      have found : entry.mode = regularMode ∧ entry.sha256 = some pair.2 ∧ relative = pair.1 := by
        unfold observedMember at answer
        split at answer
        · simp at answer
        next regular =>
          cases held : entry.sha256 with
          | none => simp [held] at answer
          | some digest =>
            rw [held] at answer
            obtain rfl := Sum.inr.inj answer
            exact ⟨not_not.mp regular, rfl, rfl⟩
      obtain ⟨mode, digest, rfl⟩ := found
      simp only [Sum.getRight?, List.map_cons]
      rw [ih quiet, mode, digest]

theorem treeStages_clean (clean : Clean (treeStages entries pairs path label mismatch)) : FilesAre entries pairs := by
  obtain ⟨quiet, matched, _⟩ := clean_cons.mp clean |>.imp_right clean_cons.mp
  have seen : (observedMembers entries path "ADV-G85" label).2 = pairs :=
    not_not.mp (of_decide_eq_false (refuse_clean.mp matched))
  have files := observed_files (Stage.goes.inj quiet)
  unfold FilesAre
  rw [← seen]
  exact ((@sortByBytes_perm _ Prod.fst entries.rows).symm.map _).trans (List.Perm.of_eq files)

theorem treeStages_reported : Reported (treeStages entries pairs path label mismatch) :=
  reported_cons.mpr ⟨by simp, reported_cons.mpr ⟨refuse_reported, reported_nil⟩⟩

theorem treeAtStages_clean {answer : TreeAnswer} (clean : Clean (treeAtStages answer pairs path unobserved label mismatch)) :
    ∃ entries, answer = .present entries ∧ FilesAre entries pairs := by
  cases answer with
  | present entries => exact ⟨entries, rfl, treeStages_clean clean⟩
  | absent => exact absurd (clean_cons.mp clean).1 (by simp)
  | error => exact absurd (clean_cons.mp clean).1 (by simp)

theorem treeAtStages_reported {answer : TreeAnswer} : Reported (treeAtStages answer pairs path unobserved label mismatch) := by
  cases answer with
  | present entries => exact treeStages_reported
  | absent => exact reported_cons.mpr ⟨by simp, reported_nil⟩
  | error => exact reported_cons.mpr ⟨by simp, reported_nil⟩

end Trees

section Reports

variable {readers : PackageReaders} {value : Value} {path place : JsString} {context : PackageContext} {items : List Value}

theorem refuses_reported {stages : List Stage}
    (refuses : ∀ stage ∈ stages, ∃ wrong code path message, stage = .refuse wrong code path message) :
    Reported stages := by
  intro stage member
  obtain ⟨wrong, code, path, message, rfl⟩ := refuses stage member
  exact refuse_reported

theorem headStages_reported : Reported (headStages value path) := by
  unfold headStages exactKeys
  simp only [reported_cons, ne_eq, refuse_reported, not_false_eq_true, reported_nil, and_self]

theorem bundleStages_reported {waived : List JsString} : Reported (bundleStages readers value path waived) := by
  unfold bundleStages
  simp only [List.cons_append, reported_cons, reported_append, ne_eq, refuse_reported, not_false_eq_true, reported_nil, and_self, and_true,
    true_and]
  apply refuses_reported
  intro stage member
  obtain ⟨required, _, rfl⟩ := List.mem_map.mp member
  exact ⟨_, _, _, _, rfl⟩

theorem classStages_reported : Reported (classStages value path) := by
  unfold classStages
  simp only [reported_cons, ne_eq, refuse_reported, not_false_eq_true, reported_nil, and_self]

theorem snapshotStages_reported {observe : Observer} : Reported (snapshotStages value path observe) := by
  unfold snapshotStages
  simp only [List.cons_append, List.nil_append, reported_cons, ne_eq, observed_reported, not_false_eq_true, true_and]
  exact treeAtStages_reported

theorem checkoutStages_reported {checkout : Option Checkout} : Reported (checkoutStages value path checkout) := by
  have single (problem : Problem) : Reported [.stops [problem]] := reported_cons.mpr ⟨by simp, reported_nil⟩
  unfold checkoutStages
  split
  · exact single _
  split
  · exact single _
  next active entries _ =>
    refine reported_cons.mpr ⟨refuse_reported, ?_⟩
    split
    · exact single _
    · exact treeStages_reported

theorem commitStages_reported {observe : Observer} : Reported (verifyCommitReviewedIdentity value place observe) := by
  unfold verifyCommitReviewedIdentity
  simp only [List.cons_append, List.nil_append, reported_cons, ne_eq, observed_reported, refuse_reported, not_false_eq_true, true_and]
  exact treeAtStages_reported

theorem contentStages_reported {readBytes : Option (JsString → Except JsString (Option (List UInt8)))} :
    Reported (verifyContentReviewedIdentity readers value place readBytes) := by
  have single (problem : Problem) : Reported [.stops [problem]] := reported_cons.mpr ⟨by simp, reported_nil⟩
  unfold verifyContentReviewedIdentity
  refine reported_cons.mpr ⟨refuse_reported, ?_⟩
  split
  · exact single _
  split
  · exact single _
  · exact single _
  refine reported_cons.mpr ⟨refuse_reported, ?_⟩
  split
  · exact single _
  refine reported_cons.mpr ⟨refuse_reported, ?_⟩
  unfold recordStages
  split
  · exact reported_cons.mpr ⟨by simp, reported_nil⟩
  · exact single _
  next artifacts _ =>
    split
    · exact single _
    · refine reported_cons.mpr ⟨refuse_reported, ?_⟩
      intro stage member
      obtain ⟨artifact, _, listed⟩ := List.mem_flatMap.mp member
      unfold artifactStages at listed
      split at listed
      · exact single _ stage listed
      · exact reported_cons.mpr ⟨refuse_reported, reported_nil⟩ stage listed

theorem observationStages_reported : Reported (observationStages readers value path context) := by
  unfold observationStages
  split
  · exact reported_cons.mpr ⟨by simp, reported_nil⟩
  · refine reported_append.mpr ⟨reported_append.mpr ⟨snapshotStages_reported, checkoutStages_reported⟩, ?_⟩
    split
    · exact commitStages_reported
    · exact contentStages_reported

theorem oneMemberStages_silent {index : Nat} {seen : List JsString} {member : Value} :
    Silent (oneMemberStages path index seen member) ↔ isObject (some member) = false := by
  unfold oneMemberStages
  dsimp only
  rw [silent_cons]
  cases isObject (some member) with
  | false => simp
  | true =>
    have reported {stages : List Stage} (refuses : Reported stages) : ¬ Silent stages := refuses.not_silent
    rw [if_pos rfl, Bool.true_eq_false, iff_false, not_or, not_and]
    refine ⟨?_, fun _ => reported ?_⟩
    · unfold exactKeys
      exact refuse_reported
    · simp only [reported_cons, ne_eq, refuse_reported, not_false_eq_true, reported_nil, and_self]

/-- Only a member that is no object ends the members without a problem. -/
theorem memberStages_silent {index : Nat} {seen : List JsString} : Silent (memberStages path index seen items) ↔
    ∃ before other after, items = before ++ other :: after ∧ Clean (memberStages path index seen before) ∧
      isObject (some other) = false := by
  induction items generalizing index seen with
  | nil => simp [memberStages, not_silent_nil]
  | cons member items ih =>
    rw [memberStages, silent_append, oneMemberStages_silent, ih]
    constructor
    · rintro (shape | ⟨clean, before, other, after, rfl, cleans, shape⟩)
      · exact ⟨[], member, items, rfl, clean_nil, shape⟩
      · exact ⟨member :: before, other, after, rfl, clean_append.mpr ⟨clean, cleans⟩, shape⟩
    · rintro ⟨before, other, after, split, clean, shape⟩
      cases before with
      | nil => exact .inl ((List.cons.inj split).1 ▸ shape)
      | cons first before =>
        obtain ⟨rfl, rfl⟩ := List.cons.inj split
        obtain ⟨here, later⟩ := clean_append.mp clean
        exact .inr ⟨here, before, other, after, rfl, later, shape⟩

theorem identityStages_silent {name : String} : Silent (identityStages value path name) ↔ isObject (read value name) = false := by
  unfold identityStages
  dsimp only
  rw [silent_cons]
  cases isObject (read value name) with
  | false => simp
  | true =>
    rw [if_pos rfl, Bool.true_eq_false, iff_false, not_or, not_and]
    refine ⟨?_, fun _ => Reported.not_silent ?_⟩
    · unfold exactKeys
      exact refuse_reported
    · simp only [reported_cons, ne_eq, refuse_reported, not_false_eq_true, reported_nil, and_self]

/-- Something that has to be an object is none, and nothing before it is wrong. -/
def Unreported (readers : PackageReaders) (value : Value) (path : JsString) : Prop :=
  Clean (headStages value path) ∧
    ((∃ before other after, members value "members" = before ++ other :: after ∧ Clean (memberStages path 0 [] before) ∧
        isObject (some other) = false) ∨
      (Clean (memberStages path 0 [] (members value "members")) ∧ Clean (bundleStages readers value path [])) ∧
        (isObject (read value "reviewedIdentity") = false ∨
          Clean (identityStages value path "reviewedIdentity") ∧ isObject (read value "archivedPackageIdentity") = false))

theorem archiveStages_silent : Silent (archiveStages readers value path context []) ↔ Unreported readers value path := by
  have head := (@headStages_reported value path).not_silent
  have bundle := (@bundleStages_reported readers value path []).not_silent
  have classes := (@classStages_reported value path).not_silent
  have observations := (@observationStages_reported readers value path context).not_silent
  unfold archiveStages Unreported
  simp only [silent_append, clean_append, memberStages_silent, identityStages_silent, head, bundle, classes, observations, false_or,
    and_false, or_false]
  constructor
  · rintro ((⟨heads, listed⟩ | ⟨⟨⟨heads, clean⟩, bundled⟩, shape⟩) | ⟨⟨⟨⟨heads, clean⟩, bundled⟩, reviewed⟩, shape⟩)
    · exact ⟨heads, .inl listed⟩
    · exact ⟨heads, .inr ⟨⟨clean, bundled⟩, .inl shape⟩⟩
    · exact ⟨heads, .inr ⟨⟨clean, bundled⟩, .inr ⟨reviewed, shape⟩⟩⟩
  · rintro ⟨heads, listed | ⟨⟨clean, bundled⟩, shape | ⟨reviewed, shape⟩⟩⟩
    · exact .inl (.inl ⟨heads, listed⟩)
    · exact .inl (.inr ⟨⟨⟨heads, clean⟩, bundled⟩, shape⟩)
    · exact .inr ⟨⟨⟨⟨heads, clean⟩, bundled⟩, reviewed⟩, shape⟩

end Reports

section Agreement

/-- A commit that is part of the history holds one root with exactly these files, and not the other. -/
structure AtCommit (observe : Observer) (commit : Option Value) (held gone : JsString) (pairs : List (JsString × JsString)) : Prop where
  known : observe.commitExists commit = .present
  reachable : observe.isReachable commit = .present
  there : observe.pathExistsAt commit held = .present
  away : observe.pathExistsAt commit gone = .absent
  tree : ∃ entries, observe.treeAt commit held = .present entries ∧ FilesAre entries pairs

structure InCheckout (checkout : Checkout) (held gone : JsString) (pairs : List (JsString × JsString)) : Prop where
  away : checkout.pathExists gone = .ok false
  tree : ∃ entries, checkout.tree held = .ok (some entries) ∧ FilesAre entries pairs

/-- A review record of the member that holds it names exactly the planning artifacts, by the digests of the members. -/
structure ReviewedRecord (readers : PackageReaders) (value : Value) (readBytes : JsString → Except JsString (Option (List UInt8)))
    (bytes : List UInt8) (artifacts : List ReviewedArtifact) (expected : List JsString) : Prop where
  scope : scopeOf (read value "reviewedIdentity") = [archiveRoot value ++ units "/" ++ units reviewFile]
  held : readBytes (archiveRoot value ++ units "/" ++ units reviewFile) = .ok (some bytes)
  digest : readIn (read value "reviewedIdentity") "value" = some (.string (readers.sha256Bytes bytes))
  member : (units reviewFile, readers.sha256Bytes bytes) ∈ memberPairs value
  record : readers.reviewRecord bytes = .ok artifacts
  projection : planningProjection (deltaSpecPaths ((memberPairs value).map Prod.fst)) = some expected
  complete : (artifacts.map ReviewedArtifact.path).Perm expected
  digests : ∀ artifact ∈ artifacts, (artifact.path, artifact.sha256) ∈ memberPairs value

/-- What the acceptance of an archived package is to say. -/
structure Agreement (readers : PackageReaders) (value : Value) (context : PackageContext) (observe : Observer) (checkout : Checkout) :
    Prop where
  observes : context.observe = some observe
  checks : context.checkout = some checkout
  files : ∀ member ∈ members value "members", textAt member "path" = some (memberPair member).1 ∧
    textAt member "contentSha256" = some (memberPair member).2
  distinct : ((memberPairs value).map Prod.fst).Nodup
  archivedClass : isText (readIn (read value "archivedPackageIdentity") "class") "local-git-commit" = true
  archived : AtCommit observe (readIn (read value "archivedPackageIdentity") "value") (archiveRoot value) (activeRoot value)
    (memberPairs value)
  current : InCheckout checkout (archiveRoot value) (activeRoot value) (memberPairs value)
  reviewed : (isText (readIn (read value "reviewedIdentity") "class") "local-git-commit" = true ∧
      readIn (read value "reviewedIdentity") "value" ≠ readIn (read value "archivedPackageIdentity") "value" ∧
      AtCommit observe (readIn (read value "reviewedIdentity") "value") (activeRoot value) (archiveRoot value) (memberPairs value)) ∨
    (isText (readIn (read value "reviewedIdentity") "class") "content-sha256" = true ∧ ∃ readBytes bytes artifacts expected,
      context.readBytes = some readBytes ∧ ReviewedRecord readers value readBytes bytes artifacts expected)

variable {readers : PackageReaders} {value : Value} {path place : JsString} {context : PackageContext} {items : List Value}

theorem memberStages_clean {index : Nat} {seen : List JsString} (clean : Clean (memberStages path index seen items)) :
    (∀ member ∈ items, textAt member "path" = some (memberPair member).1 ∧ textAt member "contentSha256" = some (memberPair member).2) ∧
      (items.map fun member => (memberPair member).1).Nodup ∧ ∀ member ∈ items, (memberPair member).1 ∉ seen := by
  induction items generalizing index seen with
  | nil => simp
  | cons member items ih =>
    rw [memberStages, clean_append] at clean
    obtain ⟨here, later⟩ := clean
    obtain ⟨files, distinct, apart⟩ := ih later
    unfold oneMemberStages at here
    simp only [clean_cons, refuse_clean, Bool.not_eq_false', List.contains_eq_mem, decide_eq_false_iff_not] at here
    obtain ⟨_, safe, digest, fresh, _⟩ := here
    have named : textAt member "path" = some (memberPair member).1 := by
      unfold safeMemberPath at safe
      split at safe
      next text held => simp [textAt, memberPair, held, textOf, stringOf]
      · simp at safe
    have digested : textAt member "contentSha256" = some (memberPair member).2 := by
      unfold isSha256 at digest
      split at digest
      next text held => simp [textAt, memberPair, held, textOf, stringOf]
      · simp at digest
    refine ⟨List.forall_mem_cons.mpr ⟨⟨named, digested⟩, files⟩, ?_, List.forall_mem_cons.mpr ⟨fresh, fun other listed within => ?_⟩⟩
    · rw [List.map_cons, List.nodup_cons]
      refine ⟨fun listed => ?_, distinct⟩
      obtain ⟨other, member', same⟩ := List.mem_map.mp listed
      exact apart other member' (same ▸ List.mem_cons_self)
    · exact apart other listed (List.mem_cons_of_mem _ within)

theorem snapshotStages_clean {observe : Observer} (clean : Clean (snapshotStages value path observe)) :
    AtCommit observe (readIn (read value "archivedPackageIdentity") "value") (archiveRoot value) (activeRoot value)
      (memberPairs value) := by
  unfold snapshotStages at clean
  obtain ⟨asked, tree⟩ := clean_append.mp clean
  simp only [clean_cons, observed_clean, ne_eq, reduceCtorEq, not_false_eq_true] at asked
  exact ⟨asked.1, asked.2.1, asked.2.2.1, asked.2.2.2.1, treeAtStages_clean tree⟩

theorem checkoutStages_clean {given : Option Checkout} (clean : Clean (checkoutStages value path given)) :
    ∃ checkout, given = some checkout ∧ InCheckout checkout (archiveRoot value) (activeRoot value) (memberPairs value) := by
  unfold checkoutStages at clean
  cases given with
  | none => exact absurd (clean_cons.mp clean).1 (by simp)
  | some checkout =>
    refine ⟨checkout, rfl, ?_⟩
    dsimp only at clean
    split at clean
    · exact absurd (clean_cons.mp clean).1 (by simp)
    next active entries asked =>
      obtain ⟨gone, rest⟩ := clean_cons.mp clean
      rw [refuse_clean] at gone
      cases first : checkout.pathExists (activeRoot value) with
      | error message => simp [first, Except.bind] at asked
      | ok answer =>
        cases second : checkout.tree (archiveRoot value) with
        | error message => simp [first, second, Except.bind, Except.map] at asked
        | ok held =>
          simp only [first, second, Except.bind, Except.map, Except.ok.injEq, Prod.mk.injEq] at asked
          obtain ⟨rfl, rfl⟩ := asked
          cases held with
          | none => exact absurd (clean_cons.mp rest).1 (by simp)
          | some entries => exact ⟨first.trans (congrArg _ gone), entries, second, treeStages_clean rest⟩

theorem commitStages_clean {observe : Observer} (clean : Clean (verifyCommitReviewedIdentity value place observe)) :
    AtCommit observe (readIn (read value "reviewedIdentity") "value") (activeRoot value) (archiveRoot value) (memberPairs value) := by
  unfold verifyCommitReviewedIdentity at clean
  obtain ⟨asked, tree⟩ := clean_append.mp clean
  simp only [clean_cons, observed_clean, ne_eq, reduceCtorEq, not_false_eq_true] at asked
  exact ⟨asked.1, asked.2.1, asked.2.2.2.1, asked.2.2.2.2.1, treeAtStages_clean tree⟩

theorem artifactStages_clean {artifact : ReviewedArtifact} (clean : Clean (artifactStages value place artifact)) :
    (artifact.path, artifact.sha256) ∈ memberPairs value := by
  unfold artifactStages at clean
  split at clean
  · exact absurd (clean_cons.mp clean).1 (by simp)
  next digest found =>
    have same := (clean_cons.mp clean).1
    rw [refuse_clean, decide_eq_false_iff_not, not_not] at same
    exact same ▸ mem_of_lookup found

theorem contentStages_clean {given : Option (JsString → Except JsString (Option (List UInt8)))}
    (clean : Clean (verifyContentReviewedIdentity readers value place given)) : ∃ readBytes bytes artifacts expected,
      given = some readBytes ∧ ReviewedRecord readers value readBytes bytes artifacts expected := by
  unfold verifyContentReviewedIdentity at clean
  obtain ⟨scope, clean⟩ := clean_cons.mp clean
  cases given with
  | none => exact absurd (clean_cons.mp clean).1 (by simp)
  | some readBytes =>
    dsimp only at clean
    split at clean
    · exact absurd (clean_cons.mp clean).1 (by simp)
    · exact absurd (clean_cons.mp clean).1 (by simp)
    next bytes given =>
      obtain ⟨digest, clean⟩ := clean_cons.mp clean
      split at clean
      · exact absurd (clean_cons.mp clean).1 (by simp)
      next declared found =>
        obtain ⟨alike, clean⟩ := clean_cons.mp clean
        unfold recordStages at clean
        split at clean
        · exact absurd (clean_cons.mp clean).1 (by simp)
        · exact absurd (clean_cons.mp clean).1 (by simp)
        next artifacts read =>
          split at clean
          · exact absurd (clean_cons.mp clean).1 (by simp)
          next expected projected =>
            obtain ⟨complete, clean⟩ := clean_cons.mp clean
            rw [refuse_clean, decide_eq_false_iff_not, not_not] at scope alike complete
            rw [refuse_clean, Bool.not_eq_false'] at digest
            refine ⟨readBytes, bytes, artifacts, expected, rfl, ?_⟩
            refine ⟨scope, given, ?_, ?_, read, projected, ?_, ?_⟩
            · split at digest
              next text held => rw [held, of_decide_eq_true digest]
              · simp at digest
            · exact alike ▸ mem_of_lookup found
            · exact perm_of_sorted complete
            · intro artifact member
              exact artifactStages_clean fun stage listed => clean stage (List.mem_flatMap.mpr ⟨artifact, member, listed⟩)

theorem isText_object {identity : Option Value} {text : String} (classed : isText (readIn identity "class") text = true) :
    isObject identity = true := by
  cases identity with
  | none => simp [readIn, isText] at classed
  | some value =>
    cases value <;> first | rfl | simp [readIn, read, Json.child, isText] at classed

/-- Clean stages have seen everything that is to agree. -/
theorem archiveStages_clean (clean : Clean (archiveStages readers value path context [])) :
    ∃ observe checkout, Agreement readers value context observe checkout := by
  unfold archiveStages at clean
  simp only [clean_append] at clean
  obtain ⟨⟨⟨⟨⟨⟨_, listed⟩, _⟩, _⟩, _⟩, classes⟩, observed⟩ := clean
  obtain ⟨files, distinct, _⟩ := memberStages_clean listed
  unfold classStages at classes
  simp only [clean_cons, refuse_clean, Bool.not_eq_false'] at classes
  obtain ⟨archivedClass, _, reviewedClass, _⟩ := classes
  unfold observationStages at observed
  split at observed
  · exact absurd (clean_cons.mp observed).1 (by simp)
  next observe observes =>
    simp only [clean_append] at observed
    obtain ⟨⟨snapshot, current⟩, reviewed⟩ := observed
    obtain ⟨checkout, checks, current⟩ := checkoutStages_clean current
    have archived := snapshotStages_clean snapshot
    refine ⟨observe, checkout, observes, checks, files, ?_, archivedClass, archived, current, ?_⟩
    · rw [memberPairs, List.map_map]
      exact distinct
    split at reviewed
    next local' =>
      have commit := commitStages_clean reviewed
      refine .inl ⟨local', fun same => ?_, commit⟩
      have away := commit.away
      rw [same, archived.there] at away
      cases away
    next other =>
      have content : isText (readIn (read value "reviewedIdentity") "class") "content-sha256" = true := by
        simpa [oneOf, other] using reviewedClass
      exact .inr ⟨content, contentStages_clean reviewed⟩

/-- A package without problems agrees with everything it is to agree with. -/
def SoundlyAccepted (readers : PackageReaders) (value : Value) (path : JsString) (context : PackageContext) : Prop :=
  ∀ verdict, validateArchivedOpenSpec readers value path context = some ([], verdict) →
    ∃ observe checkout, Agreement readers value context observe checkout

theorem unreported_unsound (unreported : Unreported readers value path) : ¬ SoundlyAccepted readers value path context := by
  intro sound
  have run := runStages_quiet.mpr (.inr ⟨(@archiveStages_silent _ _ _ context).mpr unreported, rfl⟩)
  obtain ⟨observe, checkout, agreement⟩ := sound false run
  rcases unreported.2 with ⟨before, other, after, split, _, shape⟩ | ⟨_, shape | ⟨_, shape⟩⟩
  · have named := (agreement.files other (split ▸ List.mem_append_right _ List.mem_cons_self)).1
    cases other <;> simp_all [textAt, read, Json.child, isObject]
  · rcases agreement.reviewed with ⟨classed, _⟩ | ⟨classed, _⟩
    · exact absurd (isText_object classed) (by simp [shape])
    · exact absurd (isText_object classed) (by simp [shape])
  · exact absurd (isText_object agreement.archivedClass) (by simp [shape])

/-- The acceptance of an archived package is sound exactly where nothing that has to be an object goes unreported. -/
theorem archived_package_sound_iff (readers : PackageReaders) (value : Value) (path : JsString) (context : PackageContext) :
    SoundlyAccepted readers value path context ↔ ¬ Unreported readers value path := by
  constructor
  · exact fun sound unreported => unreported_unsound unreported sound
  · intro reported verdict run
    rcases runStages_quiet.mp run with ⟨clean, _⟩ | ⟨silent, _⟩
    · exact archiveStages_clean clean
    · exact absurd (archiveStages_silent.mp silent) reported

/-- A package of one member, which is a string. -/
def stringMember : Value :=
  objectOf [("schemaVersion", some (.number versionOne)), ("contract", some (.string (units archivedContract))),
    ("changeId", some (.string (units "a"))), ("activeRoot", some (.string (units "openspec/changes/a"))),
    ("archiveRoot", some (.string (units "openspec/changes/archive/2026-08-30-a"))), ("members", some (.array [.string (units "x")])),
    ("bundleSha256", some .null), ("reviewedIdentity", some .null), ("archivedPackageIdentity", some .null)]

def noReaders : PackageReaders := ⟨fun _ => [], id, fun _ => .error .other⟩

/-- It passes without a problem, and without a look at any repository. -/
theorem string_member_unreported : validateArchivedOpenSpec noReaders stringMember (units "$") ⟨none, none, none⟩ = some ([], false) ∧
    ¬ SoundlyAccepted noReaders stringMember (units "$") ⟨none, none, none⟩ := by
  have head : ∀ stage ∈ headStages stringMember (units "$"), stage = .goes [] := by decide +kernel
  have unreported : Unreported noReaders stringMember (units "$") := ⟨head, .inl ⟨[], .string (units "x"), [], rfl, clean_nil, rfl⟩⟩
  exact ⟨runStages_quiet.mpr (.inr ⟨archiveStages_silent.mpr unreported, rfl⟩), unreported_unsound unreported⟩

end Agreement

end SecureHome.Governance
