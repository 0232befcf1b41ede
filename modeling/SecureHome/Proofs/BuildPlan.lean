import SecureHome.Impact.BuildPlan
import SecureHome.Lib.Fallible

/-! What a plan builds: the images asked for, everything derived of them, and whatever those
are derived of. -/

namespace SecureHome.Proofs.BuildPlan
open Lib Impact Relation

section Graphs

variable {images : List LockImage} {graph : ImageGraph} {lock : ImageLock} {missing : LockImage → JsString} {revision one other : JsString}

/-- An image of one name is derived of one of another. -/
def DerivedFrom (images : List LockImage) (parent child : JsString) : Prop :=
  ∃ image ∈ images, image.isDerived = true ∧ image.parent = some parent ∧ image.name = child

theorem leads_derived : Leads (childrenOf images) one other ↔ DerivedFrom images one other := by
  unfold Leads childrenOf DerivedFrom
  simp only [List.mem_map, List.mem_filter, Bool.and_eq_true, decide_eq_true_iff, and_assoc]

theorem leads_eq : Leads (childrenOf images) = DerivedFrom images := funext fun _ => funext fun _ => propext leads_derived

/-- The names are distinct, every parent is among them, and no image is derived of itself. -/
structure Sound (images : List LockImage) : Prop where
  distinct : (images.map (·.name)).Nodup
  known : ∀ image ∈ images, image.isDerived = true → ∃ parent, image.parent = some parent ∧ parent ∈ images.map (·.name)
  acyclic : ∀ name, ¬ TransGen (DerivedFrom images) name name

theorem stays (images : List LockImage) : ∀ one ∈ images.map (·.name), childrenOf images one ⊆ images.map (·.name) :=
  fun one _ => childrenOf_names images one

theorem linkImages_ok : (∃ graph, linkImages images missing = .ok graph) ↔
    (∀ image ∈ images, image.isDerived = true → ∃ parent, image.parent = some parent ∧ parent ∈ images.map (·.name)) ∧
      ∀ name, ¬ TransGen (DerivedFrom images) name name := by
  unfold linkImages
  cases found : images.find? fun image => image.isDerived && !image.parent.any fun parent => (images.map (·.name)).contains parent with
  | some image =>
    have wrong := List.find?_some found
    simp only [Bool.and_eq_true, Bool.not_eq_true', Option.any_eq_false] at wrong
    constructor
    · rintro ⟨graph, impossible⟩
      cases impossible
    · rintro ⟨known, _⟩
      obtain ⟨parent, named, member⟩ := known image (List.mem_of_find?_eq_some found) wrong.1
      exact absurd ((wrong.2 parent named).symm.trans (List.contains_iff_mem.mpr member)) (by decide)
  | none =>
    have known : ∀ image ∈ images, image.isDerived = true → ∃ parent, image.parent = some parent ∧ parent ∈ images.map (·.name) := by
      intro image listed derived
      have right := List.find?_eq_none.mp found image listed
      rw [derived, Bool.true_and, Bool.not_eq_true', Bool.not_eq_false, Option.any_eq_true] at right
      obtain ⟨parent, named, member⟩ := right
      exact ⟨parent, named, List.contains_iff_mem.mp member⟩
    have outside : ∀ one ∉ images.map (·.name), childrenOf images one = [] := by
      intro one absent
      apply List.eq_nil_iff_forall_not_mem.mpr
      intro child led
      obtain ⟨image, listed, derived, named, _⟩ := leads_derived.mp led
      obtain ⟨parent, same, member⟩ := known image listed derived
      rw [named] at same
      exact absent (Option.some.inj same ▸ member)
    have iff := descendAll_iff (stays images) outside
    rw [leads_eq] at iff
    rw [and_iff_right known, ← iff]
    dsimp only
    cases descendAll (childrenOf images) (images.map (·.name)) with
    | ok after => simp
    | error halt => cases halt <;> simp

theorem linkImages_same (linked : linkImages images missing = .ok graph) : graph = ⟨images⟩ := by
  unfold linkImages at linked
  split at linked
  · cases linked
  split at linked
  · exact (Except.ok.inj linked).symm
  · cases linked
  · cases linked

/-- The builder accepts exactly the sound locks, as they are. -/
theorem graphFromLock_ok : (∃ graph, graphFromLock lock = .ok graph) ↔ Sound lock.images := by
  unfold graphFromLock
  by_cases distinct : (lock.images.map (·.name)).Nodup
  · rw [if_neg (not_not.mpr distinct), linkImages_ok]
    exact ⟨fun ⟨known, acyclic⟩ => ⟨distinct, known, acyclic⟩, fun sound => ⟨sound.known, sound.acyclic⟩⟩
  · rw [if_pos distinct]
    constructor
    · rintro ⟨graph, impossible⟩
      cases impossible
    · exact fun sound => absurd sound.distinct distinct

theorem graphFromLock_same (accepted : graphFromLock lock = .ok graph) : graph = ⟨lock.images⟩ := by
  unfold graphFromLock at accepted
  split at accepted
  · cases accepted
  · exact linkImages_same accepted

theorem entriesProblem_distinct {seen : List JsString} (quiet : entriesProblem revision seen images = none) :
    (images.map (·.name)).Nodup ∧ ∀ image ∈ images, image.name ∉ seen := by
  induction images generalizing seen with
  | nil => simp
  | cons image rest ih =>
    rw [entriesProblem] at quiet
    obtain ⟨here, later⟩ : entryProblem revision seen image = none ∧ entriesProblem revision (image.name :: seen) rest = none := by
      cases problem : entryProblem revision seen image with
      | none => exact ⟨rfl, by simpa [problem] using quiet⟩
      | some message => simp [problem] at quiet
    obtain ⟨distinct, fresh⟩ := ih later
    have unseen : image.name ∉ seen := by
      intro member
      unfold entryProblem at here
      rw [if_pos member] at here
      split at here
      · cases here
      split at here <;> cases here
    constructor
    · rw [List.map_cons, List.nodup_cons]
      refine ⟨fun listed => ?_, distinct⟩
      obtain ⟨again, member, same⟩ := List.mem_map.mp listed
      exact fresh again member (same ▸ List.mem_cons_self)
    · intro other member
      rcases List.mem_cons.mp member with rfl | member
      · exact unseen
      · exact fun within => fresh other member (List.mem_cons_of_mem _ within)

/-- What the impact analysis accepts, the builder does, as the same graph. -/
theorem impactGraph_sound (accepted : impactGraphFromLock lock revision = .ok graph) : graph = ⟨lock.images⟩ ∧ Sound lock.images := by
  unfold impactGraphFromLock at accepted
  split at accepted
  · cases accepted
  split at accepted
  · cases accepted
  next quiet =>
    obtain ⟨known, acyclic⟩ := linkImages_ok.mp ⟨graph, accepted⟩
    exact ⟨linkImages_same accepted, (entriesProblem_distinct quiet).1, known, acyclic⟩

end Graphs

section Walks

variable {graph : ImageGraph} {image parent : LockImage} {name one other : JsString} {fuel : Nat} {images : List LockImage}

theorem byName_found (distinct : (images.map (·.name)).Nodup) (member : image ∈ images) :
    ImageGraph.byName ⟨images⟩ image.name = some image := by
  cases found : ImageGraph.byName ⟨images⟩ image.name with
  | none => exact absurd (List.find?_eq_none.mp found image member) (by simp)
  | some held =>
    unfold ImageGraph.byName at found
    have same : held.name = image.name := by simpa using List.find?_some found
    rw [List.inj_on_of_nodup_map distinct (List.mem_of_find?_eq_some found) member same]

theorem byName_listed (found : ImageGraph.byName ⟨images⟩ name = some image) : image ∈ images ∧ image.name = name := by
  unfold ImageGraph.byName at found
  exact ⟨List.mem_of_find?_eq_some found, by simpa using List.find?_some found⟩

/-- The parent of a derived image is there, under its name. -/
theorem parent_found (sound : Sound images) (member : image ∈ images) (derived : image.isDerived = true) :
    ∃ parent ∈ images, image.parent.bind (ImageGraph.byName ⟨images⟩) = some parent ∧ image.parent = some parent.name := by
  obtain ⟨name, named, listed⟩ := sound.known image member derived
  obtain ⟨parent, there, rfl⟩ := List.mem_map.mp listed
  exact ⟨parent, there, by rw [named, Option.bind_some, byName_found sound.distinct there], named⟩

theorem derivedFrom_unique (sound : Sound images) (member : image ∈ images) (derived : DerivedFrom images one image.name) :
    image.isDerived = true ∧ image.parent = some one := by
  obtain ⟨held, listed, isDerived, named, same⟩ := derived
  obtain rfl := List.inj_on_of_nodup_map sound.distinct listed member same
  exact ⟨isDerived, named⟩

theorem root_alone (sound : Sound images) (member : image ∈ images) (root : ¬ image.isDerived = true) :
    ¬ TransGen (DerivedFrom images) name image.name := by
  intro reaches
  obtain ⟨one, _, derived⟩ := TransGen.tail'_iff.mp reaches
  exact root (derivedFrom_unique sound member derived).1

/-- The ancestors of an image are what it is derived of. -/
theorem ancestorsOf_exact (sound : Sound images) {ancestors : List JsString} (member : image ∈ images)
    (walked : ancestorsOf ⟨images⟩ fuel image = .ok ancestors) : name ∈ ancestors ↔ TransGen (DerivedFrom images) name image.name := by
  induction fuel generalizing image ancestors with
  | zero =>
    rw [ancestorsOf] at walked
    split at walked
    · cases walked
    next root =>
      obtain rfl := Except.ok.inj walked
      exact iff_of_false List.not_mem_nil (root_alone sound member root)
  | succ fuel ih =>
    rw [ancestorsOf] at walked
    split at walked
    next derived =>
      obtain ⟨parent, there, found, named⟩ := parent_found sound member derived
      rw [found] at walked
      cases further : ancestorsOf ⟨images⟩ fuel parent with
      | error refusal => simp [further, Except.map] at walked
      | ok more =>
        simp only [further, Except.map, Except.ok.injEq] at walked
        rw [← walked, List.mem_cons, ih there further]
        have edge : DerivedFrom images parent.name image.name := ⟨image, member, derived, named, rfl⟩
        constructor
        · rintro (rfl | reaches)
          · exact .single edge
          · exact reaches.tail edge
        · intro reaches
          obtain ⟨one, back, last⟩ := TransGen.tail'_iff.mp reaches
          obtain rfl : one = parent.name := Option.some.inj ((derivedFrom_unique sound member last).2.symm.trans named)
          rcases reflTransGen_iff_eq_or_transGen.mp back with same | further
          · exact .inl same.symm
          · exact .inr further
    next root =>
      obtain rfl := Except.ok.inj walked
      exact iff_of_false List.not_mem_nil (root_alone sound member root)

/-- A walk along the parents, behind images that are derived of this one, ends: there are only so many. -/
theorem ancestorsOf_ends (sound : Sound images) {trail : List JsString} (member : image ∈ images) (distinct : trail.Nodup)
    (among : trail ⊆ images.map (·.name)) (behind : ∀ name ∈ trail, TransGen (DerivedFrom images) image.name name)
    (enough : images.length ≤ trail.length + fuel) : ∃ ancestors, ancestorsOf ⟨images⟩ fuel image = .ok ancestors := by
  induction fuel generalizing image trail with
  | zero =>
    rw [ancestorsOf]
    split
    next derived =>
      have apart : (image.name :: trail).Nodup := List.nodup_cons.mpr ⟨fun here => sound.acyclic _ (behind _ here), distinct⟩
      have within : image.name :: trail ⊆ images.map (·.name) := List.cons_subset.mpr ⟨List.mem_map_of_mem member, among⟩
      have most := (List.subperm_of_subset apart within).length_le
      rw [List.length_cons, List.length_map] at most
      omega
    next => exact ⟨[], rfl⟩
  | succ fuel ih =>
    rw [ancestorsOf]
    split
    next derived =>
      obtain ⟨parent, there, found, named⟩ := parent_found sound member derived
      have edge : DerivedFrom images parent.name image.name := ⟨image, member, derived, named, rfl⟩
      have apart : (image.name :: trail).Nodup := List.nodup_cons.mpr ⟨fun here => sound.acyclic _ (behind _ here), distinct⟩
      have within : image.name :: trail ⊆ images.map (·.name) := List.cons_subset.mpr ⟨List.mem_map_of_mem member, among⟩
      have further := ih there apart within (List.forall_mem_cons.mpr ⟨.single edge, fun name listed => .head edge (behind name listed)⟩)
        (by rw [List.length_cons]; omega)
      obtain ⟨ancestors, walked⟩ := further
      exact ⟨_, by rw [found]; exact congrArg (Except.map (parent.name :: ·)) walked⟩
    next => exact ⟨[], rfl⟩

theorem mem_closure {requested : List JsString} : name ∈ Impact.closure ⟨images⟩ requested ↔
    name ∈ images.map (·.name) ∧ ∃ start ∈ requested, ReflTransGen (DerivedFrom images) start name := by
  have reached : name ∈ (derivedOf ⟨images⟩ requested).found ↔ ∃ start ∈ requested, ReflTransGen (DerivedFrom images) start name :=
    leads_eq ▸ mem_flood
  unfold Impact.closure
  rw [List.mem_filter, List.contains_iff_mem, reached]
  rfl

theorem derived_listed (start : one ∈ images.map (·.name)) (reaches : ReflTransGen (DerivedFrom images) one other) :
    other ∈ images.map (·.name) := by
  cases reaches with
  | refl => exact start
  | tail _ last =>
    obtain ⟨image, listed, _, _, rfl⟩ := last
    exact List.mem_map_of_mem listed

theorem ancestor_listed (sound : Sound images) (reaches : TransGen (DerivedFrom images) one other) : one ∈ images.map (·.name) := by
  obtain ⟨next, ⟨image, there, isDerived, named, _⟩, _⟩ := TransGen.head'_iff.mp reaches
  obtain ⟨parent, same, member⟩ := sound.known image there isDerived
  rw [named] at same
  exact Option.some.inj same ▸ member

/-- The walks of the selected images end, and find the ancestors that are not selected. -/
theorem supportAncestors_ends (sound : Sound images) {selected : List JsString} (listed : selected ⊆ images.map (·.name)) :
    ∃ support, supportAncestors ⟨images⟩ selected = .ok support ∧ (∀ name, name ∈ support ↔
      name ∈ images.map (·.name) ∧ name ∉ selected ∧ ∃ one ∈ selected, TransGen (DerivedFrom images) name one) := by
  have walks (chosen : List LockImage) (there : chosen ⊆ images) : ∃ ancestors,
      chosen.mapM (ancestorsOf ⟨images⟩ images.length) = .ok ancestors ∧
        ∀ name, name ∈ ancestors.flatten ↔ ∃ image ∈ chosen, TransGen (DerivedFrom images) name image.name := by
    induction chosen with
    | nil => exact ⟨[], rfl, by simp⟩
    | cons image rest ih =>
      obtain ⟨here, later⟩ := List.cons_subset.mp there
      obtain ⟨first, walked⟩ := ancestorsOf_ends sound here List.nodup_nil (List.nil_subset _) (by simp)
        (Nat.le_of_eq (Nat.zero_add _).symm)
      obtain ⟨others, mapped, exact'⟩ := ih later
      refine ⟨first :: others, ?_, fun name => ?_⟩
      · rw [List.mapM_cons, walked, mapped]
        rfl
      · rw [List.flatten_cons, List.mem_append, ancestorsOf_exact sound here walked, exact' name, List.exists_mem_cons_iff]
  have chosen : selected.filterMap (ImageGraph.byName ⟨images⟩) ⊆ images := by
    intro image member
    obtain ⟨name, _, found⟩ := List.mem_filterMap.mp member
    exact (byName_listed found).1
  obtain ⟨ancestors, walked, exact'⟩ := walks _ chosen
  refine ⟨_, by rw [supportAncestors, walked]; rfl, fun name => ?_⟩
  rw [List.mem_filter, Bool.and_eq_true, Bool.not_eq_true', List.contains_iff_mem, exact']
  have same : (∃ image ∈ selected.filterMap (ImageGraph.byName ⟨images⟩), TransGen (DerivedFrom images) name image.name) ↔
      ∃ one ∈ selected, TransGen (DerivedFrom images) name one := by
    constructor
    · rintro ⟨image, member, reaches⟩
      obtain ⟨one, chosen, found⟩ := List.mem_filterMap.mp member
      exact ⟨one, chosen, (byName_listed found).2 ▸ reaches⟩
    · rintro ⟨one, chosen, reaches⟩
      obtain ⟨image, there, rfl⟩ := List.mem_map.mp (listed chosen)
      exact ⟨image, List.mem_filterMap.mpr ⟨image.name, chosen, byName_found sound.distinct there⟩, reaches⟩
  rw [same, List.contains_eq_mem, decide_eq_false_iff_not]
  rfl

end Walks

section Phasing

variable {images : List LockImage} {requested selected : List JsString} {phases : Phases} {name one other : JsString}

theorem isDerivedName_iff (sound : Sound images) : isDerivedName ⟨images⟩ name = true ↔ ∃ parent, DerivedFrom images parent name := by
  unfold isDerivedName
  rw [Option.any_eq_true]
  constructor
  · intro derived
    obtain ⟨image, found, isDerived⟩ := derived
    obtain ⟨listed, same⟩ := byName_listed found
    obtain ⟨parent, named, _⟩ := sound.known image listed isDerived
    exact ⟨parent, image, listed, isDerived, named, same⟩
  · intro derived
    obtain ⟨parent, image, listed, isDerived, _, rfl⟩ := derived
    exact ⟨image, byName_found sound.distinct listed, isDerived⟩

theorem parentOf_found (sound : Sound images) (derived : DerivedFrom images one other) :
    ∃ parent ∈ images, parentOf ⟨images⟩ other = some parent ∧ parent.name = one := by
  obtain ⟨image, listed, isDerived, named, rfl⟩ := derived
  obtain ⟨parent, there, found, again⟩ := parent_found sound listed isDerived
  refine ⟨parent, there, ?_, Option.some.inj (again.symm.trans named)⟩
  unfold parentOf
  rw [byName_found sound.distinct listed, Option.bind_some, found]

/-- A name is derived of one parent only. -/
theorem DerivedFrom.unique (sound : Sound images) {parent again : JsString} (first : DerivedFrom images parent name)
    (second : DerivedFrom images again name) : parent = again := by
  obtain ⟨image, listed, _, named, rfl⟩ := first
  exact Option.some.inj (named.symm.trans (derivedFrom_unique sound listed second).2)

/-- What phases are for: exactly what is asked for, what is derived of it and what that is derived of is
put out, once, and whatever is derived behind its parent. -/
structure Builds (images : List LockImage) (phases : Phases) : Prop where
  selected : ∀ name, name ∈ phases.selected ↔ ∃ start ∈ phases.requested, ReflTransGen (DerivedFrom images) start name
  outputs : ∀ name, name ∈ phases.outputs ↔
    name ∈ phases.selected ∨ ∃ one ∈ phases.selected, TransGen (DerivedFrom images) name one
  once : phases.outputs.Nodup
  phased : (phases.roots ++ phases.derived).Perm phases.outputs
  earlier : ∀ child ∈ phases.derived, ∃ parent ∈ phases.roots, DerivedFrom images parent child
  first : ∀ root ∈ phases.roots, ∀ parent, ¬ DerivedFrom images parent root

theorem checkParents_plain (sound : Sound images) {derived : List JsString} (checked : checkParents ⟨images⟩ derived = .ok ()) :
    ∀ child ∈ derived, ∀ parent, DerivedFrom images parent child → ∀ before, ¬ DerivedFrom images before parent := by
  intro child member parent edge before above
  unfold checkParents at checked
  split at checked
  · cases checked
  next plain =>
    obtain ⟨image, there, isParent, rfl⟩ := parentOf_found sound edge
    apply List.find?_eq_none.mp plain child member
    rw [isParent, Option.any_some]
    exact (derivedFrom_unique sound there above).1

theorem phasesOf_ok : phasesOf ⟨images⟩ requested = .ok phases → ∃ support,
    supportAncestors ⟨images⟩ (Impact.closure ⟨images⟩ requested) = .ok support ∧
      checkParents ⟨images⟩ ((Impact.closure ⟨images⟩ requested).filter fun name => isDerivedName ⟨images⟩ name) = .ok () ∧
      phases.requested = requested ∧ phases.selected = Impact.closure ⟨images⟩ requested ∧ phases.support = support ∧
      phases.outputs = (images.map (·.name)).filter
        (fun name => (Impact.closure ⟨images⟩ requested).contains name || support.contains name) ∧
      phases.roots = phases.outputs.filter (fun name => !isDerivedName ⟨images⟩ name) ∧
      phases.derived = phases.selected.filter fun name => isDerivedName ⟨images⟩ name := by
  intro planned
  unfold phasesOf at planned
  obtain ⟨support, walked, planned⟩ := then_ok.mp planned
  obtain ⟨_, checked, planned⟩ := then_ok.mp planned
  cases planned
  exact ⟨support, walked, checked, rfl, rfl, rfl, rfl, rfl, rfl⟩

/-- The phases of a request are what they are for. -/
theorem phasesOf_builds (sound : Sound images) (known : requested ⊆ images.map (·.name))
    (planned : phasesOf ⟨images⟩ requested = .ok phases) :
    Builds images phases := by
  obtain ⟨support, walked, checked, asked, selected, supported, outputs, roots, derived⟩ := phasesOf_ok planned
  have within : Impact.closure ⟨images⟩ requested ⊆ images.map (·.name) := fun name member => (mem_closure.mp member).1
  obtain ⟨again, walkedAgain, ancestors⟩ := supportAncestors_ends sound within
  obtain rfl : again = support := Except.ok.inj (walkedAgain.symm.trans walked)
  have plain := checkParents_plain sound checked
  -- an ancestor of a selected image is its parent: nothing stands above that
  have above : ∀ name, ∀ one ∈ Impact.closure ⟨images⟩ requested, TransGen (DerivedFrom images) name one →
      ∀ parent, ¬ DerivedFrom images parent name := by
    intro name one chosen reaches parent edge
    obtain ⟨last, back, ends⟩ := TransGen.tail'_iff.mp reaches
    have top := plain one (List.mem_filter.mpr ⟨chosen, (isDerivedName_iff sound).mpr ⟨last, ends⟩⟩) last ends
    rcases ReflTransGen.cases_tail back with rfl | ⟨before, _, further⟩
    · exact top parent edge
    · exact top before further
  have put : ∀ name, name ∈ phases.outputs ↔
      name ∈ Impact.closure ⟨images⟩ requested ∨ ∃ one ∈ Impact.closure ⟨images⟩ requested, TransGen (DerivedFrom images) name one := by
    intro name
    rw [outputs, List.mem_filter, Bool.or_eq_true, List.contains_iff_mem, List.contains_iff_mem, ancestors]
    by_cases chosen : name ∈ Impact.closure ⟨images⟩ requested
    · simp [chosen, within chosen]
    · constructor
      · rintro ⟨_, impossible | ⟨_, _, reaches⟩⟩
        · exact absurd impossible chosen
        · exact .inr reaches
      · rintro (impossible | ⟨one, member, reaches⟩)
        · exact absurd impossible chosen
        · have listed := ancestor_listed sound reaches
          exact ⟨listed, .inr ⟨listed, chosen, one, member, reaches⟩⟩
  have once : phases.outputs.Nodup := outputs ▸ sound.distinct.filter _
  have onceSelected : (Impact.closure ⟨images⟩ requested).Nodup := sound.distinct.filter _
  refine ⟨?_, selected ▸ put, once, ?_, ?_, ?_⟩
  · intro name
    rw [selected, asked, mem_closure]
    constructor
    · exact fun chosen => chosen.2
    · exact fun chosen => ⟨chosen.elim fun start ⟨member, reaches⟩ => derived_listed (known member) reaches, chosen⟩
  · rw [roots, derived, selected]
    apply List.Perm.trans _ (List.filter_append_perm (fun name => !isDerivedName ⟨images⟩ name) phases.outputs)
    apply List.Perm.append_left
    apply (List.perm_ext_iff_of_nodup (onceSelected.filter _) (once.filter _)).mpr
    intro name
    rw [List.mem_filter, List.mem_filter, put, Bool.not_not]
    constructor
    · exact fun chosen => ⟨.inl chosen.1, chosen.2⟩
    · rintro ⟨chosen | ⟨one, member, reaches⟩, isDerived⟩
      · exact ⟨chosen, isDerived⟩
      · obtain ⟨parent, edge⟩ := (isDerivedName_iff sound).mp isDerived
        exact absurd edge (above name one member reaches parent)
  · intro child member
    rw [derived, selected] at member
    obtain ⟨chosen, isDerived⟩ := List.mem_filter.mp member
    obtain ⟨parent, edge⟩ := (isDerivedName_iff sound).mp isDerived
    refine ⟨parent, ?_, edge⟩
    rw [roots, List.mem_filter, put]
    refine ⟨.inr ⟨child, chosen, .single edge⟩, ?_⟩
    rw [Bool.not_eq_true', Bool.eq_false_iff, Ne, isDerivedName_iff sound]
    exact fun ⟨before, above⟩ => plain child (List.mem_filter.mpr ⟨chosen, isDerived⟩) parent edge before above
  · intro root member parent edge
    rw [roots] at member
    have plainRoot := (List.mem_filter.mp member).2
    rw [(isDerivedName_iff sound).mpr ⟨parent, edge⟩] at plainRoot
    cases plainRoot

end Phasing

section Ends

/-- A request is answered or refused: no walk goes on for ever. -/
def Ends {Value : Type} (result : Except PlanRefusal Value) : Prop := result ≠ .error .exhausted

variable {Value Other Item : Type} {first : Except PlanRefusal Value} {next : Value → Except PlanRefusal Other}

theorem Ends.ok {value : Value} : Ends (.ok value) := fun impossible => by cases impossible

theorem Ends.refused {message : JsString} : Ends (.error (.refused message) : Except PlanRefusal Value) :=
  fun impossible => by cases impossible

theorem Ends.refuseWhen {wrong : Bool} {message : JsString} : Ends (refuseWhen wrong message) := by
  unfold Impact.refuseWhen
  split
  · exact .refused
  · exact .ok

theorem Ends.mapError {first : Except JsString Value} : Ends (first.mapError PlanRefusal.refused) := by
  cases first with
  | error message => exact .refused
  | ok value => exact .ok

theorem Ends.bind (ends : Ends first) (later : ∀ value, first = .ok value → Ends (next value)) : Ends (first >>= next) := by
  cases first with
  | error refusal => exact fun same => ends (congrArg Except.error (Except.error.inj same))
  | ok value => exact later value rfl

theorem Ends.map {convert : Value → Other} (ends : Ends first) : Ends (first.map convert) := by
  cases first with
  | error refusal => exact fun same => ends (congrArg Except.error (Except.error.inj same))
  | ok value => exact .ok

theorem Ends.mapM {step : Item → Except PlanRefusal Value} {items : List Item} (ends : ∀ item ∈ items, Ends (step item)) :
    Ends (items.mapM step) := by
  induction items with
  | nil => exact .ok
  | cons item rest ih =>
    rw [List.mapM_cons]
    apply (ends item List.mem_cons_self).bind
    intro value _
    apply (ih fun other later => ends other (List.mem_cons_of_mem item later)).bind
    exact fun values _ => .ok

/-- A pass that keeps each name beside what it makes of it keeps the names. -/
theorem mapM_names {step : JsString → Except PlanRefusal (JsString × Value)} {names : List JsString} {made : List (JsString × Value)}
    (mapped : names.mapM step = .ok made) (keeps : ∀ name result, step name = .ok result → result.1 = name) :
    made.map Prod.fst = names := by
  have paired := mapM_ok.mp mapped
  clear mapped
  induction paired with
  | nil => rfl
  | cons passed _ ih => rw [List.map_cons, keeps _ _ passed, ih]

end Ends

section Planning

variable {images : List LockImage} {requested names : List JsString} {selectionMode root cacheBackend name : JsString}
  {out : Option JsString} {paths : PathFunctions} {load : JsString → Except JsString ImageLock} {lock : ImageLock} {plan : BuildPlan}

theorem requestedNames_known (asked : requestedNames ⟨images⟩ selectionMode requested = .ok names) : names ⊆ images.map (·.name) ∧
    (selectionMode = units "selected" → ∀ name, name ∈ names ↔ name ∈ requested) ∧
      (selectionMode = units "all" → names = images.map (·.name)) := by
  unfold requestedNames at asked
  split at asked
  next all =>
    cases asked
    exact ⟨fun _ member => member, fun selected => absurd (all.symm.trans selected) (by decide), fun _ => rfl⟩
  next some =>
  split at asked
  · split at asked
    · cases asked
    split at asked
    · cases asked
    next known =>
      cases asked
      refine ⟨fun _ member => (List.mem_filter.mp member).1, fun _ name => ?_, fun all => absurd all some⟩
      rw [List.mem_filter, List.contains_iff_mem]
      refine ⟨And.right, fun member => ⟨?_, member⟩⟩
      simpa using List.find?_eq_none.mp known name member
  · cases asked

theorem requestedNames_ends : Ends (requestedNames ⟨images⟩ selectionMode requested) := by
  unfold requestedNames
  split
  · exact .ok
  split
  · split
    · exact .refused
    split
    · exact .refused
    · exact .ok
  · exact .refused

theorem phasesOf_ends (sound : Sound images) : Ends (phasesOf ⟨images⟩ requested) := by
  obtain ⟨support, walked, _⟩ := supportAncestors_ends sound fun name member => ((@mem_closure name images requested).mp member).1
  unfold phasesOf
  apply Ends.bind
  · rw [walked]
    exact .ok
  intro support _
  apply Ends.bind
  · unfold checkParents
    split
    · exact .refused
    · exact .ok
  · exact fun _ _ => .ok

theorem targetFor_ends {absoluteOut : JsString} {image : LockImage} {parentContext : Option JsString} :
    Ends (targetFor paths root absoluteOut cacheBackend image parentContext) := by
  unfold targetFor
  apply Ends.refuseWhen.bind
  intro _ _
  apply Ends.refuseWhen.bind
  exact fun _ _ => .ok

theorem rootTarget_ends (sound : Sound images) {absoluteOut : JsString} (listed : name ∈ images.map (·.name)) :
    Ends (rootTarget paths ⟨images⟩ root absoluteOut cacheBackend name) := by
  obtain ⟨image, there, rfl⟩ := List.mem_map.mp listed
  unfold rootTarget
  rw [byName_found sound.distinct there]
  exact targetFor_ends.map

theorem derivedTarget_ends (sound : Sound images) {absoluteOut parent : JsString} (derived : DerivedFrom images parent name) :
    Ends (derivedTarget paths ⟨images⟩ root absoluteOut cacheBackend name) := by
  obtain ⟨above, _, isParent, _⟩ := parentOf_found sound derived
  obtain ⟨image, there, _, _, rfl⟩ := derived
  unfold derivedTarget
  rw [byName_found sound.distinct there, isParent]
  apply Ends.refuseWhen.bind
  intro _ _
  apply targetFor_ends.bind
  exact fun _ _ => .ok

theorem rootTarget_name {graph : ImageGraph} {absoluteOut : JsString} {result : JsString × BakeTarget}
    (made : rootTarget paths graph root absoluteOut cacheBackend name = .ok result) : result.1 = name := by
  unfold rootTarget at made
  split at made
  · cases made
  · obtain ⟨target, _, rfl⟩ := map_ok.mp made
    rfl

theorem derivedTarget_name {graph : ImageGraph} {absoluteOut : JsString} {result : JsString × BakeTarget}
    (made : derivedTarget paths graph root absoluteOut cacheBackend name = .ok result) : result.1 = name := by
  unfold derivedTarget at made
  split at made
  · obtain ⟨_, _, made⟩ := then_ok.mp made
    obtain ⟨target, _, made⟩ := then_ok.mp made
    cases made
    rfl
  · cases made

/-- What a plan was made of. -/
theorem createBuildPlan_ok (loaded : load (paths.resolve [root]) = .ok lock)
    (accepted : createBuildPlan paths load root out selectionMode requested cacheBackend = .ok plan) :
    Sound lock.images ∧ requestedNames ⟨lock.images⟩ selectionMode requested = .ok plan.phases.requested ∧
      phasesOf ⟨lock.images⟩ plan.phases.requested = .ok plan.phases ∧
        plan.rootTargets.map Prod.fst = plan.phases.roots ∧ plan.derivedTargets.map Prod.fst = plan.phases.derived := by
  unfold createBuildPlan at accepted
  obtain ⟨_, _, accepted⟩ := then_ok.mp accepted
  obtain ⟨_, _, accepted⟩ := then_ok.mp accepted
  obtain ⟨again, read, accepted⟩ := then_ok.mp accepted
  obtain ⟨graph, linked, accepted⟩ := then_ok.mp accepted
  obtain ⟨names, asked, accepted⟩ := then_ok.mp accepted
  obtain ⟨phases, planned, accepted⟩ := then_ok.mp accepted
  obtain ⟨roots, rooted, accepted⟩ := then_ok.mp accepted
  obtain ⟨derived, built, accepted⟩ := then_ok.mp accepted
  cases accepted
  obtain rfl : again = lock := Except.ok.inj ((mapError_ok.mp read).symm.trans loaded)
  have linked := mapError_ok.mp linked
  obtain rfl := graphFromLock_same linked
  obtain ⟨_, _, _, same, _⟩ := phasesOf_ok planned
  refine ⟨graphFromLock_ok.mp ⟨_, linked⟩, same ▸ asked, same ▸ planned, ?_, ?_⟩
  · exact mapM_names rooted fun _ _ => rootTarget_name
  · exact mapM_names built fun _ _ => derivedTarget_name

/-- A plan is always refused or made. -/
theorem createBuildPlan_ends : Ends (createBuildPlan paths load root out selectionMode requested cacheBackend) := by
  unfold createBuildPlan
  apply Ends.refuseWhen.bind
  intro _ _
  apply Ends.refuseWhen.bind
  intro _ _
  apply Ends.mapError.bind
  intro lock _
  apply Ends.mapError.bind
  intro graph linked
  have linked := mapError_ok.mp linked
  obtain rfl := graphFromLock_same linked
  have sound := graphFromLock_ok.mp ⟨_, linked⟩
  apply requestedNames_ends.bind
  intro names asked
  apply (phasesOf_ends sound).bind
  intro phases planned
  have builds := phasesOf_builds sound (requestedNames_known asked).1 planned
  obtain ⟨_, _, _, _, _, _, outputs, roots, _⟩ := phasesOf_ok planned
  apply (Ends.mapM _).bind
  · intro rooted _
    apply (Ends.mapM _).bind
    · exact fun _ _ => .ok
    · intro child member
      obtain ⟨parent, _, edge⟩ := builds.earlier child member
      exact derivedTarget_ends sound edge
  · intro name member
    apply rootTarget_ends sound
    rw [roots, outputs] at member
    exact (List.mem_filter.mp (List.mem_filter.mp member).1).1

theorem closure_again {direct : List JsString} :
    Impact.closure ⟨images⟩ (Impact.closure ⟨images⟩ direct) = Impact.closure ⟨images⟩ direct := by
  have same : ∀ name, name ∈ Impact.closure ⟨images⟩ (Impact.closure ⟨images⟩ direct) ↔ name ∈ Impact.closure ⟨images⟩ direct := by
    intro name
    rw [mem_closure]
    constructor
    · rintro ⟨listed, start, chosen, reaches⟩
      obtain ⟨_, before, member, further⟩ := mem_closure.mp chosen
      exact mem_closure.mpr ⟨listed, before, member, further.trans reaches⟩
    · exact fun chosen => ⟨(mem_closure.mp chosen).1, name, chosen, .refl⟩
  apply List.filter_congr
  intro name listed
  have found := same name
  unfold Impact.closure at found ⊢
  rw [List.mem_filter, List.mem_filter, and_iff_right listed, and_iff_right listed] at found
  exact Bool.eq_iff_iff.mpr found

/-- Asked for what is affected, a plan asks for exactly that. -/
theorem requestedNames_affected {direct : List JsString} (impacted : Impact.closure ⟨images⟩ direct ≠ []) :
    requestedNames ⟨images⟩ (units "selected") (Impact.closure ⟨images⟩ direct) = .ok (Impact.closure ⟨images⟩ direct) := by
  have known : (Impact.closure ⟨images⟩ direct).find? (fun name => !(images.map (·.name)).contains name) = none := by
    apply List.find?_eq_none.mpr
    intro name member
    simpa using (mem_closure.mp member).1
  have kept : (images.map (·.name)).filter ((Impact.closure ⟨images⟩ direct).contains ·) = Impact.closure ⟨images⟩ direct := by
    apply List.filter_congr
    intro name listed
    rw [Bool.eq_iff_iff, List.contains_iff_mem, Impact.closure, List.mem_filter]
    exact and_iff_right listed
  unfold requestedNames
  rw [if_neg (by decide), if_pos rfl, if_neg impacted]
  dsimp only [ImageGraph.ordered]
  rw [known]
  exact congrArg Except.ok kept

/-- No parent is derived itself, as the lock's other validator has it. -/
def Shallow (images : List LockImage) : Prop :=
  ∀ child parent, DerivedFrom images parent child → ∀ before, ¬ DerivedFrom images before parent

theorem phasesOf_shallow (sound : Sound images) (shallow : Shallow images) : ∃ phases, phasesOf ⟨images⟩ requested = .ok phases := by
  obtain ⟨support, walked, _⟩ := supportAncestors_ends sound fun name member => ((@mem_closure name images requested).mp member).1
  have checked : checkParents ⟨images⟩ ((Impact.closure ⟨images⟩ requested).filter fun name => isDerivedName ⟨images⟩ name) = .ok () := by
    unfold checkParents
    split
    next name found =>
      have member := List.mem_of_find?_eq_some found
      obtain ⟨parent, edge⟩ := (isDerivedName_iff sound).mp (List.mem_filter.mp member).2
      obtain ⟨above, there, isParent, rfl⟩ := parentOf_found sound edge
      have deep := List.find?_some found
      rw [isParent, Option.any_some] at deep
      obtain ⟨before, named, _⟩ := sound.known above there deep
      exact absurd ⟨above, there, deep, named, rfl⟩ (shallow name above.name edge before)
    · rfl
  unfold phasesOf
  dsimp only
  rw [walked]
  exact ⟨_, then_ok.mpr ⟨support, rfl, then_ok.mpr ⟨(), checked, rfl⟩⟩⟩

/-- A base and a runner derived of it, neither built before. -/
def lineage : ImageLock where
  keys := ["version", "images"]
  version := "1"
  images :=
    [{ keys := rootKeys, name := units "base", lineage := "runner-base", definition := units "base/Dockerfile", platforms := ["linux/amd64"]
       digest := SENTINEL, manifests := [("linux/amd64", SENTINEL)]
       externalBase := some [("reference", units "debian"), ("digest", SENTINEL)]
       parent := none, parentDigest := none, runtime := none },
     { keys := (expectedKeys "runner-derived").getD [], name := units "runner", lineage := "runner-derived"
       definition := units "runner/Dockerfile", platforms := ["linux/amd64"], digest := SENTINEL, manifests := [("linux/amd64", SENTINEL)]
       externalBase := none, parent := some (units "base"), parentDigest := some SENTINEL, runtime := none }]

/-- The path functions, of names without dots. -/
def plainPaths : PathFunctions where
  resolve parts := (units "/").intercalate parts
  join parts := (units "/").intercalate parts
  dirname path := (path.reverse.dropWhile (· ≠ 0x2F)).tail.reverse
  basename path := (path.reverse.takeWhile (· ≠ 0x2F)).reverse

example : (createBuildPlan plainPaths (fun _ => .ok lineage) (units "/repo") (some (units "/out")) (units "selected") [units "runner"]
    (units "none")).toOption.map (fun plan => (plan.phases.roots, plan.phases.derived)) = some ([units "base"], [units "runner"]) := by
  decide +kernel

end Planning

end SecureHome.Proofs.BuildPlan
