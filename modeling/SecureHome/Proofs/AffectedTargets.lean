import SecureHome.Impact.Affected
import Mathlib.Data.List.Nodup

/-! The gates a change runs are those of the owners of the changed files and of all that
depends on them, and no others. -/

namespace SecureHome.Proofs.AffectedTargets
open Lib Impact Relation

section Closure

/-- One member names another in a dependency field. -/
def DependsOn (members : List Member) (one other : JsString) : Prop :=
  (∃ member ∈ members, member.pkg.name = one ∧ other ∈ member.pkg.depends) ∧ ∃ member ∈ members, member.pkg.name = other

/-- No directory of a member that holds the file is longer. -/
structure Owns (members : List Member) (file : JsString) (member : Member) : Prop where
  listed : member ∈ members
  within : holds member.dir file = true
  longest : ∀ other ∈ members, holds other.dir file = true → other.dir.length ≤ member.dir.length

/-- The members a file selects. -/
def Chosen (members : List Member) (file name : JsString) : Prop :=
  (isFanout file = true ∧ ∃ member ∈ members, member.pkg.name = name) ∨
    ∃ member, Owns members file member ∧ ReflTransGen (DependsOn members) name member.pkg.name

/-- The names of the members are distinct and in the scope of the repository. -/
structure Named (repository : Repository) : Prop where
  distinct : ((discovered repository).map (·.pkg.name)).Nodup
  titled : ∀ member ∈ discovered repository, scope.isPrefixOf member.pkg.name = true

/-- A selection is the dependent closure of what changed, as the paths are read. -/
structure Closes (reading : JsString → JsString) (repository : Repository) (files : List JsString) : Prop where
  once : (computeAffected repository files).typescript.Nodup
  exactly : ∀ name, name ∈ (computeAffected repository files).typescript ↔
    ∃ raw ∈ files, Chosen (discovered repository) (reading raw) name
  union : ∀ one other, (∀ raw, raw ∈ files ↔ raw ∈ one ∨ raw ∈ other) → ∀ name, name ∈ (computeAffected repository files).typescript ↔
    name ∈ (computeAffected repository one).typescript ∨ name ∈ (computeAffected repository other).typescript

end Closure

section Members

variable {repository : Repository} {member other : Member}

theorem mem_discovered : member ∈ discovered repository ↔ ∃ glob ∈ globs, ∃ listing, repository.entries glob = some listing ∧
    ∃ entry ∈ listing, memberOf glob entry = some member := by
  simp only [discovered, List.mem_flatMap, List.mem_filterMap]
  constructor
  · rintro ⟨glob, globbed, entry, listed, found⟩
    cases entries : repository.entries glob with
    | none => simp [entries] at listed
    | some listing => exact ⟨glob, globbed, listing, entries, entry, by simpa [entries] using listed, found⟩
  · rintro ⟨glob, globbed, listing, entries, entry, listed, found⟩
    exact ⟨glob, globbed, entry, by simpa [entries] using listed, found⟩

theorem memberOf_dir {glob : JsString} {entry : Entry} (found : memberOf glob entry = some member) :
    member.dir = glob ++ 0x2f :: entry.name := by
  unfold memberOf at found
  split at found
  · cases file : entry.manifest with
    | absent | malformed => simp [file] at found
    | parsed pkg =>
      simp only [file, Option.ite_none_left_eq_some, Option.some.injEq] at found
      rw [← found.2]
  · cases found

/-- No two members are in one directory. -/
theorem eq_of_dir (listed : member ∈ discovered repository) (listed' : other ∈ discovered repository) (same : member.dir = other.dir) :
    member = other := by
  obtain ⟨glob, _, listing, entries, entry, inside, found⟩ := mem_discovered.mp listed
  obtain ⟨glob', _, listing', entries', entry', inside', found'⟩ := mem_discovered.mp listed'
  rw [memberOf_dir found, memberOf_dir found'] at same
  obtain ⟨rfl, named⟩ := last_separated (repository.simple _ _ entries _ inside) (repository.simple _ _ entries' _ inside') same
  obtain rfl : listing = listing' := by
    rw [entries] at entries'
    exact Option.some.inj entries'
  obtain rfl : entry = entry' := List.inj_on_of_nodup_map (repository.distinct _ _ entries) inside inside' named
  rw [found] at found'
  exact Option.some.inj found'

theorem Owns.unique {file : JsString} (owns : Owns (discovered repository) file member) (owns' : Owns (discovered repository) file other) :
    member = other := by
  apply eq_of_dir owns.listed owns'.listed
  have level : member.dir.length = other.dir.length := by
    have := owns.longest other owns'.listed owns'.within
    have := owns'.longest member owns.listed owns.within
    omega
  have prefixed {member : Member} (within : holds member.dir file = true) : member.dir <+: file :=
    (List.prefix_append _ _).trans (List.isPrefixOf_iff_prefix.mp within)
  exact (List.prefix_of_prefix_length_le (prefixed owns.within) (prefixed owns'.within) (by omega)).eq_of_length level

variable (named : Named repository)
include named

theorem targets_eq : discoverTypescriptTargets repository = (discovered repository).map fun member => (member.pkg.name, targetOf member) := by
  have puts : discoverTypescriptTargets repository =
      ((discovered repository).map fun member => (member.pkg.name, targetOf member)).foldl (fun held entry => put held entry.1 entry.2) [] :=
    by rw [List.foldl_map, discoverTypescriptTargets]
  rw [puts, puts_fresh]
  · rfl
  · rw [List.nil_append, List.map_map]
    exact named.distinct

theorem names_eq : (discoverTypescriptTargets repository).map Prod.fst = (discovered repository).map (·.pkg.name) := by
  rw [targets_eq named, List.map_map]
  rfl

theorem mem_names {name : JsString} :
    name ∈ (discoverTypescriptTargets repository).map Prod.fst ↔ ∃ member ∈ discovered repository, member.pkg.name = name := by
  rw [names_eq named, List.mem_map]

theorem lookup_target {name : JsString} {target : Target} : (discoverTypescriptTargets repository).lookup name = some target ↔
    ∃ member ∈ discovered repository, member.pkg.name = name ∧ targetOf member = target := by
  constructor
  · intro found
    have listed := mem_of_lookup found
    rw [targets_eq named, List.mem_map] at listed
    obtain ⟨member, listed, same⟩ := listed
    exact ⟨member, listed, congrArg Prod.fst same, congrArg Prod.snd same⟩
  · rintro ⟨member, listed, rfl, rfl⟩
    apply lookup_of_mem
    · rw [names_eq named]
      exact named.distinct
    · rw [targets_eq named]
      exact List.mem_map_of_mem listed

/-- The edges a search follows lead from members to what they name. -/
theorem mem_dependentsOf {name : JsString} (listed : member ∈ discovered repository) :
    name ∈ dependentsOf (discoverTypescriptTargets repository) member.pkg.name ↔
      TransGen (DependsOn (discovered repository)) name member.pkg.name := by
  rw [dependentsOf, mem_gather]
  have edge {one other : JsString} : Among (fun candidate one => ((discoverTypescriptTargets repository).lookup candidate).any
        fun target => target.deps.contains one) ((discoverTypescriptTargets repository).map Prod.fst) one other ↔
      (∃ member ∈ discovered repository, member.pkg.name = one ∧ other ∈ member.pkg.depends) ∧ scope.isPrefixOf other = true := by
    simp only [Among, mem_names named, Option.any_eq_true, lookup_target named, List.contains_iff_mem]
    constructor
    · rintro ⟨_, target, ⟨member, listed, same, rfl⟩, led⟩
      obtain ⟨led, titled⟩ := List.mem_filter.mp led
      exact ⟨⟨member, listed, same, led⟩, titled⟩
    · rintro ⟨⟨member, listed, same, led⟩, titled⟩
      exact ⟨⟨member, listed, same⟩, targetOf member, ⟨member, listed, same, rfl⟩, List.mem_filter.mpr ⟨led, titled⟩⟩
  constructor
  · intro reaches
    induction reaches using TransGen.head_induction_on with
    | single led => exact .single ⟨(edge.mp led).1, member, listed, rfl⟩
    | head led later ih =>
      apply TransGen.head _ ih
      obtain ⟨_, next, _⟩ := TransGen.head'_iff.mp later
      obtain ⟨known, knows, same, _⟩ := (edge.mp next).1
      exact ⟨(edge.mp led).1, known, knows, same⟩
  · intro reaches
    apply TransGen.mono _ _ _ reaches
    rintro one other ⟨led, known, knows, rfl⟩
    exact edge.mpr ⟨led, named.titled known knows⟩

end Members

section Owners

variable {file : JsString} {targets : List (JsString × Target)}

/-- What a scan of the targets has chosen as the owner of a file. -/
def Leads (file : JsString) (seen : List (JsString × Target)) : Option Target → Prop
  | none => ∀ entry ∈ seen, holds entry.2.dir file = false
  | some best => (∃ name, (name, best) ∈ seen) ∧ holds best.dir file = true ∧
      ∀ entry ∈ seen, holds entry.2.dir file = true → entry.2.dir.length ≤ best.dir.length

theorem owner_leads : Leads file targets (owner targets file) := by
  unfold owner
  induction targets using List.reverseRecOn with
  | nil => exact fun _ impossible => absurd impossible List.not_mem_nil
  | append_singleton seen entry ih =>
    obtain ⟨name, target⟩ := entry
    rw [List.foldl_append, List.foldl_cons, List.foldl_nil]
    generalize seen.foldl _ none = best at ih ⊢
    cases best with
    | none =>
      dsimp only
      split
      next inside =>
        refine ⟨⟨name, by simp⟩, inside, ?_⟩
        intro entry listed holds
        rcases List.mem_append.mp listed with earlier | last
        · exact absurd holds (by simp [ih entry earlier])
        · rw [List.mem_singleton.mp last]
      next outside =>
        intro entry listed
        rcases List.mem_append.mp listed with earlier | last
        · exact ih entry earlier
        · simpa [List.mem_singleton.mp last] using outside
    | some held =>
      obtain ⟨⟨known, listed⟩, inside, longest⟩ := ih
      dsimp only
      split
      next longer =>
        rw [Bool.and_eq_true, decide_eq_true_eq] at longer
        refine ⟨⟨name, by simp⟩, longer.1, ?_⟩
        intro entry listed holds
        rcases List.mem_append.mp listed with earlier | last
        · have := longest entry earlier holds
          omega
        · rw [List.mem_singleton.mp last]
      next shorter =>
        rw [Bool.and_eq_true, decide_eq_true_eq] at shorter
        refine ⟨⟨known, List.mem_append_left _ listed⟩, inside, ?_⟩
        intro entry listed holds
        rcases List.mem_append.mp listed with earlier | last
        · exact longest entry earlier holds
        · obtain rfl := List.mem_singleton.mp last
          exact Nat.not_lt.mp (not_and.mp shorter holds)

variable {repository : Repository}

/-- The owner the code finds is the owner. -/
theorem owner_iff (named : Named repository) {target : Target} : owner (discoverTypescriptTargets repository) file = some target ↔
    ∃ member, Owns (discovered repository) file member ∧ targetOf member = target := by
  have leads : Leads file (discoverTypescriptTargets repository) (owner (discoverTypescriptTargets repository) file) := owner_leads
  rw [targets_eq named] at leads ⊢
  constructor
  · intro found
    rw [found] at leads
    obtain ⟨⟨name, listed⟩, inside, longest⟩ := leads
    obtain ⟨member, known, same⟩ := List.mem_map.mp listed
    obtain rfl : targetOf member = target := congrArg Prod.snd same
    refine ⟨member, ⟨known, inside, ?_⟩, rfl⟩
    exact fun other listed within => longest _ (List.mem_map_of_mem listed) within
  · rintro ⟨member, owns, rfl⟩
    cases found : owner ((discovered repository).map fun member => (member.pkg.name, targetOf member)) file with
    | none =>
      rw [found] at leads
      have outside : holds member.dir file = false := leads _ (List.mem_map_of_mem owns.listed)
      exact absurd owns.within (by simp [outside])
    | some best =>
      rw [found] at leads
      obtain ⟨⟨name, listed⟩, inside, longest⟩ := leads
      obtain ⟨other, known, same⟩ := List.mem_map.mp listed
      obtain rfl : targetOf other = best := congrArg Prod.snd same
      have again : Owns (discovered repository) file other :=
        ⟨known, inside, fun one listed within => longest _ (List.mem_map_of_mem listed) within⟩
      rw [owns.unique again]

end Owners

section Selection

variable {repository : Repository} {state : Selecting} {name : JsString}

theorem mem_add {selected : List JsString} {other : JsString} : name ∈ add selected other ↔ name ∈ selected ∨ name = other := by
  unfold add
  split
  next member =>
    constructor
    · exact .inl
    · rintro (old | rfl)
      · exact old
      · exact member
  next fresh => simp

theorem add_nodup {selected : List JsString} (distinct : selected.Nodup) : (add selected name).Nodup := by
  unfold add
  split
  next member => exact distinct
  next fresh => exact distinct.append (List.nodup_singleton _) (by simpa using fresh)

/-- A step keeps what is selected without repetition, and selects what it is to select beside it. -/
structure Selects (before after : List JsString) (chosen : JsString → Prop) : Prop where
  once : before.Nodup → after.Nodup
  exactly : ∀ name, name ∈ after ↔ name ∈ before ∨ chosen name

theorem Selects.refl (selected : List JsString) : Selects selected selected fun _ => False := ⟨id, by simp⟩

theorem Selects.trans {before between after : List JsString} {one other : JsString → Prop} (first : Selects before between one)
    (second : Selects between after other) : Selects before after fun name => one name ∨ other name :=
  ⟨second.once ∘ first.once, fun name => by rw [second.exactly, first.exactly, or_assoc]⟩

theorem Selects.of_iff {before after : List JsString} {one other : JsString → Prop} (selects : Selects before after one)
    (same : ∀ name, one name ↔ other name) : Selects before after other :=
  ⟨selects.once, fun name => by rw [selects.exactly, same]⟩

theorem add_selects (selected : List JsString) (added : JsString) : Selects selected (add selected added) (· = added) :=
  ⟨add_nodup, fun _ => mem_add⟩

/-- What each step of a loop selects, the whole loop does. -/
theorem foldl_selects {Item State : Type} {step : State → Item → State} {chosen : Item → JsString → Prop} (selected : State → List JsString)
    (each : ∀ state item, Selects (selected state) (selected (step state item)) (chosen item)) (items : List Item) (state : State) :
    Selects (selected state) (selected (items.foldl step state)) fun name => ∃ item ∈ items, chosen item name := by
  induction items generalizing state with
  | nil => exact (Selects.refl _).of_iff (by simp)
  | cons first rest ih =>
    apply ((each state first).trans (ih (step state first))).of_iff
    simp

theorem addFanout_selects (targets : List (JsString × Target)) (file : JsString) (state : Selecting) :
    Selects state.selected (addFanout targets file state).selected fun name => isFanout file = true ∧ name ∈ targets.map Prod.fst := by
  unfold addFanout
  split
  next fanned =>
    apply (foldl_selects id add_selects (targets.map Prod.fst) state.selected).of_iff
    simp [fanned]
  next kept =>
    apply (Selects.refl _).of_iff
    simp [kept]

theorem addPython_selected {file : JsString} : (addPython repository file state).selected = state.selected := by
  unfold addPython
  split <;> split <;> rfl

theorem addOwner_selects (named : Named repository) (file : JsString) (state : Selecting) :
    Selects state.selected (addOwner (discoverTypescriptTargets repository) file state).selected fun name =>
      ∃ member, Owns (discovered repository) file member ∧ ReflTransGen (DependsOn (discovered repository)) name member.pkg.name := by
  unfold addOwner
  cases found : owner (discoverTypescriptTargets repository) file with
  | none =>
    apply (Selects.refl _).of_iff
    intro name
    refine ⟨False.elim, ?_⟩
    rintro ⟨member, owns, _⟩
    rw [(owner_iff named).mpr ⟨member, owns, rfl⟩] at found
    cases found
  | some best =>
    obtain ⟨member, owns, rfl⟩ := (owner_iff named).mp found
    have each (state : Selecting) (dep : JsString) : Selects state.selected (addDependent member.pkg.name state dep).selected (· = dep) :=
      add_selects _ _
    refine ((add_selects state.selected member.pkg.name).trans
      (foldl_selects Selecting.selected each _ { state with selected := add state.selected member.pkg.name, reason := _ })).of_iff ?_
    intro name
    constructor
    · rintro (rfl | ⟨dep, reached, rfl⟩)
      · exact ⟨member, owns, .refl⟩
      · exact ⟨member, owns, ((mem_dependentsOf named owns.listed).mp reached).to_reflTransGen⟩
    · rintro ⟨other, owns', reaches⟩
      obtain rfl := owns.unique owns'
      rcases Relation.reflTransGen_iff_eq_or_transGen.mp reaches with same | reaches
      · exact .inl same.symm
      · exact .inr ⟨name, (mem_dependentsOf named owns.listed).mpr reaches, rfl⟩

/-- A changed file selects what the closure of its owner has. -/
theorem consider_selects (named : Named repository) (state : Selecting) (raw : JsString) :
    Selects state.selected (consider repository (discoverTypescriptTargets repository) state raw).selected
      (Chosen (discovered repository) (fileOf raw)) := by
  unfold consider
  dsimp only
  split
  next empty =>
    apply (Selects.refl _).of_iff
    intro name
    refine ⟨False.elim, ?_⟩
    rw [empty]
    rintro (⟨fanned, _⟩ | ⟨member, owns, _⟩)
    · exact absurd fanned (by decide)
    · exact absurd owns.within (by simp [holds])
  next =>
    have fanned := addFanout_selects (discoverTypescriptTargets repository) (fileOf raw) state
    have owned := addOwner_selects named (fileOf raw)
      (addPython repository (fileOf raw) (addFanout (discoverTypescriptTargets repository) (fileOf raw) state))
    rw [addPython_selected] at owned
    apply (fanned.trans owned).of_iff
    simp only [Chosen, mem_names named, implies_true]

/-- Every change selects the dependent closure of the paths as they are read. -/
theorem computeAffected_selects (named : Named repository) (files : List JsString) :
    (computeAffected repository files).typescript.Nodup ∧ ∀ name, name ∈ (computeAffected repository files).typescript ↔
      ∃ raw ∈ files, Chosen (discovered repository) (fileOf raw) name := by
  have selects := foldl_selects Selecting.selected (consider_selects named) files ⟨[], false, ⟨[], [], []⟩⟩
  have moved : (computeAffected repository files).typescript.Perm
      (files.foldl (consider repository (discoverTypescriptTargets repository)) ⟨[], false, ⟨[], [], []⟩⟩).selected := List.mergeSort_perm _ _
  constructor
  · exact moved.nodup_iff.mpr (selects.once List.nodup_nil)
  · intro name
    rw [moved.mem_iff, selects.exactly]
    simp

end Selection

section Closure

/-- Whatever changes, the selection is the dependent closure of it. A path is read trimmed and without one leading `./`. -/
theorem affected_closure (repository : Repository) (named : Named repository) (files : List JsString) : Closes fileOf repository files := by
  constructor
  · exact (computeAffected_selects named files).1
  · exact (computeAffected_selects named files).2
  · intro one other both name
    rw [(computeAffected_selects named files).2, (computeAffected_selects named one).2, (computeAffected_selects named other).2]
    simp only [both, or_and_right, exists_or]

def onePackage : Manifest := ⟨units "@secure-home/contracts", [], [], [], []⟩

/-- A repository of one package. -/
def oneMember : Repository where
  entries glob := if glob = units "packages" then some [⟨units "contracts", true, .parsed onePackage⟩] else none
  pythonMembers := []
  distinct glob listing entries := by
    obtain ⟨_, same⟩ := Option.ite_none_right_eq_some.mp entries
    cases same
    exact List.nodup_singleton _
  simple glob listing entries := by
    obtain ⟨_, same⟩ := Option.ite_none_right_eq_some.mp entries
    cases same
    decide

theorem oneMember_discovered : discovered oneMember = [⟨units "packages/contracts", onePackage⟩] := by decide +kernel

theorem oneMember_named : Named oneMember := by
  constructor
  · rw [oneMember_discovered]
    exact List.nodup_singleton _
  · rw [oneMember_discovered]
    decide

theorem affected_closure_one : Closes fileOf oneMember [units "./packages/contracts/index.ts"] :=
  affected_closure oneMember oneMember_named _

/-- A file whose name only starts with a blank is taken for the root configuration. -/
theorem blank_path_fans_out : ¬ ∀ repository, Named repository → ∀ files, Closes id repository files := by
  intro closes
  have closed := (closes oneMember oneMember_named [units " package.json"]).exactly (units "@secure-home/contracts")
  have selected : units "@secure-home/contracts" ∈ (computeAffected oneMember [units " package.json"]).typescript := by decide +kernel
  obtain ⟨raw, listed, chosen⟩ := closed.mp selected
  obtain rfl := List.mem_singleton.mp listed
  rcases chosen with ⟨fanned, _⟩ | ⟨member, owns, _⟩
  · exact absurd fanned (by decide +kernel)
  · have listed := owns.listed
    rw [oneMember_discovered] at listed
    obtain rfl := List.mem_singleton.mp listed
    exact absurd owns.within (by decide +kernel)

end Closure

end SecureHome.Proofs.AffectedTargets
