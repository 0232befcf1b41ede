import SecureHome.Lib.Search
import SecureHome.Lib.Strands
import SecureHome.Proofs.GovernanceHistory
import SecureHome.Proofs.ValidState

/-! The graph of governance nodes: what replaces what, and what requires what. -/

namespace SecureHome.Governance
open Lib Relation

section Links

variable {Context : Type} {checks : OtherChecks Context} {nodes entries : List (JsString × Value)} {replacedBy : List (JsString × JsString)}
  {id target : JsString}

/-- The node that a node replaces. -/
def targetIn (nodes : List (JsString × Value)) (id : JsString) : Option JsString := (nodes.lookup id).bind named

/-- Every node replaces nothing, or names what it replaces. -/
def Names (nodes : List (JsString × Value)) : Prop := ∀ entry ∈ nodes, read entry.2 "replaces" = some .null ∨ ∃ target, named entry.2 = some target

theorem named_null {node : Value} (null : read node "replaces" = some .null) : named node = none := by
  unfold named textAt
  rw [null]

/-- What a link has been checked for. -/
structure Linked (checks : OtherChecks Context) (nodes : List (JsString × Value)) (entry : JsString × Value) (target : JsString) : Prop where
  held : ∃ old, nodes.lookup target = some old ∧ linkProblems checks entry.1 entry.2 old = []

theorem linkNodes_linked (names : Names entries) (linked : (linkNodes checks nodes entries replacedBy).1 = []) :
    ∀ entry ∈ entries, ∀ target, named entry.2 = some target → Linked checks nodes entry target := by
  induction entries generalizing replacedBy with
  | nil => exact fun _ member => absurd member List.not_mem_nil
  | cons entry rest ih =>
    obtain ⟨id, node⟩ := entry
    obtain ⟨here, later⟩ := List.forall_mem_cons.mp names
    rw [linkNodes] at linked
    split at linked
    next empty =>
      refine List.forall_mem_cons.mpr ⟨?_, ih later linked⟩
      intro target name
      rcases here with null | ⟨other, name'⟩
      · cases (named_null null).symm.trans name
      · unfold isNull at empty
        rw [textAt_iff.mp name'] at empty
        cases empty
    next =>
    split at linked
    · cases linked
    next target oldNode found =>
      obtain ⟨name, here, kept⟩ := Option.bind_eq_some_iff.mp found
      obtain ⟨_, held, same⟩ := Option.map_eq_some_iff.mp kept
      obtain ⟨rfl, rfl⟩ := Prod.mk.inj same
      obtain ⟨problems, more⟩ := List.append_eq_nil_iff.mp linked
      refine List.forall_mem_cons.mpr ⟨?_, ih later more⟩
      intro other name'
      cases here.symm.trans name'
      exact ⟨_, held, (List.append_eq_nil_iff.mp problems).2⟩

/-- Links to targets of their own, each checked, are refused for nothing. -/
theorem linkNodes_quiet (names : Names entries)
    (each : ∀ entry ∈ entries, ∀ target, named entry.2 = some target → Linked checks nodes entry target)
    (free : ∀ entry ∈ entries, ∀ target, named entry.2 = some target → replacedBy.lookup target = none)
    (apart : entries.Pairwise fun one other => ∀ target, named one.2 = some target → named other.2 ≠ some target) :
    (linkNodes checks nodes entries replacedBy).1 = [] := by
  induction entries generalizing replacedBy with
  | nil => rfl
  | cons entry rest ih =>
    obtain ⟨id, node⟩ := entry
    obtain ⟨here, later⟩ := List.forall_mem_cons.mp names
    obtain ⟨linked, others⟩ := List.forall_mem_cons.mp each
    obtain ⟨fresh, unnamed⟩ := List.forall_mem_cons.mp free
    obtain ⟨alone, apart⟩ := List.pairwise_cons.mp apart
    rw [linkNodes]
    rcases here with null | ⟨target, name⟩
    · rw [if_pos (by rw [null]; rfl)]
      exact ih later others unnamed apart
    · obtain ⟨old, held, quiet⟩ := (linked target name).held
      rw [if_neg (by rw [textAt_iff.mp name]; exact Bool.false_ne_true), show textAt node "replaces" = some target from name, Option.bind_some,
        held, Option.map_some]
      dsimp only
      refine List.append_eq_nil_iff.mpr ⟨List.append_eq_nil_iff.mpr ⟨?_, quiet⟩, ih later others ?_ apart⟩
      · rw [refuse_nil, fresh target name]
        rfl
      · intro entry member other name'
        rw [lookup_put, if_neg]
        · exact unnamed entry member other name'
        · intro same
          exact alone entry member target name (beq_iff_eq.mp same ▸ name')

/-- Whoever is linked to a target is the one that names it. -/
theorem linkNodes_lookup (names : Names entries) (linked : (linkNodes checks nodes entries replacedBy).1 = []) :
    (linkNodes checks nodes entries replacedBy).2.lookup target = some id ↔
      (∃ node, (id, node) ∈ entries ∧ named node = some target) ∨ replacedBy.lookup target = some id := by
  induction entries generalizing replacedBy with
  | nil => simp [linkNodes]
  | cons entry rest ih =>
    have single := linkNodes_single linked
    obtain ⟨other, node⟩ := entry
    obtain ⟨here, later⟩ := List.forall_mem_cons.mp names
    rw [linkNodes] at linked ⊢
    split at linked
    next empty =>
      rw [if_pos empty, ih later linked]
      have unnamed : named node = none := by
        rcases here with null | ⟨other, name⟩
        · exact named_null null
        · unfold isNull at empty
          rw [textAt_iff.mp name] at empty
          cases empty
      refine or_congr_left (exists_congr fun given => and_congr_left fun name => ?_)
      rw [List.mem_cons]
      refine (or_iff_right ?_).symm
      intro same
      cases same
      cases unnamed.symm.trans name
    next nonempty =>
    rw [if_neg nonempty]
    split at linked
    · cases linked
    next target' oldNode found =>
      obtain ⟨name, named', kept⟩ := Option.bind_eq_some_iff.mp found
      obtain ⟨_, _, same⟩ := Option.map_eq_some_iff.mp kept
      obtain ⟨rfl, rfl⟩ := Prod.mk.inj same
      have free := single.1 (other, node) List.mem_cons_self name named'
      dsimp only
      rw [ih later (List.append_eq_nil_iff.mp linked).2, lookup_put]
      constructor
      · rintro (⟨given, member, name'⟩ | held)
        · exact .inl ⟨given, List.mem_cons_of_mem _ member, name'⟩
        · split at held
          next same =>
            cases held
            rw [beq_iff_eq.mp same]
            exact .inl ⟨node, List.mem_cons_self, named'⟩
          · exact .inr held
      · rintro (⟨given, member, name'⟩ | held)
        · rcases List.mem_cons.mp member with same | member
          · cases same
            cases named'.symm.trans name'
            right
            rw [if_pos (beq_self_eq_true _)]
          · exact .inl ⟨given, member, name'⟩
        · right
          rw [if_neg]
          · exact held
          · intro same
            rw [beq_iff_eq.mp same, free] at held
            cases held

/-- A walk that meets no cycle comes to an end. -/
theorem meetsCycle_trails {fuel : Nat} {seen : List JsString} {start : Option JsString}
    (stays : ∀ one target, targetIn nodes one = some target → target ∈ nodes.map Prod.fst) (apart : seen.Nodup)
    (among : seen ⊆ nodes.map Prod.fst) (enough : nodes.length < seen.length + fuel)
    (exist : ∀ target, start = some target → target ∈ nodes.map Prod.fst) (quiet : meetsCycle nodes fuel seen start = false) :
    ∃ trail, Trails (targetIn nodes) start trail := by
  induction fuel generalizing seen start with
  | zero =>
    have most := (List.subperm_of_subset apart among).length_le
    rw [List.length_map] at most
    omega
  | succ fuel ih =>
    cases start with
    | none => exact ⟨[], .ended⟩
    | some target =>
      rw [meetsCycle] at quiet
      split at quiet
      · cases quiet
      next fresh =>
        obtain ⟨trail, trails⟩ := ih (List.nodup_cons.mpr ⟨fresh, apart⟩) (List.cons_subset.mpr ⟨exist target rfl, among⟩)
          (by rw [List.length_cons]; omega) (fun other found => stays target other found) quiet
        exact ⟨target :: trail, .step trails⟩

/-- No walk to an end meets a cycle. -/
theorem meetsCycle_quiet {fuel : Nat} {seen trail : List JsString} {start : Option JsString} (trails : Trails (targetIn nodes) start trail)
    (fresh : ∀ id ∈ trail, id ∉ seen) : meetsCycle nodes fuel seen start = false := by
  induction trails generalizing fuel seen with
  | ended => cases fuel <;> rfl
  | @step id rest after ih =>
    cases fuel with
    | zero => rfl
    | succ fuel =>
      rw [meetsCycle, if_neg (fresh id List.mem_cons_self)]
      apply ih
      intro other member again
      rcases List.mem_cons.mp again with rfl | seen
      · exact (List.nodup_cons.mp (Trails.step after).nodup).1 member
      · exact fresh other (List.mem_cons_of_mem _ member) seen

end Links

section Requirements

variable {nodes : List (JsString × Value)} {landings : List Value}

/-- The nodes a node requires, so far as there are such. -/
def prerequisitesOf (nodes : List (JsString × Value)) (id : JsString) : List JsString :=
  (((nodes.lookup id).map requiresOf).getD []).filter fun prerequisite => (nodes.lookup prerequisite).isSome

def cycleProblem (id : JsString) : Problem := ⟨"ADV-G10", landingPath id, units "prerequisite graph contains a cycle"⟩

def asVisit (search : Search JsString) : Visit := ⟨search.visiting, search.visited, search.cycles.map cycleProblem⟩

/-- The visit of prerequisites is a depth first search. -/
theorem visitPrerequisites_explores {fuel : Nat} {search : Search JsString} {id : JsString} :
    visitPrerequisites nodes fuel (asVisit search) id = asVisit (explore (prerequisitesOf nodes) fuel search id) := by
  induction fuel generalizing search id with
  | zero => rfl
  | succ fuel ih =>
    have walk (children : List JsString) (before : Search JsString) :
        children.foldl (visitPrerequisites nodes fuel) (asVisit before) =
          asVisit (children.foldl (explore (prerequisitesOf nodes) fuel) before) := by
      induction children generalizing before with
      | nil => rfl
      | cons child rest walk => rw [List.foldl_cons, List.foldl_cons, ih, walk]
    rw [visitPrerequisites, explore]
    by_cases cycle : id ∈ search.visiting
    · rw [if_pos cycle, if_pos (by exact cycle)]
      simp [asVisit, cycleProblem]
    rw [if_neg cycle, if_neg (by exact cycle)]
    by_cases seen : id ∈ search.visited
    · rw [if_pos seen, if_pos (by exact seen)]
    rw [if_neg seen, if_neg (by exact seen)]
    have inside := walk (prerequisitesOf nodes id) { search with visiting := id :: search.visiting }
    have closes (one other : Visit) (same : one = other) :
        { one with visiting := one.visiting.erase id, visited := id :: one.visited } =
          { other with visiting := other.visiting.erase id, visited := id :: other.visited } := by rw [same]
    refine (closes _ _ inside).trans ?_
    have kept : ((prerequisitesOf nodes id).foldl (explore (prerequisitesOf nodes) fuel)
        { search with visiting := id :: search.visiting }).visiting = id :: search.visiting := foldl_visiting fun _ _ => explore_visiting
    unfold asVisit
    dsimp only
    rw [kept, List.erase_cons_head]

/-- The search over dependents is a breadth first one. -/
theorem closureProblems_surveys {dependents : JsString → List JsString} {replacedBy : List (JsString × JsString)} {fuel : Nat}
    {visited queue : List JsString} : closureProblems dependents replacedBy fuel visited queue =
      survey dependents (fun dependent => refuse (replacedBy.lookup dependent).isNone "ADV-G66" (nodePath dependent "")
        "replacement dependent closure is incomplete") fuel visited queue := by
  induction fuel generalizing visited queue with
  | zero => rfl
  | succ fuel ih =>
    cases queue with
    | nil => rfl
    | cons first rest =>
      rw [closureProblems, survey]
      split
      · exact ih
      · rw [ih]

theorem mem_dependentsOf {prerequisite dependent : JsString} : dependent ∈ dependentsOf nodes landings prerequisite ↔
    nodes.lookup prerequisite ≠ none ∧ ∃ landing ∈ landings, prerequisite ∈ requiresOf landing ∧ textOf (read landing "id") = dependent := by
  unfold dependentsOf
  split
  next held =>
    rw [List.mem_dedup, List.mem_map, Option.isSome_iff_ne_none] at *
    simp [held, and_assoc]
  next missing =>
    apply iff_of_false List.not_mem_nil
    rintro ⟨held, _⟩
    exact missing (Option.isSome_iff_ne_none.mpr held)

/-- There are no more dependents than requirements. -/
theorem pending_dependents (nodes : List (JsString × Value)) (landings : List Value) (known : Finset JsString) (visited : List JsString) :
    pending (dependentsOf nodes landings) known visited ≤ (landings.map fun landing => (requiresOf landing).length).sum := by
  have each (prerequisite : JsString) : (dependentsOf nodes landings prerequisite).length ≤
      (landings.filter fun landing => (requiresOf landing).contains prerequisite).length := by
    unfold dependentsOf
    split
    · exact (List.dedup_sublist _).length_le.trans (List.length_map _).le
    · exact Nat.zero_le _
  unfold pending
  refine (Finset.sum_le_sum fun prerequisite _ => each prerequisite).trans ?_
  generalize known \ visited.toFinset = known
  clear each
  induction landings with
  | nil => simp
  | cons landing rest ih =>
    have first : ∑ prerequisite ∈ known, (if (requiresOf landing).contains prerequisite then 1 else 0) ≤ (requiresOf landing).length := by
      rw [← Finset.card_filter]
      refine (Finset.card_le_card ?_).trans (List.toFinset_card_le (requiresOf landing))
      intro prerequisite member
      simpa using (Finset.mem_filter.mp member).2
    rw [List.map_cons, List.sum_cons]
    refine le_trans (le_of_eq ?_) (Nat.add_le_add first ih)
    rw [← Finset.sum_add_distrib]
    refine Finset.sum_congr rfl fun prerequisite _ => ?_
    rw [List.filter_cons]
    split <;> simp [Nat.add_comm]

end Requirements

section Derivations

variable {Context : Type} {checks : OtherChecks Context} {state : Value} {id target : JsString}

abbrev idsOf (state : Value) : List JsString := (byId (nodesOf state)).map Prod.fst

abbrev replacersOf (checks : OtherChecks Context) (state : Value) : List (JsString × JsString) :=
  (linkNodes checks (byId (nodesOf state)) (byId (nodesOf state)) []).2

abbrev currentOf (checks : OtherChecks Context) (state : Value) : List JsString := (deriveNodes checks state).2.currentIds

/-- The node that a node of the state replaces. -/
def replacedOf (state : Value) (id : JsString) : Option JsString := (nodeOf id state).bind named

def Replaced (state : Value) (id : JsString) : Prop := ∃ other, replacedOf state other = some id

def Requires (state : Value) (id prerequisite : JsString) : Prop := ∃ node, nodeOf id state = some node ∧ prerequisite ∈ requiresOf node

/-- What the derivation of nodes is refused for, part by part. -/
structure Derivable (checks : OtherChecks Context) (state : Value) : Prop where
  links : (linkNodes checks (byId (nodesOf state)) (byId (nodesOf state)) []).1 = []
  cycles : ∀ entry ∈ byId (nodesOf state),
    meetsCycle (byId (nodesOf state)) ((byId (nodesOf state)).length + 2) [entry.1] (textAt entry.2 "replaces") = false
  missing : ∀ landing ∈ members state "landings", ∀ prerequisite ∈ requiresOf landing, (byId (nodesOf state)).lookup prerequisite ≠ none
  visit : (((members state "landings").map fun landing => textOf (read landing "id")).foldl
    (visitPrerequisites (byId (nodesOf state)) ((byId (nodesOf state)).length + 2)) ⟨[], [], []⟩).problems = []
  stale : ∀ landing ∈ members state "landings", textOf (read landing "id") ∈ currentOf checks state →
    ∀ prerequisite ∈ requiresOf landing, prerequisite ∈ currentOf checks state
  closure : ∀ entry ∈ replacersOf checks state, closureProblems (dependentsOf (byId (nodesOf state)) (members state "landings"))
    (replacersOf checks state) (((members state "landings").map fun landing => (requiresOf landing).length).sum + 2) [] [entry.1] = []
  repoint : ∀ entry ∈ byId (nodesOf state), repointProblems (byId (nodesOf state)) (replacersOf checks state) entry.1 entry.2 = []
  start : ∀ entry ∈ byId (nodesOf state), startProblems entry.1 entry.2 = []

theorem deriveNodes_nil : (deriveNodes checks state).1 = [] ↔ Derivable checks state := by
  have staleness (landing : Value) : (if textOf (read landing "id") ∈ currentOf checks state then
      (requiresOf landing).flatMap fun prerequisite => refuse (!(currentOf checks state).contains prerequisite) "ADV-G66"
        (landingPath (textOf (read landing "id"))) "current node references a non-current prerequisite"
      else []) = [] ↔ (textOf (read landing "id") ∈ currentOf checks state → ∀ prerequisite ∈ requiresOf landing,
        prerequisite ∈ currentOf checks state) := by
    by_cases current : textOf (read landing "id") ∈ currentOf checks state
    · rw [if_pos current]
      simp [current]
    · rw [if_neg current]
      simp [current]
  constructor
  · intro quiet
    unfold deriveNodes at quiet
    simp only [List.append_eq_nil_iff, List.flatMap_eq_nil_iff, refuse_nil] at quiet
    obtain ⟨⟨⟨⟨⟨⟨⟨links, cycles⟩, missing⟩, visit⟩, stale⟩, closure⟩, repoint⟩, start⟩ := quiet
    refine ⟨links, cycles, ?_, visit, fun landing member => (staleness landing).mp (stale landing member), closure, repoint, start⟩
    intro landing member prerequisite required
    simpa using missing landing member prerequisite required
  · intro derivable
    unfold deriveNodes
    simp only [List.append_eq_nil_iff, List.flatMap_eq_nil_iff, refuse_nil]
    refine ⟨⟨⟨⟨⟨⟨⟨derivable.links, derivable.cycles⟩, ?_⟩, derivable.visit⟩, ?_⟩, derivable.closure⟩, derivable.repoint⟩, derivable.start⟩
    · intro landing member prerequisite required
      simpa using derivable.missing landing member prerequisite required
    · exact fun landing member => (staleness landing).mpr (derivable.stale landing member)

theorem visit_explores (ids : List JsString) (search : Search JsString) : ids.foldl (visitPrerequisites (byId (nodesOf state))
    ((byId (nodesOf state)).length + 2)) (asVisit search) =
    asVisit (ids.foldl (explore (prerequisitesOf (byId (nodesOf state))) ((byId (nodesOf state)).length + 2)) search) := by
  induction ids generalizing search with
  | nil => rfl
  | cons id rest ih => rw [List.foldl_cons, List.foldl_cons, visitPrerequisites_explores, ih]

namespace ValidState

variable (valid : ValidState state)
include valid

theorem names : Names (byId (nodesOf state)) := by
  intro entry member
  obtain ⟨among, _⟩ := (byId_indexed _).listed entry.1 entry.2 (mem_byId.mp member)
  rcases List.mem_append.mp among with gate | landing
  · exact (valid.gates _ gate).replaces
  · exact (valid.landings _ landing).replaces

theorem nodeOf_iff {node : Value} : nodeOf id state = some node ↔ node ∈ nodesOf state ∧ idOf node = some id :=
  ⟨(byId_indexed _).listed id node, fun ⟨member, held⟩ => valid.nodes.lookup member held⟩

/-- Only landings require anything. -/
theorem requires_iff {prerequisite : JsString} : Requires state id prerequisite ↔
    ∃ landing ∈ members state "landings", idOf landing = some id ∧ prerequisite ∈ requiresOf landing := by
  constructor
  · rintro ⟨node, found, required⟩
    obtain ⟨member, held⟩ := valid.nodeOf_iff.mp found
    rcases List.mem_append.mp member with gate | landing
    · unfold requiresOf members at required
      rw [(valid.gates node gate).requires] at required
      cases required
    · exact ⟨node, landing, held, required⟩
  · rintro ⟨landing, member, held, required⟩
    exact ⟨landing, valid.nodeOf_iff.mpr ⟨List.mem_append_right _ member, held⟩, required⟩

theorem replacer_iff (links : (linkNodes checks (byId (nodesOf state)) (byId (nodesOf state)) []).1 = []) :
    (replacersOf checks state).lookup target = some id ↔ replacedOf state id = some target := by
  rw [replacersOf, linkNodes_lookup valid.names links, List.lookup_nil, or_iff_left (Option.some_ne_none id ·.symm), replacedOf, Option.bind_eq_some_iff]
  exact exists_congr fun node => and_congr_left fun _ => mem_byId

theorem current_iff (links : (linkNodes checks (byId (nodesOf state)) (byId (nodesOf state)) []).1 = []) :
    id ∈ currentOf checks state ↔ id ∈ idsOf state ∧ ¬ Replaced state id := by
  refine List.mem_filter.trans (and_congr_right fun _ => ?_)
  rw [Option.isNone_iff_eq_none, Option.eq_none_iff_forall_ne_some]
  constructor
  · rintro free ⟨other, replaces⟩
    exact free other ((valid.replacer_iff links).mpr replaces)
  · intro free other found
    exact free ⟨other, (valid.replacer_iff links).mp found⟩

/-- Where a prerequisite of the replaced node ends up. -/
theorem repointed_iff (links : (linkNodes checks (byId (nodesOf state)) (byId (nodesOf state)) []).1 = []) {old prerequisite : JsString} :
    ((replacersOf checks state).lookup old).getD old = prerequisite ↔
      replacedOf state prerequisite = some old ∨ ¬ Replaced state old ∧ prerequisite = old := by
  cases linked : (replacersOf checks state).lookup old with
  | none =>
    have free : ¬ Replaced state old := by
      rintro ⟨other, replaced⟩
      cases linked.symm.trans ((valid.replacer_iff links).mpr replaced)
    rw [Option.getD_none, and_iff_right free]
    constructor
    · exact fun same => .inr same.symm
    · rintro (replaced | same)
      · exact absurd ⟨prerequisite, replaced⟩ free
      · exact same.symm
  | some replacer =>
    have replaced := (valid.replacer_iff links).mp linked
    rw [Option.getD_some]
    constructor
    · rintro rfl
      exact .inl replaced
    · rintro (also | ⟨free, _⟩)
      · exact Option.some.inj (linked.symm.trans ((valid.replacer_iff links).mpr also))
      · exact absurd ⟨replacer, replaced⟩ free

end ValidState

theorem requires_at {prerequisite : JsString} {node : Value} (found : nodeOf id state = some node) :
    Requires state id prerequisite ↔ prerequisite ∈ requiresOf node := by
  unfold Requires
  rw [found]
  simp

end Derivations

section Graphs

variable {Context : Type} (checks : OtherChecks Context) (state : Value)

def kindOf (id : JsString) : Option Value := (nodeOf id state).bind (read · "kind")

/-- Nodes of one kind, each in place of the next. Only the first is current, and the last replaces nothing. -/
structure ReplacementChain (chain : List JsString) : Prop where
  replaces : chain.IsChain (Precedes (replacedOf state))
  last : ∀ id ∈ chain.getLast?, replacedOf state id = none
  current : ∃ head rest, chain = head :: rest ∧ head ∈ currentOf checks state ∧ ∀ id ∈ rest, id ∉ currentOf checks state
  kind : ∀ one ∈ chain, ∀ other ∈ chain, kindOf state one = kindOf state other

/-- A replacement graph is sound. -/
structure ReplacementGraph : Prop where
  chains : ∃ chains : List (List JsString), chains.flatten.Perm (idsOf state) ∧ ∀ chain ∈ chains, ReplacementChain checks state chain
  acyclic : ∀ id, ¬ TransGen (Requires state) id id
  exist : ∀ id prerequisite, Requires state id prerequisite → prerequisite ∈ idsOf state
  current : ∀ id prerequisite, id ∈ currentOf checks state → Requires state id prerequisite → prerequisite ∈ currentOf checks state
  dependents : ∀ id target, TransGen (Requires state) id target → Replaced state target → Replaced state id
  repointed : ∀ id target, replacedOf state id = some target → ∀ prerequisite, Requires state id prerequisite ↔
    ∃ old, Requires state target old ∧ (replacedOf state prerequisite = some old ∨ ¬ Replaced state old ∧ prerequisite = old)

variable {checks state} (valid : ValidState state) (derivable : Derivable checks state)
include valid derivable

theorem replaced_linked {id target : JsString} {node : Value} (found : nodeOf id state = some node) (name : named node = some target) :
    ∃ old, nodeOf target state = some old ∧ linkProblems checks id node old = [] :=
  (linkNodes_linked valid.names derivable.links (id, node) (mem_byId.mpr found) target name).held

theorem replaced_exists {id target : JsString} (replaces : replacedOf state id = some target) : target ∈ idsOf state := by
  obtain ⟨node, found, name⟩ := Option.bind_eq_some_iff.mp replaces
  obtain ⟨old, held, _⟩ := replaced_linked valid derivable found name
  exact mem_keys.mpr ⟨old, held⟩

theorem replaced_kind {id target : JsString} (replaces : replacedOf state id = some target) : kindOf state id = kindOf state target := by
  obtain ⟨node, found, name⟩ := Option.bind_eq_some_iff.mp replaces
  obtain ⟨old, held, quiet⟩ := replaced_linked valid derivable found name
  unfold linkProblems at quiet
  rw [List.append_eq_nil_iff, refuse_nil, Bool.not_eq_false'] at quiet
  unfold kindOf
  rw [found, held]
  exact (same_eq quiet.1).symm

theorem stranded : Stranded (replacedOf state) (idsOf state) where
  distinct := (byId_indexed _).distinct
  stays _ _ _ replaces := replaced_exists valid derivable replaces
  single one _ two _ target first second := by
    have here := (valid.replacer_iff derivable.links).mpr first
    exact Option.some.inj (here.symm.trans ((valid.replacer_iff derivable.links).mpr second))
  ends id member := by
    obtain ⟨node, found⟩ := mem_keys.mp member
    have stays (one target : JsString) (replaces : targetIn (byId (nodesOf state)) one = some target) : target ∈ idsOf state :=
      replaced_exists valid derivable replaces
    have after : replacedOf state id = named node := by
      unfold replacedOf nodeOf
      rw [found, Option.bind_some]
    obtain ⟨trail, trails⟩ := meetsCycle_trails stays (List.nodup_singleton id) (fun other same => List.mem_singleton.mp same ▸ member)
      (by rw [List.length_singleton]; omega) (fun target name => stays id target (after.trans name))
      (derivable.cycles (id, node) (mem_of_lookup found))
    exact ⟨id :: trail, .step (after ▸ trails)⟩

theorem chains_of : ∃ chains : List (List JsString), chains.flatten.Perm (idsOf state) ∧ ∀ chain ∈ chains, ReplacementChain checks state chain := by
  obtain ⟨chains, whole, each⟩ := (stranded valid derivable).strands
  refine ⟨chains, whole, ?_⟩
  intro chain member
  have strand := each chain member
  have among {id : JsString} (listed : id ∈ chain) : id ∈ idsOf state := whole.subset (List.mem_flatten.mpr ⟨chain, member, listed⟩)
  have current {id : JsString} (listed : id ∈ chain) : id ∈ currentOf checks state ↔ IsHead (replacedOf state) (idsOf state) id := by
    rw [valid.current_iff derivable.links, and_iff_right (among listed)]
    constructor
    · intro free other _ replaces
      exact free ⟨other, replaces⟩
    · rintro head ⟨other, replaces⟩
      obtain ⟨node, found, _⟩ := Option.bind_eq_some_iff.mp replaces
      exact head other (mem_keys.mpr ⟨node, found⟩) replaces
  obtain ⟨head, rest, rfl, first, others⟩ := strand.head
  refine ⟨strand.chain, strand.last, ⟨head, rest, rfl, (current List.mem_cons_self).mpr first, ?_⟩, ?_⟩
  · intro id listed also
    exact others id listed ((current (List.mem_cons_of_mem _ listed)).mp also)
  · have kinds : ∀ id ∈ head :: rest, kindOf state id = kindOf state head := by
      intro id listed
      refine strand.chain.induction (fun id => kindOf state id = kindOf state head) _ ?_ ?_ id listed
      · intro one other replaces same
        exact (replaced_kind valid derivable replaces).symm.trans same
      · exact fun _ => rfl
    exact fun one listed other listed' => (kinds one listed).trans (kinds other listed').symm

theorem required_exists {id prerequisite : JsString} (requires : Requires state id prerequisite) : prerequisite ∈ idsOf state := by
  obtain ⟨landing, member, _, required⟩ := valid.requires_iff.mp requires
  obtain ⟨node, found⟩ := Option.ne_none_iff_exists'.mp (derivable.missing landing member prerequisite required)
  exact mem_keys.mpr ⟨node, found⟩

theorem prerequisites_leads {id prerequisite : JsString} (requires : Requires state id prerequisite) :
    Leads (prerequisitesOf (byId (nodesOf state))) id prerequisite := by
  have exist := required_exists valid derivable requires
  obtain ⟨node, found, required⟩ := requires
  unfold Leads prerequisitesOf
  refine List.mem_filter.mpr ⟨?_, ?_⟩
  · unfold nodeOf at found
    rw [found]
    exact required
  · obtain ⟨other, held⟩ := mem_keys.mp exist
    rw [held]
    rfl

theorem requires_acyclic (id : JsString) : ¬ TransGen (Requires state) id id := by
  have quiet := derivable.visit
  rw [show (⟨[], [], []⟩ : Visit) = asVisit ⟨[], [], []⟩ from rfl, visit_explores] at quiet
  have roots : ∀ root ∈ (members state "landings").map (fun landing => textOf (read landing "id")), root ∈ idsOf state := by
    intro root member
    obtain ⟨landing, listed, rfl⟩ := List.mem_map.mp member
    obtain ⟨id, held⟩ := (valid.landings landing listed).id
    rw [textOf_id held]
    exact mem_keys.mpr ⟨landing, valid.nodeOf_iff.mpr ⟨List.mem_append_right _ listed, held⟩⟩
  have orders := foldl_orders _ ⟨[], [], []⟩ (fun _ _ => explore_visiting) (fun _ _ => explore_cycles)
    (fun before root member same ordered silent => by
      refine explore_orders (idsOf state) ?_ (same ▸ List.nodup_nil) (same ▸ List.nil_subset _) ?_ (roots root member) ordered silent
      · intro one _ other leads
        obtain ⟨node, held⟩ := Option.isSome_iff_exists.mp (List.mem_filter.mp leads).2
        exact mem_keys.mpr ⟨node, held⟩
      · rw [same, List.length_map, List.length_nil]
        omega) (by trivial) (List.map_eq_nil_iff.mp quiet)
  intro cycle
  have visited : id ∈ _ := orders.visits id (by
    obtain ⟨other, requires, _⟩ := TransGen.head'_iff.mp cycle
    obtain ⟨landing, member, held, _⟩ := valid.requires_iff.mp requires
    exact List.mem_map.mpr ⟨landing, member, textOf_id held⟩)
  exact orders.ordered.acyclic visited (TransGen.mono (fun _ _ => prerequisites_leads valid derivable) _ _ cycle)

theorem dependents_replaced {id target : JsString} (depends : TransGen (Requires state) id target) (replaced : Replaced state target) :
    Replaced state id := by
  obtain ⟨other, replaces⟩ := replaced
  have linked := (valid.replacer_iff derivable.links).mpr replaces
  have quiet := derivable.closure (target, other) (mem_of_lookup linked)
  rw [closureProblems_surveys] at quiet
  have covers := survey_covers (idsOf state).toFinset ?_ ?_ ?_ quiet target (.inr (List.mem_singleton_self _)) id ?_
  · rw [refuse_nil, Option.isNone_eq_false_iff] at covers
    obtain ⟨replacer, held⟩ := Option.isSome_iff_exists.mp covers
    exact ⟨replacer, (valid.replacer_iff derivable.links).mp held⟩
  · intro node outside
    by_contra some_dependents
    obtain ⟨dependent, leads⟩ := List.exists_mem_of_ne_nil _ some_dependents
    obtain ⟨held, _⟩ := mem_dependentsOf.mp leads
    obtain ⟨record, found⟩ := Option.ne_none_iff_exists'.mp held
    exact outside (List.mem_toFinset.mpr (mem_keys.mpr ⟨record, found⟩))
  · have bound := pending_dependents (byId (nodesOf state)) (members state "landings") (idsOf state).toFinset []
    rw [List.length_singleton]
    omega
  · exact fun _ member => absurd member List.not_mem_nil
  · refine TransGen.mono ?_ _ _ depends.swap
    intro prerequisite dependent requires
    obtain ⟨landing, member, held, required⟩ := valid.requires_iff.mp requires
    obtain ⟨node, found⟩ := mem_keys.mp (required_exists valid derivable requires)
    exact mem_dependentsOf.mpr ⟨found ▸ Option.some_ne_none node, landing, member, required, textOf_id held⟩

omit valid derivable in
/-- Lists of as many members are of the same ones, if the one's are among the other's. -/
theorem mem_iff_of_dedup {expected actual : List JsString} (size : expected.dedup.length = actual.dedup.length)
    (among : ∀ id ∈ expected, id ∈ actual) (id : JsString) : id ∈ actual ↔ id ∈ expected := by
  have same : expected.toFinset = actual.toFinset := by
    apply Finset.eq_of_subset_of_card_le
    · intro other listed
      exact List.mem_toFinset.mpr (among other (List.mem_toFinset.mp listed))
    · rw [List.card_toFinset, List.card_toFinset, size]
  rw [← List.mem_toFinset, ← same, List.mem_toFinset]

omit derivable in
/-- A gate says that it is one, and a landing does not. -/
theorem kind_gate_iff {id : JsString} {node : Value} (found : nodeOf id state = some node) :
    isText (read node "kind") "gate" = true ↔ node ∈ members state "gates" := by
  obtain ⟨member, _⟩ := valid.nodeOf_iff.mp found
  constructor
  · intro gate
    rcases List.mem_append.mp member with listed | landing
    · exact listed
    · rw [(valid.landings node landing).not_gate] at gate
      cases gate
  · exact fun listed => (valid.gates node listed).kind

theorem replaced_repointed {id target : JsString} (replaces : replacedOf state id = some target) (prerequisite : JsString) :
    Requires state id prerequisite ↔
      ∃ old, Requires state target old ∧ (replacedOf state prerequisite = some old ∨ ¬ Replaced state old ∧ prerequisite = old) := by
  have kinds := replaced_kind valid derivable replaces
  obtain ⟨node, found, name⟩ := Option.bind_eq_some_iff.mp replaces
  obtain ⟨oldNode, held, _⟩ := replaced_linked valid derivable found name
  unfold kindOf at kinds
  rw [found, held, Option.bind_some, Option.bind_some] at kinds
  have quiet := derivable.repoint (id, node) (mem_byId.mpr found)
  unfold repointProblems at quiet
  rw [textAt_iff.mp name, show isNull (some (.string target)) = false from rfl, Bool.false_or] at quiet
  by_cases gate : isText (read node "kind") "gate" = true
  · have empty {id : JsString} {node : Value} (found : nodeOf id state = some node) (gate : isText (read node "kind") "gate" = true)
        (prerequisite : JsString) : ¬ Requires state id prerequisite := by
      rw [requires_at found]
      unfold requiresOf members
      rw [(valid.gates node ((kind_gate_iff valid found).mp gate)).requires]
      exact List.not_mem_nil
    apply iff_of_false (empty found gate prerequisite)
    rintro ⟨old, required, _⟩
    exact empty held (kinds ▸ gate) old required
  · rw [if_neg gate, show textAt node "replaces" = some target from name, Option.bind_some] at quiet
    have there : (byId (nodesOf state)).lookup target = some oldNode := held
    rw [there] at quiet
    dsimp only at quiet
    rw [if_neg (kinds ▸ gate), refuse_nil, Bool.or_eq_false_iff, decide_eq_false_iff_not, not_not, List.any_eq_false] at quiet
    rw [requires_at found, mem_iff_of_dedup quiet.1 fun id listed => by simpa using quiet.2 id listed, List.mem_map]
    refine exists_congr fun old => ?_
    rw [requires_at held, valid.repointed_iff derivable.links]

end Graphs

theorem replacement_sound {Context : Type} {checks : OtherChecks Context} {context : Context} {state : Value}
    (shape : validateTopLevel checks context state = []) (quiet : (deriveNodes checks state).1 = []) : ReplacementGraph checks state := by
  have valid := validState shape
  have derivable := deriveNodes_nil.mp quiet
  refine ⟨chains_of valid derivable, requires_acyclic valid derivable, fun _ _ => required_exists valid derivable, ?_,
    fun _ _ => dependents_replaced valid derivable, fun _ _ => replaced_repointed valid derivable⟩
  intro id prerequisite current requires
  obtain ⟨landing, member, held, required⟩ := valid.requires_iff.mp requires
  exact derivable.stale landing member (by rw [textOf_id held]; exact current) prerequisite required

namespace Sample

def delivery : Value :=
  record [("lifecycle", text "Planned"), ("completionPolicy", text "reviewed-delivery-v1"), ("completion", .null), ("withdrawal", .null)]

/-- A planned landing, with what it requires and what it replaces. -/
def node (id : String) (requires : List String) (replaced : Option String) : Value :=
  record [("id", text id), ("kind", text "implementation-landing"), ("requires", .array (requires.map text)),
    ("authorityAnchor", record [("type", text "task-contract"), ("id", text "runner")]), ("replaces", (replaced.map text).getD .null),
    ("replacement", if replaced.isSome then record [("digest", text ""), ("attestation", record [("digest", text "")])] else .null),
    ("delivery", delivery)]

def program (nodes : List Value) : Value :=
  record [("schemaVersion", .number versionOne), ("adrs", .array []), ("questions", .array []), ("gates", .array []),
    ("landings", .array nodes), ("externalReferences", .array []), ("attestations", record [("genesis", record [])])]

/-- A landing and its dependent, both replaced. -/
def replacedPair : Value :=
  program [node "runner/L2" [] none, node "runner/L2-b" [] (some "runner/L2"), node "runner/L3" ["runner/L2"] none,
    node "runner/L3-b" ["runner/L2-b"] (some "runner/L3")]

theorem replacedPair_sound : ReplacementGraph readsBoth replacedPair := by
  obtain ⟨shape, quiet⟩ : validateTopLevel readsBoth () replacedPair = [] ∧ (deriveNodes readsBoth replacedPair).1 = [] := by
    decide +kernel
  exact replacement_sound shape quiet

end Sample

end SecureHome.Governance
