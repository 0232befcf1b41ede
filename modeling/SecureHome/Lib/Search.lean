import Mathlib.Algebra.BigOperators.Group.Finset.Basic
import Mathlib.Algebra.Order.BigOperators.Group.Finset
import Mathlib.Data.List.Nodup
import Mathlib.Logic.Relation

/-! Depth first, breadth first and by frontiers over a directed graph. The first finds a cycle
exactly if there is one, the others what is reached and what reaches. -/

namespace SecureHome.Lib
open Relation

variable {Node : Type*} {next : Node → List Node}

def Leads (next : Node → List Node) (one other : Node) : Prop := other ∈ next one

section Orders

/-- Every node stands before all it leads to. -/
def Topological (next : Node → List Node) : List Node → Prop
  | [] => True
  | first :: rest => (∀ other ∈ next first, other ∈ rest) ∧ Topological next rest

variable {nodes : List Node} {one other : Node}

theorem Topological.leads (ordered : Topological next nodes) (member : one ∈ nodes) (leads : Leads next one other) : other ∈ nodes := by
  induction nodes with
  | nil => cases member
  | cons first rest ih =>
    apply List.mem_cons_of_mem
    rcases List.mem_cons.mp member with rfl | later
    · exact ordered.1 other leads
    · exact ih ordered.2 later

theorem Topological.closed (ordered : Topological next nodes) (member : one ∈ nodes) (reaches : ReflTransGen (Leads next) one other) :
    other ∈ nodes := by
  induction reaches with
  | refl => exact member
  | tail _ leads ih => exact ordered.leads ih leads

/-- No node of such a list leads back to itself. -/
theorem Topological.acyclic (ordered : Topological next nodes) (member : one ∈ nodes) : ¬ TransGen (Leads next) one one := by
  induction nodes with
  | nil => cases member
  | cons first rest ih =>
    intro cycle
    by_cases later : one ∈ rest
    · exact ih ordered.2 later cycle
    rcases List.mem_cons.mp member with rfl | member
    · obtain ⟨other, leads, back⟩ := TransGen.head'_iff.mp cycle
      exact later (ordered.2.closed (ordered.1 other leads) back)
    · exact later member

end Orders

section DepthFirst

structure Search (Node : Type*) where
  visiting : List Node
  visited : List Node
  cycles : List Node

variable {fuel : Nat} {search : Search Node} {node : Node} {nodes : List Node}

theorem foldl_visiting {step : Search Node → Node → Search Node} (keeps : ∀ search node, (step search node).visiting = search.visiting) :
    (nodes.foldl step search).visiting = search.visiting := by
  induction nodes generalizing search with
  | nil => rfl
  | cons first rest ih => rw [List.foldl_cons, ih, keeps]

theorem foldl_cycles {step : Search Node → Node → Search Node} (grows : ∀ search node, search.cycles <+: (step search node).cycles)
    (nodes : List Node) (search : Search Node) : search.cycles <+: (nodes.foldl step search).cycles := by
  induction nodes generalizing search with
  | nil => exact List.prefix_rfl
  | cons first rest ih => exact (grows search first).trans (ih _)

/-- The nodes a search has been at are in order, and those it was sent to are among them. -/
structure Orders (next : Node → List Node) (before after : Search Node) (nodes : List Node) : Prop where
  ordered : Topological next after.visited
  keeps : before.visited ⊆ after.visited
  visits : ∀ node ∈ nodes, node ∈ after.visited

theorem foldl_orders {step : Search Node → Node → Search Node} (nodes : List Node) (search : Search Node) (keeps : ∀ search node, (step search node).visiting = search.visiting)
    (grows : ∀ search node, search.cycles <+: (step search node).cycles)
    (each : ∀ before node, node ∈ nodes → before.visiting = search.visiting → Topological next before.visited →
      (step before node).cycles = [] → Orders next before (step before node) [node])
    (ordered : Topological next search.visited) (quiet : (nodes.foldl step search).cycles = []) :
    Orders next search (nodes.foldl step search) nodes := by
  induction nodes generalizing search with
  | nil => exact ⟨ordered, List.Subset.refl _, fun _ member => absurd member List.not_mem_nil⟩
  | cons first rest ih =>
    rw [List.foldl_cons] at quiet ⊢
    have silent : (step search first).cycles = [] := by
      have grown := foldl_cycles grows rest (step search first)
      rw [quiet] at grown
      exact List.prefix_nil.mp grown
    have here := each search first List.mem_cons_self rfl ordered silent
    have later := ih (step search first) (fun before node member same => each before node (List.mem_cons_of_mem _ member) (same.trans (keeps _ _)))
      here.ordered quiet
    exact ⟨later.ordered, List.Subset.trans here.keeps later.keeps,
      List.forall_mem_cons.mpr ⟨later.keeps (here.visits first (List.mem_singleton_self _)), later.visits⟩⟩

variable [DecidableEq Node]

/-- Depth first, and no deeper than there is fuel. -/
def explore (next : Node → List Node) : Nat → Search Node → Node → Search Node
  | 0, search, _ => search
  | fuel + 1, search, node =>
    if node ∈ search.visiting then { search with cycles := search.cycles ++ [node] }
    else if node ∈ search.visited then search
    else
      let walked := (next node).foldl (explore next fuel) { search with visiting := node :: search.visiting }
      { walked with visiting := search.visiting, visited := node :: walked.visited }

@[simp] theorem explore_visiting : (explore next fuel search node).visiting = search.visiting := by
  cases fuel with
  | zero => rfl
  | succ fuel =>
    rw [explore]
    split
    · rfl
    split <;> rfl

theorem explore_cycles : search.cycles <+: (explore next fuel search node).cycles := by
  induction fuel generalizing search node with
  | zero => exact List.prefix_rfl
  | succ fuel ih =>
    rw [explore]
    split
    · exact List.prefix_append _ _
    split
    · exact List.prefix_rfl
    · exact foldl_cycles (fun _ _ => ih) (next node) { search with visiting := node :: search.visiting }

/-- A search that has the fuel and finds no cycle leaves what it visited in order. -/
theorem explore_orders (domain : List Node) (stays : ∀ one ∈ domain, next one ⊆ domain) (apart : search.visiting.Nodup)
    (among : search.visiting ⊆ domain) (enough : domain.length < search.visiting.length + fuel) (member : node ∈ domain)
    (ordered : Topological next search.visited) (quiet : (explore next fuel search node).cycles = []) :
    Orders next search (explore next fuel search node) [node] := by
  induction fuel generalizing search node with
  | zero =>
    have most := (List.subperm_of_subset apart among).length_le
    omega
  | succ fuel ih =>
    rw [explore] at quiet ⊢
    split at quiet
    · exact absurd quiet (by simp)
    next fresh =>
    rw [if_neg fresh]
    split at quiet
    next seen =>
      rw [if_pos seen]
      exact ⟨ordered, List.Subset.refl _, fun _ member => List.mem_singleton.mp member ▸ seen⟩
    next unseen =>
      rw [if_neg unseen]
      have walked := foldl_orders (next node) { search with visiting := node :: search.visiting }
        (fun _ _ => explore_visiting) (fun _ _ => explore_cycles) (fun before child led same ordered silent => by
          refine ih ?_ ?_ ?_ (stays node member led) ordered silent
          · rw [same]
            exact List.nodup_cons.mpr ⟨fresh, apart⟩
          · rw [same]
            exact List.cons_subset.mpr ⟨member, among⟩
          · rw [same, List.length_cons]
            omega) ordered quiet
      refine ⟨⟨walked.visits, walked.ordered⟩, List.subset_cons_of_subset _ walked.keeps, ?_⟩
      intro other same
      exact List.mem_singleton.mp same ▸ List.mem_cons_self

/-- Where no node leads back to itself, no search finds a cycle. -/
theorem explore_acyclic (acyclic : ∀ node, ¬ TransGen (Leads next) node node)
    (path : ∀ other ∈ search.visiting, TransGen (Leads next) other node) : (explore next fuel search node).cycles = search.cycles := by
  induction fuel generalizing search node with
  | zero => rfl
  | succ fuel ih =>
    rw [explore]
    split
    next cycle => exact absurd (path node cycle) (acyclic node)
    split
    · rfl
    · have walk (children : List Node) (led : ∀ child ∈ children, Leads next node child) (before : Search Node)
          (same : before.visiting = node :: search.visiting) : (children.foldl (explore next fuel) before).cycles = before.cycles := by
        induction children generalizing before with
        | nil => rfl
        | cons child rest walk =>
          obtain ⟨first, others⟩ := List.forall_mem_cons.mp led
          rw [List.foldl_cons, walk others _ (explore_visiting.trans same), ih]
          rw [same]
          intro other member
          rcases List.mem_cons.mp member with rfl | earlier
          · exact .single first
          · exact (path other earlier).tail first
      exact walk (next node) (fun _ member => member) _ rfl

end DepthFirst

section Descents

/-- Why a search ends early. -/
inductive Halt (Node : Type*) where
  | cycle (path : List Node)
  | exhausted
  deriving DecidableEq

variable [DecidableEq Node] {fuel : Nat} {visiting visited after : List Node} {node : Node} {nodes : List Node}

/-- Depth first, up to the first cycle. The nodes of the path are listed from the last. -/
def descend (next : Node → List Node) : Nat → List Node → List Node → Node → Except (Halt Node) (List Node)
  | 0, _, _, _ => .error .exhausted
  | fuel + 1, visiting, visited, node =>
    if node ∈ visiting then .error (.cycle (visiting.reverse ++ [node]))
    else if node ∈ visited then .ok visited
    else ((next node).foldlM (descend next fuel (node :: visiting)) visited).map (node :: ·)

/-- What one search returns of another that goes on. -/
def Agrees (visiting : List Node) (result : Except (Halt Node) (List Node)) (search : Search Node) : Prop :=
  match result with
  | .ok after => search = ⟨visiting, after, []⟩
  | .error (.cycle _) => search.cycles ≠ []
  | .error .exhausted => True

omit [DecidableEq Node] in
theorem foldlM_agrees {step : List Node → Node → Except (Halt Node) (List Node)} {walk : Search Node → Node → Search Node}
    (grows : ∀ search node, search.cycles <+: (walk search node).cycles)
    (each : ∀ visited node, Agrees visiting (step visited node) (walk ⟨visiting, visited, []⟩ node)) :
    Agrees visiting (nodes.foldlM step visited) (nodes.foldl walk ⟨visiting, visited, []⟩) := by
  induction nodes generalizing visited with
  | nil => rfl
  | cons first rest ih =>
    have here := each visited first
    rw [List.foldlM_cons, List.foldl_cons]
    cases stepped : step visited first with
    | ok after =>
      rw [stepped] at here
      rw [show walk ⟨visiting, visited, []⟩ first = ⟨visiting, after, []⟩ from here]
      exact ih
    | error halt =>
      rw [stepped] at here
      cases halt with
      | exhausted => trivial
      | cycle path =>
        intro quiet
        have grown := foldl_cycles grows rest (walk ⟨visiting, visited, []⟩ first)
        rw [quiet] at grown
        exact here (List.prefix_nil.mp grown)

theorem descend_agrees : Agrees visiting (descend next fuel visiting visited node) (explore next fuel ⟨visiting, visited, []⟩ node) := by
  induction fuel generalizing visiting visited node with
  | zero => trivial
  | succ fuel ih =>
    rw [descend, explore]
    by_cases cycle : node ∈ visiting
    · rw [if_pos cycle, if_pos cycle]
      exact List.append_ne_nil_of_right_ne_nil _ (List.cons_ne_nil _ _)
    by_cases seen : node ∈ visited
    · rw [if_neg cycle, if_neg cycle, if_pos seen, if_pos seen]
      rfl
    rw [if_neg cycle, if_neg cycle, if_neg seen, if_neg seen]
    have walked := @foldlM_agrees _ (node :: visiting) visited (next node) (descend next fuel (node :: visiting)) (explore next fuel)
      (fun _ _ => explore_cycles) fun _ _ => ih
    cases folded : (next node).foldlM (descend next fuel (node :: visiting)) visited with
    | ok after =>
      rw [folded] at walked
      have same : (next node).foldl (explore next fuel) ⟨node :: visiting, visited, []⟩ = ⟨node :: visiting, after, []⟩ := walked
      change _ = _
      dsimp only
      rw [same]
    | error halt =>
      rw [folded] at walked
      cases halt with
      | exhausted => trivial
      | cycle path => exact walked

omit [DecidableEq Node] in
theorem foldlM_enough {step : List Node → Node → Except (Halt Node) (List Node)}
    (each : ∀ visited, ∀ node ∈ nodes, step visited node ≠ .error .exhausted) : nodes.foldlM step visited ≠ .error .exhausted := by
  induction nodes generalizing visited with
  | nil => simp [pure, Except.pure]
  | cons first rest ih =>
    have here := each visited first List.mem_cons_self
    rw [List.foldlM_cons]
    cases stepped : step visited first with
    | ok after => exact ih fun visited node member => each visited node (List.mem_cons_of_mem _ member)
    | error halt =>
      intro same
      exact here (stepped.trans same)

/-- With the fuel for every node, a search is not exhausted. -/
theorem descend_enough (domain : List Node) (stays : ∀ one ∈ domain, next one ⊆ domain) (apart : visiting.Nodup)
    (among : visiting ⊆ domain) (enough : domain.length < visiting.length + fuel) (member : node ∈ domain) :
    descend next fuel visiting visited node ≠ .error .exhausted := by
  induction fuel generalizing visiting visited node with
  | zero =>
    have most := (List.subperm_of_subset apart among).length_le
    omega
  | succ fuel ih =>
    rw [descend]
    split
    · simp
    next fresh =>
    split
    · simp
    have all : (next node).foldlM (descend next fuel (node :: visiting)) visited ≠ .error .exhausted := by
      apply foldlM_enough
      intro visited child led
      apply ih (List.nodup_cons.mpr ⟨fresh, apart⟩) (List.cons_subset.mpr ⟨member, among⟩) _ (stays node member led)
      rw [List.length_cons]
      omega
    cases folded : (next node).foldlM (descend next fuel (node :: visiting)) visited with
    | ok after => simp [Except.map]
    | error halt =>
      intro same
      exact all (folded.trans (congrArg Except.error (Except.error.inj same)))

/-- From each node in turn. -/
def descendAll (next : Node → List Node) (domain : List Node) : Except (Halt Node) (List Node) :=
  domain.foldlM (descend next (domain.length + 1) []) []

theorem descendAll_enough {domain : List Node} (stays : ∀ one ∈ domain, next one ⊆ domain) :
    descendAll next domain ≠ .error .exhausted := by
  apply foldlM_enough
  intro visited node member
  exact descend_enough domain stays List.nodup_nil (List.nil_subset _) (by simp) member

/-- Where the search from every node finds no cycle, it lists them in order. -/
theorem descendAll_orders {domain : List Node} (stays : ∀ one ∈ domain, next one ⊆ domain) (found : descendAll next domain = .ok after) :
    Topological next after ∧ domain ⊆ after := by
  have agrees := @foldlM_agrees _ [] [] domain (descend next (domain.length + 1) []) (explore next (domain.length + 1))
    (fun _ _ => explore_cycles) fun _ _ => descend_agrees
  rw [show domain.foldlM (descend next (domain.length + 1) []) [] = .ok after from found] at agrees
  have walked : domain.foldl (explore next (domain.length + 1)) ⟨[], [], []⟩ = ⟨[], after, []⟩ := agrees
  have orders := @foldl_orders _ next (explore next (domain.length + 1)) domain ⟨[], [], []⟩ (fun _ _ => explore_visiting)
    (fun _ _ => explore_cycles) (fun before node member visiting ordered quiet =>
      explore_orders domain stays (visiting ▸ List.nodup_nil) (visiting ▸ List.nil_subset _) (by omega) member ordered quiet)
    trivial (by rw [walked])
  rw [walked] at orders
  exact ⟨orders.ordered, orders.visits⟩

/-- The search from every node succeeds exactly if no node leads back to itself. -/
theorem descendAll_iff {domain : List Node} (stays : ∀ one ∈ domain, next one ⊆ domain) (outside : ∀ one ∉ domain, next one = []) :
    (∃ after, descendAll next domain = .ok after) ↔ ∀ node, ¬ TransGen (Leads next) node node := by
  constructor
  · rintro ⟨after, found⟩ node cycle
    obtain ⟨ordered, visits⟩ := descendAll_orders stays found
    by_cases member : node ∈ domain
    · exact ordered.acyclic (visits member) cycle
    · obtain ⟨other, leads, _⟩ := TransGen.head'_iff.mp cycle
      rw [Leads, outside node member] at leads
      cases leads
  · intro acyclic
    have agrees := @foldlM_agrees _ [] [] domain (descend next (domain.length + 1) []) (explore next (domain.length + 1))
      (fun _ _ => explore_cycles) fun _ _ => descend_agrees
    have quiet (nodes : List Node) (search : Search Node) (visiting : search.visiting = []) :
        (nodes.foldl (explore next (domain.length + 1)) search).cycles = search.cycles := by
      induction nodes generalizing search with
      | nil => rfl
      | cons first rest ih =>
        rw [List.foldl_cons, ih _ (explore_visiting.trans visiting), explore_acyclic acyclic]
        rw [visiting]
        exact fun _ member => absurd member List.not_mem_nil
    have enough := descendAll_enough stays
    cases found : descendAll next domain with
    | ok after => exact ⟨after, rfl⟩
    | error halt =>
      cases halt with
      | exhausted => exact absurd found enough
      | cycle path =>
        rw [show domain.foldlM (descend next (domain.length + 1) []) [] = .error (.cycle path) from found] at agrees
        exact absurd (quiet domain _ rfl) agrees

end Descents

section BreadthFirst

variable [DecidableEq Node] {Report : Type*} {report : Node → List Report}

/-- Breadth first, each node's successors reported once. -/
def survey (next : Node → List Node) (report : Node → List Report) : Nat → List Node → List Node → List Report
  | 0, _, _ => []
  | _ + 1, _, [] => []
  | fuel + 1, visited, node :: queue =>
    if node ∈ visited then survey next report fuel visited queue
    else (next node).flatMap report ++ survey next report fuel (node :: visited) (queue ++ next node)

variable {fuel : Nat} {visited queue : List Node} {node : Node}

/-- The successors that are still to be queued. -/
def pending (next : Node → List Node) (domain : Finset Node) (visited : List Node) : Nat :=
  ∑ node ∈ domain \ visited.toFinset, (next node).length

theorem pending_visit {domain : Finset Node} (outside : ∀ node ∉ domain, next node = []) (fresh : node ∉ visited) :
    (next node).length + pending next domain (node :: visited) ≤ pending next domain visited := by
  unfold pending
  rw [List.toFinset_cons, Finset.sdiff_insert]
  by_cases member : node ∈ domain
  · have within : node ∈ domain \ visited.toFinset := Finset.mem_sdiff.mpr ⟨member, by simpa using fresh⟩
    rw [Finset.add_sum_erase _ (fun node => (next node).length) within]
  · rw [outside node member, List.length_nil, Nat.zero_add]
    exact Finset.sum_le_sum_of_subset (Finset.erase_subset _ _)

/-- A survey that has the fuel reports of everything that is reached. -/
theorem survey_covers (domain : Finset Node) (outside : ∀ node ∉ domain, next node = []) (enough : queue.length + pending next domain visited < fuel)
    (closed : ∀ one ∈ visited, ∀ other ∈ next one, report other = [] ∧ (other ∈ visited ∨ other ∈ queue))
    (quiet : survey next report fuel visited queue = []) :
    ∀ one, one ∈ visited ∨ one ∈ queue → ∀ other, TransGen (Leads next) one other → report other = [] := by
  induction fuel generalizing visited queue with
  | zero => omega
  | succ fuel ih =>
    cases queue with
    | nil =>
      intro one member other reaches
      have reached : report other = [] ∧ other ∈ visited := by
        have start := member.resolve_right List.not_mem_nil
        induction reaches with
        | single leads => exact (closed one start _ leads).imp_right fun found => found.resolve_right List.not_mem_nil
        | tail _ leads ih => exact (closed _ ih.2 _ leads).imp_right fun found => found.resolve_right List.not_mem_nil
      exact reached.1
    | cons first rest =>
      rw [survey] at quiet
      rw [List.length_cons] at enough
      split at quiet
      next seen =>
        have again := ih (by omega) (fun one member other leads => (closed one member other leads).imp_right fun found => by
          rcases found with found | found
          · exact .inl found
          · rcases List.mem_cons.mp found with rfl | found
            · exact .inl seen
            · exact .inr found) quiet
        intro one member
        apply again one
        rcases member with member | member
        · exact .inl member
        · rcases List.mem_cons.mp member with rfl | member
          · exact .inl seen
          · exact .inr member
      next fresh =>
        obtain ⟨here, later⟩ := List.append_eq_nil_iff.mp quiet
        have bound := pending_visit outside fresh
        have again := ih (by rw [List.length_append]; omega) (fun one member other leads => by
          rcases List.mem_cons.mp member with rfl | member
          · exact ⟨List.flatMap_eq_nil_iff.mp here other leads, .inr (List.mem_append_right _ leads)⟩
          · obtain ⟨silent, found⟩ := closed one member other leads
            refine ⟨silent, ?_⟩
            rcases found with found | found
            · exact .inl (List.mem_cons_of_mem _ found)
            · rcases List.mem_cons.mp found with rfl | found
              · exact .inl List.mem_cons_self
              · exact .inr (List.mem_append_left _ found)) later
        intro one member
        apply again one
        rcases member with member | member
        · exact .inl (List.mem_cons_of_mem _ member)
        · rcases List.mem_cons.mp member with rfl | member
          · exact .inl List.mem_cons_self
          · exact .inr (List.mem_append_left _ member)

/-- A survey reports of nothing but what is reached. -/
theorem survey_reached (start : Node) (reached : ∀ node ∈ queue, ReflTransGen (Leads next) start node)
    (silent : ∀ other, TransGen (Leads next) start other → report other = []) : survey next report fuel visited queue = [] := by
  induction fuel generalizing visited queue with
  | zero => rfl
  | succ fuel ih =>
    cases queue with
    | nil => rfl
    | cons first rest =>
      obtain ⟨here, later⟩ := List.forall_mem_cons.mp reached
      rw [survey]
      split
      · exact ih later
      · refine List.append_eq_nil_iff.mpr ⟨List.flatMap_eq_nil_iff.mpr fun other leads => silent other (.tail' here leads), ?_⟩
        apply ih
        intro node member
        rcases List.mem_append.mp member with waiting | led
        · exact later node waiting
        · exact here.tail led

end BreadthFirst

section Frontiers

variable {depends : Node → Node → Bool} {nodes found frontier : List Node}

variable [DecidableEq Node]

/-- The nodes that are not found yet and depend on one of the frontier. -/
def uncovered (depends : Node → Node → Bool) (nodes found frontier : List Node) : List Node :=
  nodes.filter fun candidate => decide (candidate ∉ found) && frontier.any (depends candidate)

theorem mem_uncovered {candidate : Node} : candidate ∈ uncovered depends nodes found frontier ↔
    candidate ∈ nodes ∧ candidate ∉ found ∧ ∃ one ∈ frontier, depends candidate one = true := by
  simp [uncovered]

def missing (nodes found : List Node) : List Node := nodes.filter fun candidate => decide (candidate ∉ found)

theorem missing_uncovered (fresh : uncovered depends nodes found frontier ≠ []) :
    (missing nodes (found ++ uncovered depends nodes found frontier)).length < (missing nodes found).length := by
  obtain ⟨one, member⟩ := List.exists_mem_of_ne_nil _ fresh
  obtain ⟨known, unseen, _⟩ := mem_uncovered.mp member
  have fewer : missing nodes (found ++ uncovered depends nodes found frontier) =
      (missing nodes found).filter fun candidate => decide (candidate ∉ uncovered depends nodes found frontier) := by
    simp only [missing, List.filter_filter, List.mem_append, not_or, Bool.decide_and]
    exact List.filter_congr fun _ _ => Bool.and_comm _ _
  rw [fewer]
  apply List.length_filter_lt_length_iff_exists.mpr
  exact ⟨one, by simp [missing, known, unseen], by simpa using member⟩

/-- All that depends on the frontier, directly or through others, beside what is found. -/
def gather (depends : Node → Node → Bool) (nodes found frontier : List Node) : List Node :=
  if frontier = [] then found
  else gather depends nodes (found ++ uncovered depends nodes found frontier) (uncovered depends nodes found frontier)
termination_by ((missing nodes found).length, frontier.length)
decreasing_by
  by_cases none : uncovered depends nodes found frontier = []
  · rw [none, List.append_nil]
    apply Prod.Lex.right
    exact List.length_pos_iff.mpr ‹_›
  · apply Prod.Lex.left
    exact missing_uncovered none

/-- A node that is known depends on another. -/
def Among (depends : Node → Node → Bool) (nodes : List Node) (one other : Node) : Prop := one ∈ nodes ∧ depends one other = true

theorem gather_nodup (distinct : nodes.Nodup) (apart : found.Nodup) : (gather depends nodes found frontier).Nodup := by
  induction found, frontier using gather.induct depends nodes with
  | case1 found => simpa [gather] using apart
  | case2 found frontier more ih =>
    rw [gather, if_neg more]
    apply ih
    apply apart.append (distinct.filter _)
    intro one old new
    exact (mem_uncovered.mp new).2.1 old

/-- Whatever is found depends on the start. -/
theorem gather_sound {start : Node} (sound : ∀ one ∈ found, TransGen (Among depends nodes) one start)
    (led : ∀ one ∈ frontier, ReflTransGen (Among depends nodes) one start) :
    ∀ one ∈ gather depends nodes found frontier, TransGen (Among depends nodes) one start := by
  induction found, frontier using gather.induct depends nodes with
  | case1 found => simpa [gather] using sound
  | case2 found frontier more ih =>
    rw [gather, if_neg more]
    have here : ∀ one ∈ uncovered depends nodes found frontier, TransGen (Among depends nodes) one start := by
      intro one member
      obtain ⟨known, _, other, waiting, edge⟩ := mem_uncovered.mp member
      exact .head' ⟨known, edge⟩ (led other waiting)
    apply ih
    · intro one member
      rcases List.mem_append.mp member with old | new
      · exact sound one old
      · exact here one new
    · exact fun one member => (here one member).to_reflTransGen

/-- Nothing that depends on the start or on what is found is left out. -/
theorem gather_closed {start : Node}
    (closed : ∀ one, one = start ∨ one ∈ found → one ∈ frontier ∨ ∀ other, Among depends nodes other one → other ∈ found) :
    ∀ one, one = start ∨ one ∈ gather depends nodes found frontier →
      ∀ other, Among depends nodes other one → other ∈ gather depends nodes found frontier := by
  induction found, frontier using gather.induct depends nodes with
  | case1 found =>
    rw [gather, if_pos rfl]
    exact fun one member => (closed one member).resolve_left List.not_mem_nil
  | case2 found frontier more ih =>
    rw [gather, if_neg more]
    apply ih
    intro one member
    by_cases new : one ∈ uncovered depends nodes found frontier
    · exact .inl new
    right
    intro other edge
    have old : one = start ∨ one ∈ found := by
      rcases member with same | member
      · exact .inl same
      · exact .inr ((List.mem_append.mp member).resolve_right new)
    rcases closed one old with waiting | done
    · by_cases seen : other ∈ found
      · exact List.mem_append_left _ seen
      · exact List.mem_append_right _ (mem_uncovered.mpr ⟨edge.1, seen, one, waiting, edge.2⟩)
    · exact List.mem_append_left _ (done other edge)

/-- The search finds what the start is reached from. -/
theorem mem_gather {start one : Node} : one ∈ gather depends nodes [] [start] ↔ TransGen (Among depends nodes) one start := by
  constructor
  · apply gather_sound
    · exact fun _ impossible => absurd impossible List.not_mem_nil
    · intro one member
      rw [List.mem_singleton.mp member]
  · intro reaches
    have closed : ∀ one, one = start ∨ one ∈ gather depends nodes [] [start] →
        ∀ other, Among depends nodes other one → other ∈ gather depends nodes [] [start] := by
      apply gather_closed
      intro one member
      left
      simpa using member
    induction reaches using TransGen.head_induction_on with
    | single edge => exact closed start (.inl rfl) _ edge
    | head edge _ ih => exact closed _ (.inr ih) _ edge

end Frontiers

section Queues

variable [DecidableEq Node] {nodes : List Node} {start one other : Node}

/-- The nodes found, those whose successors are still to be looked at, and from where each was found. -/
structure Flood (Node : Type*) where
  found : List Node
  queue : List Node
  origins : List (Node × Node)

variable {state : Flood Node}

def Flood.add (parent : Node) (state : Flood Node) (child : Node) : Flood Node :=
  if child ∈ state.found then state else ⟨state.found ++ [child], state.queue ++ [child], state.origins ++ [(child, parent)]⟩

/-- What is still to be found counts twice. -/
def Flood.weight (nodes : List Node) (state : Flood Node) : Nat := 2 * (missing nodes state.found).length + state.queue.length

theorem missing_found {found : List Node} (member : one ∈ nodes) (fresh : one ∉ found) :
    (missing nodes (found ++ [one])).length < (missing nodes found).length := by
  have fewer : missing nodes (found ++ [one]) = (missing nodes found).filter fun candidate => decide (candidate ≠ one) := by
    simp only [missing, List.filter_filter, List.mem_append, not_or, List.mem_singleton, Bool.decide_and, ne_eq, Bool.and_comm]
  rw [fewer]
  apply List.length_filter_lt_length_iff_exists.mpr
  exact ⟨one, List.mem_filter.mpr ⟨member, decide_eq_true fresh⟩, by simp⟩

theorem Flood.weight_add {parent : Node} (member : other ∈ nodes) : (state.add parent other).weight nodes ≤ state.weight nodes := by
  unfold Flood.add
  split
  · exact le_rfl
  next fresh =>
    have fewer := missing_found member fresh
    simp only [Flood.weight, List.length_append, List.length_singleton]
    omega

theorem Flood.weight_adds {parent : Node} {children : List Node} (among : children ⊆ nodes) :
    (children.foldl (Flood.add parent) state).weight nodes ≤ state.weight nodes := by
  induction children generalizing state with
  | nil => exact le_rfl
  | cons child rest ih =>
    obtain ⟨here, later⟩ := List.cons_subset.mp among
    exact (ih later).trans (Flood.weight_add here)

/-- Breadth first from the queue, each node's successors looked at once. -/
def flood (next : Node → List Node) (nodes : List Node) (stays : ∀ one, next one ⊆ nodes) (state : Flood Node) : Flood Node :=
  match _waiting : state.queue with
  | [] => state
  | parent :: queue => flood next nodes stays ((next parent).foldl (Flood.add parent) { state with queue := queue })
termination_by state.weight nodes
decreasing_by
  apply (Flood.weight_adds (stays parent)).trans_lt
  simp only [Flood.weight, _waiting, List.length_cons]
  omega

theorem adds_found {parent : Node} {children : List Node} :
    one ∈ (children.foldl (Flood.add parent) state).found ↔ one ∈ state.found ∨ one ∈ children := by
  induction children generalizing state with
  | nil => simp
  | cons child rest ih =>
    rw [List.foldl_cons, ih, Flood.add, List.mem_cons]
    split
    next held =>
      constructor
      · rintro (old | new)
        · exact .inl old
        · exact .inr (.inr new)
      · rintro (old | rfl | new)
        · exact .inl old
        · exact .inl held
        · exact .inr new
    next fresh => simp only [List.mem_append, List.mem_singleton, or_assoc]

theorem adds_waiting {parent : Node} {children : List Node} (waiting : one ∈ state.queue) :
    one ∈ (children.foldl (Flood.add parent) state).queue := by
  induction children generalizing state with
  | nil => exact waiting
  | cons child rest ih =>
    apply ih
    unfold Flood.add
    split
    · exact waiting
    · exact List.mem_append_left _ waiting

theorem adds_queue {parent : Node} {children : List Node} (found : one ∈ (children.foldl (Flood.add parent) state).found)
    (fresh : one ∉ state.found) : one ∈ (children.foldl (Flood.add parent) state).queue := by
  induction children generalizing state with
  | nil => exact absurd found fresh
  | cons child rest ih =>
    rw [List.foldl_cons] at found ⊢
    by_cases held : one ∈ (state.add parent child).found
    · apply adds_waiting
      unfold Flood.add at held ⊢
      split
      next old =>
        rw [if_pos old] at held
        exact absurd held fresh
      next new =>
        rw [if_neg new] at held
        rcases List.mem_append.mp held with old | same
        · exact absurd old fresh
        · exact List.mem_append_right _ same
    · exact ih found held

/-- Whatever waits is found. -/
def Flood.Listed (state : Flood Node) : Prop := ∀ one ∈ state.queue, one ∈ state.found

theorem adds_listed {parent : Node} {children : List Node} (listed : state.Listed) : (children.foldl (Flood.add parent) state).Listed := by
  induction children generalizing state with
  | nil => exact listed
  | cons child rest ih =>
    apply ih
    intro one waiting
    unfold Flood.add at waiting ⊢
    split at waiting
    next old =>
      rw [if_pos old]
      exact listed one waiting
    next new =>
      rw [if_neg new]
      rcases List.mem_append.mp waiting with old | same
      · exact List.mem_append_left _ (listed one old)
      · exact List.mem_append_right _ same

variable {stays : ∀ one, next one ⊆ nodes}

theorem flood_done (done : state.queue = []) : flood next nodes stays state = state := by
  rw [flood]
  split
  · rfl
  next parent queue waiting => simp [done] at waiting

theorem flood_step {parent : Node} {queue : List Node} (waiting : state.queue = parent :: queue) : flood next nodes stays state =
    flood next nodes stays ((next parent).foldl (Flood.add parent) { state with queue := queue }) := by
  rw [flood]
  split
  next done => simp [done] at waiting
  next first rest waiting' =>
    obtain ⟨rfl, rfl⟩ := List.cons.inj (waiting.symm.trans waiting')
    rfl

theorem flood_keeps (member : one ∈ state.found) : one ∈ (flood next nodes stays state).found := by
  induction state using flood.induct next nodes stays with
  | case1 state done =>
    rw [flood_done done]
    exact member
  | case2 state parent queue waiting ih =>
    rw [flood_step waiting]
    exact ih (adds_found.mpr (.inl member))

/-- Whatever is found is reached. -/
theorem flood_sound {starts : List Node} (sound : ∀ one ∈ state.found, ∃ start ∈ starts, ReflTransGen (Leads next) start one)
    (listed : state.Listed) : ∀ one ∈ (flood next nodes stays state).found, ∃ start ∈ starts, ReflTransGen (Leads next) start one := by
  induction state using flood.induct next nodes stays with
  | case1 state done =>
    rw [flood_done done]
    exact sound
  | case2 state parent queue waiting ih =>
    rw [flood_step waiting]
    obtain ⟨start, member, reaches⟩ := sound parent (listed parent (waiting ▸ List.mem_cons_self))
    apply ih
    · intro one found
      rcases adds_found.mp found with old | new
      · exact sound one old
      · exact ⟨start, member, reaches.tail new⟩
    · apply adds_listed
      intro one later
      exact listed one (waiting ▸ List.mem_cons_of_mem _ later)

/-- Nothing that is found, and does not wait, leads out of what is found. -/
theorem flood_closed (closed : ∀ one ∈ state.found, one ∈ state.queue ∨ ∀ other ∈ next one, other ∈ state.found) :
    ∀ one ∈ (flood next nodes stays state).found, ∀ other ∈ next one, other ∈ (flood next nodes stays state).found := by
  induction state using flood.induct next nodes stays with
  | case1 state done =>
    rw [flood_done done]
    intro one member
    exact (closed one member).resolve_left (by simp [done])
  | case2 state parent queue waiting ih =>
    rw [flood_step waiting]
    apply ih
    intro one member
    by_cases old : one ∈ state.found
    · rcases closed one old with later | done
      · rw [waiting] at later
        rcases List.mem_cons.mp later with rfl | later
        · exact .inr fun other led => adds_found.mpr (.inr led)
        · exact .inl (adds_waiting later)
      · exact .inr fun other led => adds_found.mpr (.inl (done other led))
    · exact .inl (adds_queue member old)

/-- From some nodes, exactly what they reach is found. -/
theorem mem_flood {starts : List Node} {origins : List (Node × Node)} :
    one ∈ (flood next nodes stays ⟨starts, starts, origins⟩).found ↔ ∃ start ∈ starts, ReflTransGen (Leads next) start one := by
  constructor
  · apply flood_sound
    · exact fun start member => ⟨start, member, .refl⟩
    · exact fun _ member => member
  · rintro ⟨start, member, reaches⟩
    have closed := @flood_closed _ next _ nodes ⟨starts, starts, origins⟩ stays fun one member => .inl member
    induction reaches with
    | refl => exact flood_keeps member
    | tail _ leads ih => exact closed _ ih _ leads

end Queues

end SecureHome.Lib
