import SecureHome.Proofs.ReplacementGraph

/-! The rules of the replacement graph, told without the searches that enforce them. A valid
state is refused for its nodes exactly if one of the rules is broken. -/

namespace SecureHome.Governance
open Lib Relation

section Rules

variable {Context : Type} {checks : OtherChecks Context} {state : Value}

/-- What every node of a registry abides by. -/
structure Wired (checks : OtherChecks Context) (state : Value) : Prop where
  linked : ∀ id node target, nodeOf id state = some node → named node = some target →
    ∃ old, nodeOf target state = some old ∧ linkProblems checks id node old = []
  single : ∀ one two target, replacedOf state one = some target → replacedOf state two = some target → one = two
  ends : ∀ id ∈ idsOf state, ∃ trail, Trails (replacedOf state) (some id) trail
  exist : ∀ id prerequisite, Requires state id prerequisite → prerequisite ∈ idsOf state
  acyclic : ∀ id, ¬ TransGen (Requires state) id id
  current : ∀ id prerequisite, Requires state id prerequisite → Replaced state prerequisite → Replaced state id
  repointed : ∀ id target, replacedOf state id = some target → ∀ prerequisite, Requires state id prerequisite ↔
    ∃ old, Requires state target old ∧ (replacedOf state prerequisite = some old ∨ ¬ Replaced state old ∧ prerequisite = old)
  start : ∀ id node, nodeOf id state = some node → startProblems id node = []

theorem requires_held {id prerequisite : JsString} (requires : Requires state id prerequisite) : id ∈ idsOf state := by
  obtain ⟨node, found, _⟩ := requires
  exact mem_keys.mpr ⟨node, found⟩

variable (valid : ValidState state)
include valid

theorem wired_of_derivable (derivable : Derivable checks state) : Wired checks state where
  linked _ _ _ found name := replaced_linked valid derivable found name
  single one two target first second := by
    have here := (valid.replacer_iff derivable.links).mpr first
    exact Option.some.inj (here.symm.trans ((valid.replacer_iff derivable.links).mpr second))
  ends := (stranded valid derivable).ends
  exist _ _ := required_exists valid derivable
  acyclic := requires_acyclic valid derivable
  current id prerequisite requires replaced := dependents_replaced valid derivable (.single requires) replaced
  repointed _ _ := replaced_repointed valid derivable
  start id node found := derivable.start (id, node) (mem_byId.mpr found)

variable (wired : Wired checks state)
include wired

theorem links_quiet : (linkNodes checks (byId (nodesOf state)) (byId (nodesOf state)) []).1 = [] := by
  refine linkNodes_quiet valid.names ?_ (fun _ _ _ _ => rfl) ?_
  · intro entry member target name
    exact ⟨wired.linked entry.1 entry.2 target (mem_byId.mp member) name⟩
  · refine List.Nodup.pairwise_of_forall_ne ((byId_indexed (nodesOf state)).distinct.of_map _) ?_
    intro one member other member' different target name name'
    have replaces {entry : JsString × Value} (member : entry ∈ byId (nodesOf state)) (name : named entry.2 = some target) :
        replacedOf state entry.1 = some target := Option.bind_eq_some_iff.mpr ⟨entry.2, mem_byId.mp member, name⟩
    have same := wired.single one.1 other.1 target (replaces member name) (replaces member' name')
    apply different
    refine Prod.ext same ?_
    exact Option.some.inj ((mem_byId.mp member).symm.trans (same ▸ mem_byId.mp member'))

omit valid in
theorem visit_quiet : (((members state "landings").map fun landing => textOf (read landing "id")).foldl
    (visitPrerequisites (byId (nodesOf state)) ((byId (nodesOf state)).length + 2)) ⟨[], [], []⟩).problems = [] := by
  have acyclic (id : JsString) : ¬ TransGen (Leads (prerequisitesOf (byId (nodesOf state)))) id id := by
    intro cycle
    refine wired.acyclic id (TransGen.mono ?_ _ _ cycle)
    intro one other leads
    obtain ⟨required, _⟩ := List.mem_filter.mp leads
    cases found : (byId (nodesOf state)).lookup one with
    | none =>
      rw [found] at required
      cases required
    | some node =>
      rw [found] at required
      exact ⟨node, found, required⟩
  have walk (ids : List JsString) (search : Search JsString) (start : search.visiting = []) :
      (ids.foldl (explore (prerequisitesOf (byId (nodesOf state))) ((byId (nodesOf state)).length + 2)) search).cycles = search.cycles := by
    induction ids generalizing search with
    | nil => rfl
    | cons id rest ih =>
      rw [List.foldl_cons, ih _ (explore_visiting.trans start), explore_acyclic acyclic]
      rw [start]
      exact fun _ member => absurd member List.not_mem_nil
  rw [show (⟨[], [], []⟩ : Visit) = asVisit ⟨[], [], []⟩ from rfl, visit_explores]
  exact List.map_eq_nil_iff.mpr (walk _ ⟨[], [], []⟩ rfl)

theorem closure_quiet (entry : JsString × JsString) (member : entry ∈ replacersOf checks state) (fuel : Nat) :
    closureProblems (dependentsOf (byId (nodesOf state)) (members state "landings")) (replacersOf checks state) fuel [] [entry.1] = [] := by
  have links := links_quiet valid wired
  have replaced {target : JsString} (held : (replacersOf checks state).lookup target ≠ none) : Replaced state target := by
    obtain ⟨id, found⟩ := Option.ne_none_iff_exists'.mp held
    exact ⟨id, (valid.replacer_iff links).mp found⟩
  have start : Replaced state entry.1 := by
    apply replaced
    obtain ⟨id, found⟩ := mem_keys.mp (List.mem_map_of_mem (f := Prod.fst) member)
    exact found ▸ Option.some_ne_none id
  rw [closureProblems_surveys]
  refine survey_reached entry.1 (fun node queued => List.mem_singleton.mp queued ▸ .refl) ?_
  intro other reaches
  have reached : Replaced state other := by
    have step {one other : JsString} (leads : Leads (dependentsOf (byId (nodesOf state)) (members state "landings")) one other) :
        Requires state other one := by
      obtain ⟨_, landing, listed, required, rfl⟩ := mem_dependentsOf.mp leads
      obtain ⟨id, held⟩ := (valid.landings landing listed).id
      exact valid.requires_iff.mpr ⟨landing, listed, textOf_id held ▸ held, required⟩
    induction reaches with
    | single leads => exact wired.current _ _ (step leads) start
    | tail _ leads ih => exact wired.current _ _ (step leads) ih
  obtain ⟨replacer, replaces⟩ := reached
  rw [refuse_nil, (valid.replacer_iff links).mpr replaces]
  rfl

theorem repoint_quiet (entry : JsString × Value) (member : entry ∈ byId (nodesOf state)) :
    repointProblems (byId (nodesOf state)) (replacersOf checks state) entry.1 entry.2 = [] := by
  have links := links_quiet valid wired
  have found : nodeOf entry.1 state = some entry.2 := mem_byId.mp member
  unfold repointProblems
  split
  · rfl
  split
  · rfl
  next oldNode bound =>
    obtain ⟨target, name, held⟩ := Option.bind_eq_some_iff.mp bound
    split
    · rfl
    · dsimp only
      have there : nodeOf target state = some oldNode := held
      have same (id : JsString) : id ∈ requiresOf entry.2 ↔
          id ∈ (requiresOf oldNode).map fun prerequisite => ((replacersOf checks state).lookup prerequisite).getD prerequisite := by
        rw [← requires_at found, wired.repointed entry.1 target (Option.bind_eq_some_iff.mpr ⟨entry.2, found, name⟩), List.mem_map]
        refine exists_congr fun old => ?_
        rw [requires_at there, valid.repointed_iff links]
      rw [refuse_nil, Bool.or_eq_false_iff, decide_eq_false_iff_not, not_not, List.any_eq_false]
      constructor
      · rw [← List.card_toFinset, ← List.card_toFinset]
        exact congrArg Finset.card (Finset.ext fun id => by rw [List.mem_toFinset, List.mem_toFinset, same])
      · intro id listed
        simpa using (same id).mpr listed

theorem derivable_of_wired : Derivable checks state where
  links := links_quiet valid wired
  cycles entry member := by
    have held : entry.1 ∈ idsOf state := List.mem_map_of_mem member
    obtain ⟨trail, trails⟩ := wired.ends entry.1 held
    have after : targetIn (byId (nodesOf state)) entry.1 = textAt entry.2 "replaces" := by
      unfold targetIn
      rw [mem_byId.mp member, Option.bind_some]
    have apart := trails.nodup
    cases trails with
    | @step _ rest later =>
      have walk : Trails (targetIn (byId (nodesOf state))) (textAt entry.2 "replaces") rest := after ▸ later
      refine meetsCycle_quiet walk ?_
      intro id listed again
      exact (List.nodup_cons.mp apart).1 (List.mem_singleton.mp again ▸ listed)
  missing landing member prerequisite required := by
    obtain ⟨id, held⟩ := (valid.landings landing member).id
    obtain ⟨node, found⟩ := mem_keys.mp (wired.exist id prerequisite (valid.requires_iff.mpr ⟨landing, member, held, required⟩))
    exact found ▸ Option.some_ne_none node
  visit := visit_quiet wired
  stale landing member current prerequisite required := by
    obtain ⟨id, held⟩ := (valid.landings landing member).id
    have requires := valid.requires_iff.mpr ⟨landing, member, held, required⟩
    have links := links_quiet valid wired
    rw [textOf_id held] at current
    refine (valid.current_iff links).mpr ⟨wired.exist id prerequisite requires, ?_⟩
    intro replaced
    exact ((valid.current_iff links).mp current).2 (wired.current id prerequisite requires replaced)
  closure entry member := closure_quiet valid wired entry member _
  repoint entry member := repoint_quiet valid wired entry member
  start entry member := wired.start entry.1 entry.2 (mem_byId.mp member)

end Rules

/-- A valid state is refused for its nodes exactly if they break a rule. -/
theorem deriveNodes_iff {Context : Type} {checks : OtherChecks Context} {state : Value} (valid : ValidState state) :
    (deriveNodes checks state).1 = [] ↔ Wired checks state := by
  rw [deriveNodes_nil]
  exact ⟨wired_of_derivable valid, derivable_of_wired valid⟩

end SecureHome.Governance
