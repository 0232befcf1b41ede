import SecureHome.Lib.Folding
import SecureHome.Proofs.CanonicalForm
import SecureHome.Proofs.GovernanceHistory
import SecureHome.Proofs.ValidState

/-! Governance readiness is monotone: what a question, a gate or a landing has reached in one
revision, an accepted change of the registry does not take back. -/

namespace SecureHome.Governance
open Lib

section Derivations

variable {Context : Type} {checks : OtherChecks Context} {state : Value} {questions : List (JsString × Question)}
  {gates : List (JsString × Gate)} {id : JsString}

/-- The answer of one gate. -/
def gateOf (questions : List (JsString × Question)) (gate : Value) : Gate :=
  match questions.lookup (textOf (readIn (read gate "predicate") "question")) with
  | none => ⟨false, false⟩
  | some question =>
    if isText (readIn (read gate "predicate") "name") "exactly-one-current-accepted-resolver" then ⟨question.resolved, true⟩
    else ⟨false, false⟩

theorem deriveGates_puts : (deriveGates state questions).2 =
    (members state "gates").foldl (fun gates gate => put gates (textOf (read gate "id")) (gateOf questions gate)) [] := by
  unfold deriveGates
  refine (foldl_changed Prod.snd (fun gate _ state => ?_) ([], [])).symm
  unfold gateOf
  dsimp only
  cases questions.lookup (textOf (readIn (read gate "predicate") "question")) with
  | none => rfl
  | some question =>
    dsimp only
    split <;> rfl

theorem gateOf_satisfied {gate : Value} : (gateOf questions gate).satisfied = true ↔
    (∃ question, questions.lookup (textOf (readIn (read gate "predicate") "question")) = some question ∧ question.resolved = true) ∧
      isText (readIn (read gate "predicate") "name") "exactly-one-current-accepted-resolver" = true := by
  unfold gateOf
  split
  next unknown => simp [unknown]
  next question found =>
    rw [found]
    split
    next known => simp [known]
    next unknown => simp [unknown]

/-- What a landing may require. -/
def Met (state : Value) (gates : List (JsString × Gate)) (id : JsString) : Prop :=
  (∃ gate, gates.lookup id = some gate ∧ gate.satisfied = true) ∨
    ∃ landing ∈ members state "landings", isText (lifecycleOf landing) "Complete" = true ∧ textOf (read landing "id") = id

/-- A landing is ready once all it requires is met. -/
theorem readiness_ready (distinct : (gates.map Prod.fst).Nodup) {info : NodeInfo} {landing : Value} (nodes : Named (nodesOf state))
    (member : landing ∈ members state "landings") (held : idOf landing = some id) :
    ((deriveReadiness state info gates).lookup id).map Readiness.ready = some true ↔ ∀ required ∈ requiresOf landing, Met state gates required := by
  have alone : ∀ other ∈ members state "landings", textOf (read other "id") = textOf (read landing "id") → other = landing := by
    intro other member' same
    obtain ⟨name, held'⟩ := nodes.right.each other member'
    rw [textOf_id held, textOf_id held'] at same
    exact nodes.right.alone member' member (held'.trans (same ▸ held.symm))
  unfold deriveReadiness
  rw [← textOf_id held, lookup_puts_mem member alone, Option.map_some, Option.some_inj, List.isEmpty_iff, List.filter_eq_nil_iff]
  refine forall₂_congr fun required _ => ?_
  rw [Bool.not_eq_true', Bool.not_eq_false, List.contains_iff_mem, List.mem_append]
  refine or_congr ?_ ?_
  · rw [List.mem_map]
    constructor
    · rintro ⟨⟨other, gate⟩, listed, rfl⟩
      obtain ⟨among, satisfied⟩ := List.mem_filter.mp listed
      exact ⟨gate, lookup_of_mem distinct among, satisfied⟩
    · rintro ⟨gate, found, satisfied⟩
      exact ⟨(required, gate), List.mem_filter.mpr ⟨mem_of_lookup found, satisfied⟩, rfl⟩
  · rw [List.mem_map]
    constructor
    · rintro ⟨other, listed, rfl⟩
      obtain ⟨among, complete⟩ := List.mem_filter.mp listed
      exact ⟨other, among, complete, rfl⟩
    · rintro ⟨other, among, complete, rfl⟩
      exact ⟨other, List.mem_filter.mpr ⟨among, complete⟩, rfl⟩

end Derivations

section Pairs

variable {Context : Type} {checks : OtherChecks Context} {others : OtherComparisons Context} {base target : Revision Context} {id : JsString}

def Resolved (evaluation : Evaluation Context) (id : JsString) : Prop :=
  ∃ derived question, evaluation.derived = some derived ∧ derived.questions.lookup id = some question ∧ question.resolved = true

def Satisfied (evaluation : Evaluation Context) (id : JsString) : Prop :=
  ∃ derived gate, evaluation.derived = some derived ∧ derived.gates.lookup id = some gate ∧ gate.satisfied = true

def Ready (evaluation : Evaluation Context) (id : JsString) : Prop :=
  ∃ derived, evaluation.derived = some derived ∧ (derived.readiness.lookup id).map Readiness.ready = some true

theorem resolved_stays {one other : Evaluation Context} (quiet : compareResolvers (some one) (some other) = []) (resolved : Resolved one id)
    (derives : ∃ derived, other.derived = some derived) : Resolved other id := by
  obtain ⟨derived, question, held, found, answered⟩ := resolved
  obtain ⟨after, held'⟩ := derives
  unfold compareResolvers at quiet
  simp only [List.flatMap_eq_nil_iff, Option.bind_some, held, held', Option.map_some, Option.getD_some] at quiet
  have kept := quiet (id, question) (mem_of_lookup found)
  rw [if_pos answered] at kept
  split at kept
  · cases kept
  · rw [refuse_nil, decide_eq_false_iff_not, not_not] at kept
    obtain ⟨question', found', answered'⟩ := Option.map_eq_some_iff.mp kept
    exact ⟨after, question', held', found', answered'⟩

/-- A property that is a string stays that string. -/
theorem Unchanged.text {before after : Option Value} (kept : Unchanged before after) {name : String} {text : JsString}
    (held : readIn before name = some (.string text)) : readIn after name = some (.string text) := by
  have child {value : Option Value} : (value.getD .null).child (.key (units name)) = readIn value name := by
    cases value <;> rfl
  rw [← child, ← canonical_child_string, kept, canonical_child_string, child] at held
  exact held

theorem Unchanged.strings {before after : Option Value} (kept : Unchanged before after) {texts : List JsString}
    (held : before = some (.array (texts.map .string))) : after = some (.array (texts.map .string)) :=
  canonical_strings.mp (kept.symm.trans (canonical_strings.mpr held))

/-- A node of a collection stays in it, with its rule inputs. -/
theorem node_stays (moves : Moves checks others base target) (nodes : Named (nodesOf (base.state checks)))
    (nodes' : Named (nodesOf (target.state checks))) {collection : String} (listed : collection ∈ collections)
    (within : ∀ state, ∀ node ∈ members state collection, node ∈ nodesOf state) {node : Value}
    (member : node ∈ members (base.state checks) collection) (held : idOf node = some id) :
    ∃ node', recordOf collection id (target.state checks) = some node' ∧ node' ∈ members (target.state checks) collection ∧
      idOf node' = some id ∧ NodeKept node node' := by
  obtain ⟨found, here⟩ := Option.ne_none_iff_exists'.mp (lookup_byId_iff.mpr ⟨node, member, held⟩)
  obtain ⟨node', there, _⟩ := moves.records listed found here
  obtain ⟨member', held'⟩ := (byId_indexed _).listed id node' there
  refine ⟨node', there, member', held', ?_⟩
  exact node_moves moves.rules moves.replacement (nodes.lookup (within _ node member) held) (nodes'.lookup (within _ node' member') held')

theorem gate_stays (moves : Moves checks others base target) (valid : ValidState (base.state checks)) (valid' : ValidState (target.state checks))
    {gate : Value} (member : gate ∈ members (base.state checks) "gates") (held : idOf gate = some id) :
    ∃ gate' ∈ members (target.state checks) "gates", idOf gate' = some id ∧
      ∀ name text, readIn (read gate "predicate") name = some (.string text) → readIn (read gate' "predicate") name = some (.string text) := by
  obtain ⟨gate', _, member', held', kept⟩ := node_stays moves valid.nodes valid'.nodes (by decide)
    (fun _ _ among => List.mem_append_left _ among) member held
  refine ⟨gate', member', held', ?_⟩
  intro name text asked
  have predicates := kept.identity "predicate"
  unfold semanticIdentity at predicates
  rw [(valid.gates gate member).kind, (valid'.gates gate' member').kind] at predicates
  exact Unchanged.text predicates asked

theorem satisfied_stays (moves : Moves checks others base target) (valid : ValidState (base.state checks))
    (valid' : ValidState (target.state checks)) {questions questions' : List (JsString × Question)}
    (resolved : ∀ question, (∃ held, questions.lookup question = some held ∧ held.resolved = true) →
      ∃ held, questions'.lookup question = some held ∧ held.resolved = true)
    (satisfied : ∃ gate, (deriveGates (base.state checks) questions).2.lookup id = some gate ∧ gate.satisfied = true) :
    ∃ gate, (deriveGates (target.state checks) questions').2.lookup id = some gate ∧ gate.satisfied = true := by
  obtain ⟨answer, found, satisfied⟩ := satisfied
  rw [deriveGates_puts] at found ⊢
  obtain ⟨gate, member, name, rfl⟩ := lookup_of_puts found
  obtain ⟨text, held⟩ := (valid.gates gate member).id
  rw [textOf_id held] at name
  subst name
  obtain ⟨gate', member', held', asked⟩ := gate_stays moves valid valid' member held
  obtain ⟨answered, vocabulary⟩ := gateOf_satisfied.mp satisfied
  obtain ⟨question, asks⟩ := (valid.gates gate member).question
  have alone : ∀ other ∈ members (target.state checks) "gates", textOf (read other "id") = textOf (read gate' "id") → other = gate' := by
    intro other member'' same
    obtain ⟨name, named⟩ := (valid'.gates other member'').id
    rw [textOf_id named, textOf_id held'] at same
    exact valid'.nodes.left.alone member'' member' (named.trans (same ▸ held'.symm))
  refine ⟨gateOf questions' gate', ?_, ?_⟩
  · rw [← textOf_id held']
    exact lookup_puts_mem member' alone
  · refine gateOf_satisfied.mpr ⟨?_, ?_⟩
    · rw [asked _ _ asks]
      rw [asks] at answered
      exact resolved _ answered
    · exact isText_iff.mpr (asked _ _ (isText_iff.mp vocabulary))

/-- A landing stays in the registry, requires what it did, and stays complete. -/
theorem landing_stays (moves : Moves checks others base target) (valid : ValidState (base.state checks))
    (valid' : ValidState (target.state checks)) {landing : Value} (member : landing ∈ members (base.state checks) "landings")
    (held : idOf landing = some id) :
    ∃ landing' ∈ members (target.state checks) "landings", idOf landing' = some id ∧ requiresOf landing' = requiresOf landing ∧
      (isText (lifecycleOf landing) "Complete" = true → isText (lifecycleOf landing') "Complete" = true) := by
  obtain ⟨landing', found', member', held', kept⟩ := node_stays moves valid.nodes valid'.nodes (by decide)
    (fun _ _ among => List.mem_append_right _ among) member held
  refine ⟨landing', member', held', ?_, ?_⟩
  · obtain ⟨ids, requires, _⟩ := (valid.landings landing member).requires
    have unchanged := kept.identity "requires"
    unfold semanticIdentity at unchanged
    rw [(valid.landings landing member).not_gate, (valid'.landings landing' member').not_gate] at unchanged
    rw [requiresOf_eq requires, requiresOf_eq (Unchanged.strings unchanged requires)]
  · intro complete
    have delivery := (delivery_moves moves.sound moves.delivery (valid.nodes.right.lookup member held) found').2
    exact (delivery.completed complete).1

/-- What an accepted revision is, and all that is derived of it. -/
theorem derived_state (ok : (base.evaluation checks).ok = true) :
    ValidState (base.state checks) ∧ (base.evaluation checks).derived = some (derivedOf checks (base.state checks)) := by
  obtain ⟨state, shape, _, held, derived⟩ := evaluateState_accepts ok
  have same : base.state checks = state := by
    unfold Revision.state stateOf
    rw [Option.bind_some, Revision.evaluation, held, Option.getD_some]
  rw [same]
  exact ⟨validState shape, derived⟩

theorem readiness_monotone (ok : (base.evaluation checks).ok = true) (ok' : (target.evaluation checks).ok = true)
    (accepted : Accepted checks others base target) :
    (∀ question, Resolved (base.evaluation checks) question → Resolved (target.evaluation checks) question) ∧
      (∀ gate, Satisfied (base.evaluation checks) gate → Satisfied (target.evaluation checks) gate) ∧
      ∀ landing, Ready (base.evaluation checks) landing → Ready (target.evaluation checks) landing := by
  have moves := moves_of_accepted ok ok' accepted
  obtain ⟨valid, derived⟩ := derived_state ok
  obtain ⟨valid', derived'⟩ := derived_state ok'
  have resolvers : compareResolvers (some (base.evaluation checks)) (some (target.evaluation checks)) = [] := by
    have quiet := accepted_quiet accepted
    unfold comparePair at quiet
    simp only [List.append_eq_nil_iff] at quiet
    exact quiet.1.1.1.2
  have questions (question : JsString) (resolved : Resolved (base.evaluation checks) question) :
      Resolved (target.evaluation checks) question := resolved_stays resolvers resolved ⟨_, derived'⟩
  have answered (question : JsString)
      (resolved : ∃ held, (deriveQuestions (base.state checks)).2.lookup question = some held ∧ held.resolved = true) :
      ∃ held, (deriveQuestions (target.state checks)).2.lookup question = some held ∧ held.resolved = true := by
    obtain ⟨held, found, yes⟩ := resolved
    obtain ⟨after, held', there, found', yes'⟩ := questions question ⟨_, held, derived, found, yes⟩
    cases derived'.symm.trans there
    exact ⟨held', found', yes'⟩
  refine ⟨questions, ?_, ?_⟩
  · rintro gate ⟨before, answer, held, found, yes⟩
    cases derived.symm.trans held
    obtain ⟨answer', found', yes'⟩ := satisfied_stays moves valid valid' answered ⟨answer, found, yes⟩
    exact ⟨_, answer', derived', found', yes'⟩
  · rintro landing ⟨before, held, ready⟩
    cases derived.symm.trans held
    have distinct {state : Value} {questions : List (JsString × Question)} : ((deriveGates state questions).2.map Prod.fst).Nodup := by
      rw [deriveGates_puts]
      exact puts_distinct List.nodup_nil
    obtain ⟨readiness, found, _⟩ := Option.map_eq_some_iff.mp ready
    obtain ⟨record, member, name, _⟩ := lookup_of_puts found
    obtain ⟨id, named⟩ := (valid.landings record member).id
    rw [textOf_id named] at name
    subst name
    obtain ⟨record', member', named', requires, _⟩ := landing_stays moves valid valid' member named
    have met := (readiness_ready distinct valid.nodes member named).mp ready
    refine ⟨_, derived', (readiness_ready distinct valid'.nodes member' named').mpr ?_⟩
    rw [requires]
    intro required listed
    rcases met required listed with satisfied | ⟨other, among, complete, name⟩
    · exact .inl (satisfied_stays moves valid valid' answered satisfied)
    · obtain ⟨text, named⟩ := (valid.landings other among).id
      rw [textOf_id named] at name
      subst name
      obtain ⟨other', among', named', _, ended⟩ := landing_stays moves valid valid' among named
      exact .inr ⟨other', among', ended complete, textOf_id named'⟩

end Pairs

namespace Sample

theorem begun_ready : Ready ((revision begun "b").evaluation readsBoth) (units "runner/L2") := by
  obtain ⟨ready, first, second, accepted⟩ := begun_accepted
  apply (readiness_monotone first second ⟨_, _, accepted⟩).2.2
  obtain ⟨derived, held, found⟩ := Option.bind_eq_some_iff.mp ready
  exact ⟨derived, held, found⟩

end Sample

end SecureHome.Governance
