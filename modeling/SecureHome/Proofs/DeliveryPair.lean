import SecureHome.Proofs.DeliveryStart

/-! A landing taken into progress, and the revision before: the pairwise rules find nothing. -/

namespace SecureHome.Governance
open Lib

section Claims

variable {path : JsString} {found : List (JsString × JsString)}

mutual

theorem claims_distinct : (value : Value) → ∀ path found, (found.map Prod.fst).Nodup → ((authorizationClaims path found value).map Prod.fst).Nodup
  | .array items, path, found, distinct => by
    rw [authorizationClaims]
    exact itemClaims_distinct items path 0 found distinct
  | .object fields, path, found, distinct => by
    rw [authorizationClaims]
    exact fieldClaims_distinct fields path found distinct
  | .null, _, _, distinct => distinct
  | .boolean _, _, _, distinct => distinct
  | .number _, _, _, distinct => distinct
  | .string _, _, _, distinct => distinct

theorem itemClaims_distinct : (items : List Value) → ∀ path index found, (found.map Prod.fst).Nodup →
    ((itemClaims path index found items).map Prod.fst).Nodup
  | [], _, _, _, distinct => distinct
  | item :: rest, path, index, found, distinct => by
    rw [itemClaims]
    exact itemClaims_distinct rest path (index + 1) _ (claims_distinct item _ found distinct)

theorem fieldClaims_distinct : (fields : List (JsString × Value)) → ∀ path found, (found.map Prod.fst).Nodup →
    ((fieldClaims path found fields).map Prod.fst).Nodup
  | [], _, _, distinct => distinct
  | (key, member) :: rest, path, found, distinct => by
    rw [fieldClaims]
    refine fieldClaims_distinct rest path _ (claims_distinct member _ _ ?_)
    split
    · exact put_distinct distinct
    · exact distinct

end

/-- States of the same claims are not told apart by them. -/
theorem authorization_quiet {base target : Value}
    (same : authorizationClaims (units "$") [] target = authorizationClaims (units "$") [] base) :
    compareAuthorizationRecords base target = [] := by
  unfold compareAuthorizationRecords
  rw [same]
  have distinct := claims_distinct base (units "$") [] List.nodup_nil
  refine List.append_eq_nil_iff.mpr ⟨List.flatMap_eq_nil_iff.mpr ?_, List.flatMap_eq_nil_iff.mpr ?_⟩
  · rintro ⟨path, text⟩ member
    dsimp only
    rw [lookup_of_mem distinct member]
    simp
  · rintro ⟨path, text⟩ member
    dsimp only
    rw [lookup_of_mem distinct member]
    rfl

/-- A property that asserts nothing may be set to a value of the same claims. -/
theorem fieldClaims_put {fields : Record} {name : String} {old new : Value} (held : fields.lookup (units name) = some old)
    (plain : isAuthorizationKey (units name) = false)
    (same : ∀ found, authorizationClaims (path ++ units "." ++ units name) found new = authorizationClaims (path ++ units "." ++ units name) found old) :
    fieldClaims path found (put fields (units name) new) = fieldClaims path found fields := by
  induction fields generalizing found with
  | nil => cases held
  | cons first rest ih =>
    obtain ⟨key, member⟩ := first
    rw [put]
    by_cases here : units name = key
    · subst here
      rw [List.lookup_cons_self] at held
      cases held
      rw [if_pos (beq_self_eq_true _), fieldClaims, fieldClaims, plain, same, if_neg Bool.false_ne_true, if_neg Bool.false_ne_true]
    · rw [List.lookup_cons, beq_false_of_ne here] at held
      rw [if_neg (by simpa using here), fieldClaims, fieldClaims, ih held]

theorem itemClaims_map {change : Value → Value} {items : List Value} {index : Nat}
    (same : ∀ item ∈ items, ∀ path found, authorizationClaims path found (change item) = authorizationClaims path found item) :
    itemClaims path index found (items.map change) = itemClaims path index found items := by
  induction items generalizing index found with
  | nil => rfl
  | cons first rest ih =>
    obtain ⟨here, later⟩ := List.forall_mem_cons.mp same
    rw [List.map_cons, itemClaims, itemClaims, here, ih later]

theorem claims_begun {landing : Value} (valid : ValidLanding landing) (planned : isText (lifecycleOf landing) "Planned" = true)
    (path : JsString) (found : List (JsString × JsString)) :
    authorizationClaims path found (begun landing) = authorizationClaims path found landing := by
  obtain ⟨delivery, held⟩ := valid.delivery
  obtain ⟨fields, rfl⟩ := object_of_read held
  have lifecycle : delivery.lookup (units "lifecycle") = some (.string (units "Planned")) := by
    unfold lifecycleOf at planned
    rw [held] at planned
    exact isText_iff.mp planned
  unfold begun setAt
  rw [held]
  dsimp only [Option.getD_some]
  rw [authorizationClaims, authorizationClaims]
  refine fieldClaims_put held (by decide) fun found => ?_
  rw [authorizationClaims, authorizationClaims]
  refine fieldClaims_put lifecycle (by decide) fun found => ?_
  rw [authorizationClaims, authorizationClaims] <;> simp

end Claims

section Same

variable {Context : Type} {others : OtherComparisons Context}

theorem changed_self (value : Option Value) : changed value value = false := by
  unfold changed
  simp

/-- A table that lists every lifecycle beside itself allows staying. -/
theorem illegalMove_self {table : List (String × List String)} (stays : ∀ row ∈ table, row.1 ∈ row.2) (lifecycle : Option Value) :
    illegalMove table lifecycle lifecycle = false := by
  unfold illegalMove successors
  cases found : table.find? fun row => isText lifecycle row.1 with
  | none => rfl
  | some row =>
    have listed := stays row (List.mem_of_find?_eq_some found)
    have named : isText lifecycle row.1 = true := by simpa using List.find?_some found
    simpa [oneOf] using ⟨row.1, listed, named⟩

theorem decision_same {base target : Value} {id : JsString} {adr : Value} {path : JsString} (held : read adr "path" = some (.string path)) :
    compareDecision others base target id adr adr = [] := by
  unfold compareDecision
  dsimp only
  rw [if_neg (by rw [illegalMove_self (by decide)]; exact Bool.false_ne_true)]
  have bound : boundDecision others base target id adr adr = [] := by
    unfold boundDecision
    refine if_neg ?_
    intro taken
    rw [Bool.and_eq_true, Bool.and_eq_true] at taken
    obtain ⟨⟨proposed, decided⟩, _⟩ := taken
    obtain ⟨lifecycle, listed, named⟩ := List.any_eq_true.mp decided
    have apart : ["Accepted", "Rejected"].all (fun lifecycle => units lifecycle ≠ units "Proposed") = true := by decide
    have different := List.all_eq_true.mp apart lifecycle listed
    rw [decide_eq_true_eq] at different
    exact different (isText_unique named proposed)
  have kept : decidedProblems id adr adr = [] := by
    unfold decidedProblems
    split
    · rfl
    · simp [changed_self, held, same]
  rw [bound, kept]
  rfl

theorem compareLanding_alike {id : JsString} {one other : Value} (alike : Alike one other)
    (legal : illegalMove legalDeliveryTransitions (lifecycleOf one) (lifecycleOf other) = false)
    (complete : isText (lifecycleOf other) "Complete" = true → isText (lifecycleOf one) "Complete" = true)
    (withdrawn : isText (lifecycleOf other) "Withdrawn" = true → isText (lifecycleOf one) "Withdrawn" = true) :
    compareLanding id one other = [] := by
  have not_both {before after : Bool} (kept : after = true → before = true) : ¬ (after && !before) = true := by
    cases after <;> simp_all
  unfold compareLanding
  unfold lifecycleOf at legal complete withdrawn
  dsimp only
  rw [legal, alike.delivery "completion" (by decide), alike.delivery "withdrawal" (by decide), changed_self, changed_self, Bool.and_false,
    Bool.and_false, if_neg (not_both complete), if_neg (not_both withdrawn)]
  rfl

end Same

section Started

variable {Context : Type} {checks : OtherChecks Context} {others : OtherComparisons Context} {context : Context} {state landing : Value}
  {id : JsString}

/-- What `evaluateState` makes of a state that it refuses for nothing. -/
def evaluationOf (checks : OtherChecks Context) (context : Context) (state : Value) : Evaluation Context :=
  { ok := true, problems := [], state := some state, sourceManifest := checks.sourceManifest context, context := some context
    derived := some (derivedOf checks state) }

variable (startable : Startable state landing id)
include startable

namespace Startable

theorem authorization : compareAuthorizationRecords state (started state id) = [] := by
  apply authorization_quiet
  obtain ⟨fields, rfl⟩ := startable.object
  have member := startable.member
  unfold members at member
  split at member
  next items held =>
    have listed : fields.lookup (units "landings") = some (.array items) := held
    unfold started setAt members
    rw [held]
    dsimp only
    rw [authorizationClaims, authorizationClaims]
    refine fieldClaims_put listed (by decide) fun found => ?_
    rw [authorizationClaims, authorizationClaims]
    refine itemClaims_map fun item among path found => ?_
    unfold startedNode
    split
    next named =>
      have here : item ∈ members (.object fields) "landings" := by
        unfold members
        rw [held]
        exact among
      rw [startable.alone (List.mem_append_right _ here) named]
      exact claims_begun (startable.valid.landings landing startable.member) startable.planned path found
    · rfl
  · cases member

theorem recordOf_started {collection : String} {other : JsString} (listed : collection ∈ collections) :
    (recordOf collection other (started state id)).isSome = (recordOf collection other state).isSome := by
  unfold recordOf
  by_cases landings : collection = "landings"
  · subst landings
    rw [startable.landings_started, byId_map fun record member => (startable.alike (List.mem_append_right _ member)).idOf, lookup_map,
      Option.isSome_map]
  · have apart : collections.all (fun name => name = "landings" || units name ≠ units "landings") = true := by decide
    have different := List.all_eq_true.mp apart collection listed
    rw [startable.members_started (by simpa [landings] using different)]

theorem survival : compareRecordSurvival state (started state id) = [] := by
  unfold compareRecordSurvival
  simp only [List.flatMap_eq_nil_iff, refuse_nil]
  rintro collection listed ⟨other, record⟩ member
  have kept : (recordOf collection other (started state id)).isSome = _ := startable.recordOf_started listed
  unfold recordOf at kept
  rw [Option.isNone_eq_false_iff, kept, lookup_of_mem (byId_indexed _).distinct member]
  rfl

theorem genesis : compareGenesisPreservation (some (evaluationOf checks context state)) (some (evaluationOf checks context (started state id))) = [] := by
  unfold compareGenesisPreservation evaluationOf stateOf
  simp only [Option.bind_some, Option.getD_some, List.append_eq_nil_iff, List.flatMap_eq_nil_iff, refuse_nil]
  refine ⟨⟨?_, changed_self _⟩, ?_⟩
  · intro key _
    rw [startable.read_started (by decide)]
    exact changed_self _
  · intro node member
    rw [startable.landings_started] at member
    obtain ⟨record, listed, rfl⟩ := List.mem_map.mp member
    have alike := startable.alike (List.mem_append_right _ listed)
    rw [alike.isHistorical, alike.others "id" (by decide), Bool.and_eq_false_iff]
    cases historical : isHistorical record with
    | false => exact .inl rfl
    | true =>
      right
      rw [Bool.not_eq_false', List.contains_iff_mem]
      exact List.mem_map.mpr ⟨record, List.mem_filter.mpr ⟨listed, historical⟩, rfl⟩

theorem decisions (paths : ∀ adr ∈ members state "adrs", ∃ path, read adr "path" = some (.string path)) :
    compareDecisions others state (started state id) = [] := by
  unfold compareDecisions
  rw [startable.members_started (by decide)]
  refine List.append_eq_nil_iff.mpr ⟨List.flatMap_eq_nil_iff.mpr ?_, List.flatMap_eq_nil_iff.mpr ?_⟩
  · rintro ⟨other, adr⟩ member
    dsimp only
    rw [lookup_of_mem (byId_indexed _).distinct member]
    rfl
  · rintro ⟨other, adr⟩ member
    dsimp only
    have found := lookup_of_mem (byId_indexed _).distinct member
    rw [found]
    obtain ⟨path, held⟩ := paths adr ((byId_indexed _).listed other adr found).1
    exact decision_same held

theorem questions_started : deriveQuestions (started state id) = deriveQuestions state := by
  unfold deriveQuestions
  rw [startable.members_started (by decide), startable.members_started (by decide)]

theorem resolvers : compareResolvers (some (evaluationOf checks context state)) (some (evaluationOf checks context (started state id))) = [] := by
  unfold compareResolvers evaluationOf stateOf derivedOf
  simp only [Option.bind_some, Option.getD_some, Option.map_some, List.flatMap_eq_nil_iff]
  rw [startable.questions_started, startable.members_started (by decide)]
  rintro ⟨other, question⟩ member
  dsimp only
  split
  next resolved =>
    rw [if_neg]
    · have distinct : ((deriveQuestions state).2.map Prod.fst).Nodup := puts_distinct List.nodup_nil
      rw [refuse_nil, decide_eq_false_iff_not, not_not]
      exact Option.map_eq_some_iff.mpr ⟨question, lookup_of_mem distinct member, resolved⟩
    · rw [ne_eq, not_not, List.filter_eq_nil_iff]
      intro adr listed
      simpa using listed
  · rfl

theorem node_started {other : JsString} {node : Value} (member : (other, node) ∈ byId (nodesOf state)) :
    (byId (nodesOf (started state id))).lookup other = some (startedNode id node) ∧ Alike node (startedNode id node) := by
  have found := lookup_of_mem (byId_indexed _).distinct member
  refine ⟨?_, startable.node_alike found⟩
  rw [startable.byId_started, lookup_map, found]
  rfl

theorem ruleInputs : compareRuleInputs state (started state id) = [] := by
  unfold compareRuleInputs
  refine List.flatMap_eq_nil_iff.mpr ?_
  rintro ⟨other, node⟩ member
  obtain ⟨found, alike⟩ := startable.node_started member
  dsimp only
  rw [found]
  dsimp only
  unfold compareIdentity
  rw [alike.semanticIdentity]
  refine List.flatMap_eq_nil_iff.mpr ?_
  rintro ⟨field, value⟩ listed
  dsimp only
  split
  · rfl
  · have fields : ["schemaVersion", "id", "kind", "predicate", "sources", "requires", "authorityAnchor", "completionPolicy",
      "reviewedOrderingIntent"].Nodup := by decide
    have distinct : ((semanticIdentity node).map Prod.fst).Nodup := fields
    rw [lookup_of_mem distinct listed, refuse_nil]
    exact changed_self value

theorem replacement : compareReplacement state (started state id) = [] := by
  unfold compareReplacement
  refine List.flatMap_eq_nil_iff.mpr ?_
  rw [startable.byId_started]
  rintro ⟨other, node⟩ member
  obtain ⟨⟨_, record⟩, listed, same⟩ := List.mem_map.mp member
  cases same
  have found := lookup_of_mem (byId_indexed _).distinct listed
  have alike := startable.node_alike found
  dsimp only
  rw [found]
  dsimp only
  unfold keptReplacement
  rw [alike.others "replaces" (by decide), alike.others "replacement" (by decide), changed_self, changed_self]
  rfl

theorem delivery : compareDelivery state (started state id) = [] := by
  unfold compareDelivery
  rw [startable.landings_started, byId_map fun record member => (startable.alike (List.mem_append_right _ member)).idOf]
  refine List.flatMap_eq_nil_iff.mpr ?_
  rintro ⟨other, record⟩ member
  dsimp only
  rw [lookup_map, lookup_of_mem (byId_indexed _).distinct member]
  dsimp only [Option.map_some]
  have among : record ∈ nodesOf state :=
    List.mem_append_right _ ((byId_indexed _).listed other record (lookup_of_mem (byId_indexed _).distinct member)).1
  have alike := startable.alike among
  unfold startedNode at alike ⊢
  split at alike
  next named =>
    rw [if_pos named]
    cases startable.alone among named
    have lifecycle := (begun_reads (startable.valid.landings landing startable.member)).2
    have planned := isText_iff.mp startable.planned
    apply compareLanding_alike alike <;> rw [lifecycle]
    · rw [planned]
      decide
    · exact fun complete => absurd complete (by decide)
    · exact fun withdrawn => absurd withdrawn (by decide)
  next unnamed =>
    rw [if_neg unnamed]
    exact compareLanding_alike alike (illegalMove_self (by decide) _) (fun complete => complete) fun withdrawn => withdrawn

end Startable

/-- An inventory of consumers, each at a path of its own. -/
structure OnePathEach (inventory : Value) : Prop where
  each : ∀ row ∈ members inventory "rows", ∃ path, textAt row "path" = some path
  distinct : ((members inventory "rows").map (textAt · "path")).Nodup

omit startable in
theorem consumers_quiet {base target : Evaluation Context} (same : others.consumerInventory target = others.consumerInventory base)
    (paths : ∀ inventory, others.consumerInventory base = some inventory → OnePathEach inventory) : compareConsumers others base target = [] := by
  unfold compareConsumers
  rw [same]
  cases held : others.consumerInventory base with
  | none => rfl
  | some inventory =>
    obtain ⟨each, distinct⟩ := paths inventory held
    have string {row : Value} (member : row ∈ members inventory "rows") : ∃ path, read row "path" = some (.string path) := by
      obtain ⟨path, named⟩ := each row member
      exact ⟨path, textAt_iff.mp named⟩
    refine List.append_eq_nil_iff.mpr ⟨List.flatMap_eq_nil_iff.mpr ?_, List.flatMap_eq_nil_iff.mpr ?_⟩
    · intro row member
      obtain ⟨path, named⟩ := string member
      have found : atPath (members inventory "rows") (read row "path") = some row := by
        unfold atPath
        cases first : (members inventory "rows").reverse.find? fun record => Governance.same (read record "path") (read row "path") with
        | none =>
          have missed := List.find?_eq_none.mp first row (List.mem_reverse.mpr member)
          rw [named] at missed
          exact absurd (decide_eq_true rfl) missed
        | some other =>
          have alike : Governance.same (read other "path") (read row "path") = true := by simpa using List.find?_some first
          have matched := same_eq alike
          have there := List.mem_reverse.mp (List.mem_of_find?_eq_some first)
          rw [List.inj_on_of_nodup_map distinct there member (by unfold textAt; rw [matched])]
      rw [refuse_nil, found, Option.getD_some]
      simp
    · intro row member
      obtain ⟨path, named⟩ := string member
      refine if_neg ?_
      rw [Bool.and_eq_true, Bool.not_eq_true', not_and, Bool.not_eq_false]
      intro _
      refine List.any_eq_true.mpr ⟨row, member, ?_⟩
      rw [named]
      exact decide_eq_true rfl

end Started

/-- A planned landing can be taken into progress exactly if it replaces no other. -/
theorem delivery_starts_iff {Context : Type} {checks : OtherChecks Context} {others : OtherComparisons Context} {context : Context}
    {state landing : Value} {id : JsString} (shape : validateTopLevel checks context state = []) (quiet : (deriveNodes checks state).1 = [])
    (member : landing ∈ members state "landings") (held : idOf landing = some id) (planned : isText (lifecycleOf landing) "Planned" = true)
    (observed : others.consumerInventory (evaluationOf checks context (started state id)) =
      others.consumerInventory (evaluationOf checks context state))
    (paths : ∀ inventory, others.consumerInventory (evaluationOf checks context state) = some inventory → OnePathEach inventory) :
    ((deriveNodes checks (started state id)).1 = [] ∧
      comparePair others (some (evaluationOf checks context state)) (some (evaluationOf checks context (started state id))) = []) ↔
      read landing "replaces" = some .null := by
  have startable : Startable state landing id := ⟨validState shape, member, held, planned⟩
  have adrs : ∀ adr ∈ members state "adrs", ∃ path, read adr "path" = some (.string path) := by
    intro adr listed
    obtain ⟨path, valid⟩ := members_valid (by decide : "adrs" ∈ collections) shape adr listed
    exact adr_path valid
  have pair : comparePair others (some (evaluationOf checks context state)) (some (evaluationOf checks context (started state id))) = [] := by
    unfold comparePair
    simp only [List.append_eq_nil_iff]
    exact ⟨⟨⟨⟨⟨⟨⟨⟨startable.authorization, startable.survival⟩, startable.genesis⟩, consumers_quiet observed paths⟩,
      startable.decisions adrs⟩, startable.resolvers⟩, startable.ruleInputs⟩, startable.delivery⟩, startable.replacement⟩
  rw [and_iff_left pair]
  exact startable.deriveNodes_started quiet

namespace Sample

/-- A landing that replaces another is planned, and cannot be taken into progress. -/
theorem replacement_stuck : validateTopLevel readsBoth () replacedPair = [] ∧ (deriveNodes readsBoth replacedPair).1 = [] ∧
    units "runner/L2-b" ∈ currentOf readsBoth replacedPair ∧
    ((nodeOf (units "runner/L2-b") replacedPair).map fun node => isText (lifecycleOf node) "Planned") = some true ∧
    (deriveNodes readsBoth (started replacedPair (units "runner/L2-b"))).1 ≠ [] := by
  decide +kernel

theorem planned_starts : (deriveNodes readsBoth (started planned (units "runner/L2"))).1 = [] ∧
    comparePair comparesNothingElse (some (evaluationOf readsBoth () planned))
      (some (evaluationOf readsBoth () (started planned (units "runner/L2")))) = [] := by
  obtain ⟨shape, quiet⟩ : validateTopLevel readsBoth () planned = [] ∧ (deriveNodes readsBoth planned).1 = [] := by decide +kernel
  refine (@delivery_starts_iff _ _ _ () _ (landing "Planned") _ shape quiet (List.mem_singleton_self _) rfl rfl rfl ?_).mpr rfl
  intro inventory held
  cases held

end Sample

end SecureHome.Governance
