import SecureHome.Lib.Folding
import SecureHome.Proofs.GraphRules

/-! A planned landing taken into progress. The registry it leads to differs in one lifecycle,
and is an accepted change of the one before it unless the landing replaces another. -/

namespace SecureHome.Governance
open Lib Relation

section Fields

variable {value member : Value} {name other : String}

/-- The object with one property set. -/
def setAt (value : Value) (name : String) (member : Value) : Value :=
  match value with
  | .object fields => .object (put fields (units name) member)
  | value => value

theorem object_of_read (held : read value name = some member) : ∃ fields, value = .object fields := by
  cases value with
  | object fields => exact ⟨fields, rfl⟩
  | _ => cases held

theorem read_setAt {fields : Record} : read (setAt (.object fields) name member) other =
    if units other = units name then some member else read (.object fields) other := by
  change (put fields (units name) member).lookup (units other) = _
  rw [lookup_put]
  by_cases same : units other = units name
  · rw [if_pos same, if_pos (by simpa using same)]
  · rw [if_neg same, if_neg (by simpa using same)]
    rfl

end Fields

section Starts

/-- The landing, in progress. -/
def begun (landing : Value) : Value :=
  setAt landing "delivery" (setAt ((read landing "delivery").getD .null) "lifecycle" (.string (units "InProgress")))

def startedNode (id : JsString) (node : Value) : Value := if idOf node = some id then begun node else node

/-- The state, with one landing in progress. -/
def started (state : Value) (id : JsString) : Value :=
  setAt state "landings" (.array ((members state "landings").map (startedNode id)))

/-- Records that differ in no more than the lifecycle of a delivery. -/
structure Alike (one other : Value) : Prop where
  others : ∀ name, units name ≠ units "delivery" → read other name = read one name
  delivery : ∀ name, units name ≠ units "lifecycle" → readIn (read other "delivery") name = readIn (read one "delivery") name
  held : (read other "delivery").isSome = (read one "delivery").isSome

theorem Alike.refl (value : Value) : Alike value value := ⟨fun _ _ => rfl, fun _ _ => rfl, rfl⟩

variable {landing : Value}

theorem begun_reads (valid : ValidLanding landing) : Alike landing (begun landing) ∧ lifecycleOf (begun landing) = some (.string (units "InProgress")) := by
  obtain ⟨delivery, held⟩ := valid.delivery
  obtain ⟨fields, rfl⟩ := object_of_read held
  have after : read (begun (.object fields)) "delivery" = some (setAt (.object delivery) "lifecycle" (.string (units "InProgress"))) := by
    unfold begun
    rw [held, read_setAt, if_pos rfl]
    rfl
  refine ⟨⟨?_, ?_, ?_⟩, ?_⟩
  · intro name different
    unfold begun
    rw [read_setAt, if_neg different]
  · intro name different
    rw [after, held]
    exact read_setAt.trans (if_neg different)
  · rw [after, held]
    rfl
  · unfold lifecycleOf
    rw [after]
    exact read_setAt.trans (if_pos rfl)

namespace Alike

variable {one other : Value} (alike : Alike one other)
include alike

theorem textAt {name : String} (different : units name ≠ units "delivery") : textAt other name = textAt one name := by
  unfold Governance.textAt
  rw [alike.others name different]

theorem idOf : idOf other = idOf one := alike.textAt (by decide)

theorem named : named other = named one := alike.textAt (by decide)

theorem requiresOf : requiresOf other = requiresOf one := by
  unfold Governance.requiresOf members
  rw [alike.others "requires" (by decide)]

theorem semanticIdentity : semanticIdentity other = semanticIdentity one := by
  unfold Governance.semanticIdentity
  rw [alike.others "kind" (by decide), alike.others "id" (by decide), alike.others "predicate" (by decide), alike.others "sources" (by decide),
    alike.others "requires" (by decide), alike.others "authorityAnchor" (by decide), alike.others "reviewedOrderingIntent" (by decide),
    alike.delivery "completionPolicy" (by decide)]

theorem isHistorical : isHistorical other = isHistorical one := by
  unfold Governance.isHistorical
  rw [alike.delivery "completion" (by decide)]

end Alike

theorem linkProblems_alike {Context : Type} {checks : OtherChecks Context} {id : JsString} {node node' old old' : Value}
    (alike : Alike node node') (alike' : Alike old old') : linkProblems checks id node' old' = linkProblems checks id node old := by
  have digest : replacementDigest checks.sha256Text old' node' = replacementDigest checks.sha256Text old node := by
    unfold replacementDigest replacementPreimage semanticIdentityDigest
    rw [alike.semanticIdentity, alike'.semanticIdentity, alike.others "id" (by decide), alike'.others "id" (by decide)]
  unfold linkProblems
  rw [digest, alike.others "kind" (by decide), alike'.others "kind" (by decide), alike.others "replacement" (by decide)]

/-- An index of changed records is the index of the records, each changed. -/
theorem byId_map {change : Value → Value} {records : List Value} (keeps : ∀ record ∈ records, idOf (change record) = idOf record) :
    byId (records.map change) = (byId records).map fun entry => (entry.1, change entry.2) := by
  have puts (index : List (JsString × Value)) (id : JsString) (record : Value) :
      put (index.map fun entry => (entry.1, change entry.2)) id (change record) = (put index id record).map fun entry => (entry.1, change entry.2) := by
    induction index with
    | nil => rfl
    | cons first rest ih =>
      rw [List.map_cons, put, put]
      split
      · rfl
      · rw [List.map_cons, ih]
  unfold byId
  rw [List.foldl_map]
  refine foldl_changed (List.map fun entry : JsString × Value => (entry.1, change entry.2)) (fun record listed index => ?_) []
  rw [show textAt (change record) "id" = textAt record "id" from keeps record listed]
  split
  · exact puts index _ record
  · rfl

theorem lookup_map {index : List (JsString × Value)} {change : Value → Value} {id : JsString} :
    (index.map fun entry => (entry.1, change entry.2)).lookup id = (index.lookup id).map change := by
  induction index with
  | nil => rfl
  | cons first rest ih =>
    rw [List.map_cons, List.lookup_cons, List.lookup_cons, ih]
    cases id == first.1 <;> rfl

end Starts

section States

variable {Context : Type} {checks : OtherChecks Context} {context : Context} {state landing : Value} {id : JsString}

/-- A landing of a valid state, about to start. -/
structure Startable (state landing : Value) (id : JsString) : Prop where
  valid : ValidState state
  member : landing ∈ members state "landings"
  held : idOf landing = some id
  planned : isText (lifecycleOf landing) "Planned" = true

variable (startable : Startable state landing id)
include startable

namespace Startable

theorem alone {node : Value} (member : node ∈ nodesOf state) (named : idOf node = some id) : node = landing :=
  startable.valid.nodes.alone member (List.mem_append_right _ startable.member) (named.trans startable.held.symm)

theorem alike {node : Value} (member : node ∈ nodesOf state) : Alike node (startedNode id node) := by
  unfold startedNode
  split
  next named =>
    rw [startable.alone member named]
    exact (begun_reads (startable.valid.landings landing startable.member)).1
  · exact .refl node

theorem object : ∃ fields, state = .object fields := by
  have member := startable.member
  unfold members at member
  split at member
  next items held => exact object_of_read held
  · cases member

theorem read_started {name : String} (different : units name ≠ units "landings") : read (started state id) name = read state name := by
  obtain ⟨fields, rfl⟩ := startable.object
  unfold started
  rw [read_setAt, if_neg different]

theorem members_started {name : String} (different : units name ≠ units "landings") : members (started state id) name = members state name := by
  unfold members
  rw [startable.read_started different]

theorem landings_started : members (started state id) "landings" = (members state "landings").map (startedNode id) := by
  obtain ⟨fields, rfl⟩ := startable.object
  unfold started members
  rw [read_setAt, if_pos rfl]

theorem nodes_started : nodesOf (started state id) = (nodesOf state).map (startedNode id) := by
  have gates : (members state "gates").map (startedNode id) = members state "gates" := by
    refine (List.map_congr_left fun gate member => ?_).trans (List.map_id _)
    unfold startedNode
    rw [if_neg]
    · rfl
    · intro named
      have kind := (startable.valid.gates gate member).kind
      rw [startable.alone (List.mem_append_left _ member) named, (startable.valid.landings landing startable.member).not_gate] at kind
      cases kind
  unfold nodesOf
  rw [startable.landings_started, startable.members_started (by decide), List.map_append, gates]

theorem byId_started : byId (nodesOf (started state id)) = (byId (nodesOf state)).map fun entry => (entry.1, startedNode id entry.2) := by
  rw [startable.nodes_started]
  exact byId_map fun record member => (startable.alike member).idOf

theorem nodeOf_started {other : JsString} : nodeOf other (started state id) = (nodeOf other state).map (startedNode id) := by
  unfold nodeOf
  rw [startable.byId_started, lookup_map]

theorem node_alike {other : JsString} {node : Value} (found : nodeOf other state = some node) : Alike node (startedNode id node) :=
  startable.alike ((byId_indexed _).listed other node found).1

theorem idsOf_started : idsOf (started state id) = idsOf state := by
  unfold idsOf
  rw [startable.byId_started, List.map_map]
  rfl

theorem replacedOf_started : replacedOf (started state id) = replacedOf state := by
  funext other
  unfold replacedOf
  rw [startable.nodeOf_started]
  cases found : nodeOf other state with
  | none => rfl
  | some node => exact (startable.node_alike found).named

theorem requires_started : Requires (started state id) = Requires state := by
  funext other prerequisite
  unfold Requires
  rw [startable.nodeOf_started]
  cases found : nodeOf other state with
  | none => simp
  | some node => simp [(startable.node_alike found).requiresOf]

theorem valid_started : ValidState (started state id) where
  nodes := by
    rw [startable.nodes_started]
    constructor
    · intro node member
      obtain ⟨record, listed, rfl⟩ := List.mem_map.mp member
      obtain ⟨name, held⟩ := startable.valid.nodes.each record listed
      exact ⟨name, (startable.alike listed).idOf.trans held⟩
    · rw [List.map_map]
      have kept : (nodesOf state).map (idOf ∘ startedNode id) = (nodesOf state).map idOf :=
        List.map_congr_left fun record listed => (startable.alike listed).idOf
      exact kept ▸ startable.valid.nodes.distinct
  gates gate member := by
    rw [startable.members_started (by decide)] at member
    exact startable.valid.gates gate member
  landings node member := by
    rw [startable.landings_started] at member
    obtain ⟨record, listed, rfl⟩ := List.mem_map.mp member
    have alike := startable.alike (List.mem_append_right _ listed)
    have valid := startable.valid.landings record listed
    refine ⟨alike.idOf ▸ valid.id, ?_, ?_, ?_, ?_⟩
    · rw [alike.others "kind" (by decide)]
      exact valid.kind
    · rw [alike.others "requires" (by decide)]
      exact valid.requires
    · rw [alike.others "replaces" (by decide), alike.named]
      exact valid.replaces
    · unfold startedNode
      split
      · obtain ⟨fields, rfl⟩ := object_of_read valid.delivery.choose_spec
        obtain ⟨delivery, held⟩ := valid.delivery
        unfold begun
        rw [held, read_setAt, if_pos rfl]
        exact ⟨_, rfl⟩
      · exact valid.delivery

/-- Starting keeps every rule but that of how a replacement starts. -/
theorem wired_started (wired : Wired checks state) :
    Wired checks (started state id) ↔ ∀ other node, nodeOf other (started state id) = some node → startProblems other node = [] := by
  refine ⟨fun after => after.start, fun start => ?_⟩
  refine ⟨?_, ?_, ?_, ?_, ?_, ?_, ?_, start⟩
  · intro other node target found name
    rw [startable.nodeOf_started] at found
    obtain ⟨record, held, rfl⟩ := Option.map_eq_some_iff.mp found
    obtain ⟨old, there, quiet⟩ := wired.linked other record target held ((startable.node_alike held).named ▸ name)
    refine ⟨startedNode id old, by rw [startable.nodeOf_started, there]; rfl, ?_⟩
    rw [linkProblems_alike (startable.node_alike held) (startable.node_alike there)]
    exact quiet
  · rw [startable.replacedOf_started]
    exact wired.single
  · rw [startable.replacedOf_started, startable.idsOf_started]
    exact wired.ends
  · rw [startable.requires_started, startable.idsOf_started]
    exact wired.exist
  · rw [startable.requires_started]
    exact wired.acyclic
  · unfold Replaced
    rw [startable.requires_started, startable.replacedOf_started]
    exact wired.current
  · unfold Replaced
    rw [startable.requires_started, startable.replacedOf_started]
    exact wired.repointed

/-- A landing may be under way as long as it replaces none. -/
theorem deriveNodes_started (quiet : (deriveNodes checks state).1 = []) :
    (deriveNodes checks (started state id)).1 = [] ↔ read landing "replaces" = some .null := by
  have wired := (deriveNodes_iff startable.valid).mp quiet
  have found : nodeOf id state = some landing := startable.valid.nodeOf_iff.mpr ⟨List.mem_append_right _ startable.member, startable.held⟩
  have mine : startedNode id landing = begun landing := if_pos startable.held
  obtain ⟨alike, lifecycle⟩ := begun_reads (startable.valid.landings landing startable.member)
  rw [deriveNodes_iff startable.valid_started, startable.wired_started wired]
  constructor
  · intro start
    by_contra replaces
    have problem := start id (begun landing) (by rw [startable.nodeOf_started, found, ← mine]; rfl)
    have target := (startable.valid.landings landing startable.member).replaces.resolve_left replaces
    obtain ⟨target, name⟩ := target
    unfold startProblems at problem
    rw [alike.others "replaces" (by decide), textAt_iff.mp name, alike.others "kind" (by decide),
      (startable.valid.landings landing startable.member).not_gate] at problem
    unfold lifecycleOf at lifecycle
    rw [if_neg (show ¬ isNull (some (.string target)) = true from Bool.false_ne_true), if_neg Bool.false_ne_true] at problem
    dsimp only at problem
    rw [lifecycle, refuse_nil, Bool.or_eq_false_iff, Bool.or_eq_false_iff] at problem
    exact absurd problem.1.1 (by decide)
  · intro null other node held
    rw [startable.nodeOf_started] at held
    obtain ⟨record, there, rfl⟩ := Option.map_eq_some_iff.mp held
    unfold startedNode
    split
    next named =>
      have same : record = landing := startable.alone ((byId_indexed _).listed other record there).1 named
      unfold startProblems
      rw [same, alike.others "replaces" (by decide), null]
      rfl
    · exact wired.start other record there

end Startable

end States

end SecureHome.Governance
