import SecureHome.Proofs.RevisionPairs

/-! The permanence of governance history: what holds of two consecutive revisions holds,
along any history, of any two. -/

namespace SecureHome.Governance
open Lib

section Histories

variable {Context : Type}

/-- A revision of the registry, by the text, the surroundings and the commit it is found in. -/
structure Revision (Context : Type) where
  text : JsString
  context : Context
  commit : JsString

variable (checks : OtherChecks Context) (others : OtherComparisons Context)

namespace Revision

def evaluation (revision : Revision Context) : Evaluation Context := evaluateState checks revision.text revision.context

def state (revision : Revision Context) : Value := stateOf (some (revision.evaluation checks))

def observation (revision : Revision Context) : Observation Context :=
  { resolved := true, present := true, evaluation := some (revision.evaluation checks) }

end Revision

/-- The comparison of two revisions that hold the registry finds nothing. -/
def Accepted (base target : Revision Context) : Prop :=
  ∃ ancestry observeCommit, (evaluateHistory others (base.observation checks) (target.observation checks) base.commit target.commit
    ancestry observeCommit).ok = true

/-- The records of one identifier, revision after revision. -/
def along (find : Value → Option Value) (revisions : List (Revision Context)) : List Value :=
  revisions.filterMap fun revision => find (revision.state checks)

/-- Lifecycles of a table, each moved on from as the table allows. -/
structure IsWalk (table : List (String × List String)) (lifecycles : List (Option Value)) : Prop where
  known : ∀ lifecycle ∈ lifecycles, Known table lifecycle
  moves : lifecycles.IsChain (Legal table)

/-- No two nodes of two revisions replace one node. -/
def Single (one other : Revision Context) : Prop :=
  ∀ id id' node node' target, nodeOf id (one.state checks) = some node → nodeOf id' (other.state checks) = some node' →
    named node = some target → named node' = some target → id = id'

/-- Governance history is permanent. -/
structure Permanent (revisions : List (Revision Context)) : Prop where
  survives : revisions.Pairwise fun before after => ∀ collection ∈ collections, ∀ id,
    recordOf collection id (before.state checks) ≠ none → recordOf collection id (after.state checks) ≠ none
  decisions : ∀ id, IsWalk legalAdrTransitions ((along checks (recordOf "adrs" id) revisions).map (read · "lifecycle"))
  proposed : ∀ id, (∀ first ∈ revisions.head?, recordOf "adrs" id (first.state checks) = none) →
    ∀ adr ∈ (along checks (recordOf "adrs" id) revisions).head?, isText (read adr "lifecycle") "Proposed" = true
  decided : revisions.Pairwise fun before after => ∀ id adr adr', recordOf "adrs" id (before.state checks) = some adr →
    recordOf "adrs" id (after.state checks) = some adr' → isText (read adr "lifecycle") "Proposed" = false → DecisionKept adr adr'
  deliveries : ∀ id, IsWalk legalDeliveryTransitions ((along checks (recordOf "landings" id) revisions).map lifecycleOf)
  delivered : revisions.Pairwise fun before after => ∀ id landing landing', recordOf "landings" id (before.state checks) = some landing →
    recordOf "landings" id (after.state checks) = some landing' → DeliveryKept landing landing'
  nodes : revisions.Pairwise fun before after => ∀ id node node', nodeOf id (before.state checks) = some node →
    nodeOf id (after.state checks) = some node' → NodeKept node node'
  introduced : ∀ id, (∀ first ∈ revisions.head?, nodeOf id (first.state checks) = none) →
    ∀ revision ∈ revisions, nodeOf id (revision.state checks) ≠ none →
      ∃ before after, [before, after] <:+: revisions ∧ nodeOf id (before.state checks) = none ∧
        ∃ node replaced old, nodeOf id (after.state checks) = some node ∧ Introduced checks (before.state checks) node replaced old
  once : ∀ one ∈ revisions, ∀ other ∈ revisions, Single checks one other

/-- What an accepted move between two sound states does. -/
structure Moves (base target : Revision Context) : Prop where
  sound : Sound (base.state checks)
  after : Sound (target.state checks)
  survival : compareRecordSurvival (base.state checks) (target.state checks) = []
  decisions : compareDecisions others (base.state checks) (target.state checks) = []
  rules : compareRuleInputs (base.state checks) (target.state checks) = []
  delivery : compareDelivery (base.state checks) (target.state checks) = []
  replacement : compareReplacement (base.state checks) (target.state checks) = []

variable {checks others} {base target : Revision Context} {revisions : List (Revision Context)}

/-- An accepted comparison found nothing in any of its parts. -/
theorem accepted_quiet (accepted : Accepted checks others base target) :
    comparePair others (some (base.evaluation checks)) (some (target.evaluation checks)) = [] := by
  obtain ⟨ancestry, observeCommit, ok⟩ := accepted
  unfold evaluateHistory at ok
  simp only [Revision.observation, Bool.not_true, Bool.false_eq_true, if_false] at ok
  split at ok
  · cases ok
  · unfold comparePresent at ok
    dsimp only at ok
    split at ok
    next quiet =>
      simp only [List.append_eq_nil_iff] at quiet
      exact quiet.1.1
    · cases ok

theorem sound_state (ok : (base.evaluation checks).ok = true) : Sound (base.state checks) := by
  obtain ⟨state, held, sound⟩ := evaluateState_ok ok
  have same : base.state checks = state := by
    unfold Revision.state stateOf
    rw [Option.bind_some, Revision.evaluation, held, Option.getD_some]
  exact same ▸ sound

theorem moves_of_accepted (ok : (base.evaluation checks).ok = true) (ok' : (target.evaluation checks).ok = true)
    (accepted : Accepted checks others base target) : Moves checks others base target := by
  have quiet := accepted_quiet accepted
  unfold comparePair at quiet
  simp only [List.append_eq_nil_iff] at quiet
  obtain ⟨⟨⟨⟨⟨⟨⟨⟨_, survival⟩, _⟩, _⟩, decisions⟩, _⟩, rules⟩, delivery⟩, replacement⟩ := quiet
  exact ⟨sound_state ok, sound_state ok', survival, decisions, rules, delivery, replacement⟩

namespace Moves

variable (moves : Moves checks others base target) {id : JsString}
include moves

theorem records {collection : String} (listed : collection ∈ collections) :
    Carries (recordOf collection id) (fun _ _ => True) (base.state checks) (target.state checks) :=
  survival_carries moves.survival listed id

theorem adrs : Carries (recordOf "adrs" id) (fun adr adr' => Legal legalAdrTransitions (read adr "lifecycle") (read adr' "lifecycle") ∧
    (isText (read adr "lifecycle") "Proposed" = false → DecisionKept adr adr')) (base.state checks) (target.state checks) := by
  intro adr found
  obtain ⟨adr', found', _⟩ := moves.records (by decide : "adrs" ∈ collections) adr found
  exact ⟨adr', found', decision_moves moves.sound moves.decisions found found'⟩

theorem landings : Carries (recordOf "landings" id) (fun landing landing' =>
    Legal legalDeliveryTransitions (lifecycleOf landing) (lifecycleOf landing') ∧ DeliveryKept landing landing')
    (base.state checks) (target.state checks) := by
  intro landing found
  obtain ⟨landing', found', _⟩ := moves.records (by decide : "landings" ∈ collections) landing found
  exact ⟨landing', found', delivery_moves moves.sound moves.delivery found found'⟩

/-- A node is a gate or a landing, and stays one. -/
theorem node_survives (present : nodeOf id (base.state checks) ≠ none) : nodeOf id (target.state checks) ≠ none := by
  obtain ⟨record, member, named⟩ := lookup_byId_iff.mp present
  have kept {collection : String} (listed : collection ∈ collections) (member : record ∈ members (base.state checks) collection) :
      ∃ next ∈ members (target.state checks) collection, textAt next "id" = some id := by
    obtain ⟨held, found⟩ := Option.ne_none_iff_exists'.mp (lookup_byId_iff.mpr ⟨record, member, named⟩)
    obtain ⟨next, there, _⟩ := moves.records listed held found
    exact ⟨next, (byId_indexed _).listed id next there⟩
  refine lookup_byId_iff.mpr ?_
  rcases List.mem_append.mp member with gate | landing
  · obtain ⟨next, there, named⟩ := kept (by decide) gate
    exact ⟨next, List.mem_append_left _ there, named⟩
  · obtain ⟨next, there, named⟩ := kept (by decide) landing
    exact ⟨next, List.mem_append_right _ there, named⟩

theorem nodes : Carries (nodeOf id) NodeKept (base.state checks) (target.state checks) := by
  intro node found
  obtain ⟨node', found'⟩ := Option.ne_none_iff_exists'.mp (moves.node_survives (found ▸ Option.some_ne_none node))
  exact ⟨node', found', node_moves moves.rules moves.replacement found found'⟩

end Moves

section Permanence

variable {find : Value → Option Value} {Step : Value → Value → Prop} (chain : revisions.IsChain (Moves checks others))
  (each : ∀ {base target : Revision Context}, Moves checks others base target → Carries find Step (base.state checks) (target.state checks))
include chain each

theorem pairwise_carries (trans : ∀ one two three, Step one two → Step two three → Step one three) :
    revisions.Pairwise fun before after => Carries find Step (before.state checks) (after.state checks) :=
  carries_pairwise trans (chain.imp fun _ _ moves => each moves)

theorem along_walk {table : List (String × List String)} {lifecycle : Value → Option Value}
    (legal : ∀ one two, Step one two → Legal table (lifecycle one) (lifecycle two))
    (known : ∀ revision ∈ revisions, ∀ record, find (revision.state checks) = some record → Known table (lifecycle record)) :
    IsWalk table ((along checks find revisions).map lifecycle) := by
  refine ⟨fun state member => ?_, ?_⟩
  · obtain ⟨record, listed, rfl⟩ := List.mem_map.mp member
    obtain ⟨revision, among, found⟩ := List.mem_filterMap.mp listed
    exact known revision among record found
  · rw [List.isChain_map]
    have walk := carries_walk (chain.imp fun _ _ moves => each moves)
    exact walk.imp legal

end Permanence

/-- What is carried on is found in the later state. -/
theorem carried {find : Value → Option Value} {Step : Value → Value → Prop} {before after record next : Value}
    (carries : Carries find Step before after) (found : find before = some record) (found' : find after = some next) :
    Step record next := by
  obtain ⟨other, here, step⟩ := carries record found
  cases here.symm.trans found'
  exact step

/-- What every pair of states is compared by holds of any two revisions, the earlier first. -/
theorem pairwise_each {Point : Type} {Holds : Point → Revision Context → Revision Context → Prop}
    (every : ∀ point, revisions.Pairwise (Holds point)) : revisions.Pairwise fun before after => ∀ point, Holds point before after := by
  rw [List.pairwise_iff_forall_sublist]
  intro before after within point
  exact List.pairwise_iff_forall_sublist.mp (every point) within

theorem history_permanent (valid : ∀ revision ∈ revisions, (revision.evaluation checks).ok = true)
    (accepted : revisions.IsChain (Accepted checks others)) : Permanent checks revisions := by
  have chain : revisions.IsChain (Moves checks others) := accepted.imp_of_mem_imp fun base target member member' accepted =>
    moves_of_accepted (valid base member) (valid target member') accepted
  have sound (revision : Revision Context) (member : revision ∈ revisions) : Sound (revision.state checks) := sound_state (valid revision member)
  have nodes : revisions.Pairwise fun before after => ∀ id, Carries (nodeOf id) NodeKept (before.state checks) (after.state checks) :=
    pairwise_each fun _ => pairwise_carries chain (fun moves => moves.nodes) fun _ _ _ => NodeKept.trans
  constructor
  case survives =>
    have every (collection : String) (listed : collection ∈ collections) : revisions.Pairwise fun before after =>
        ∀ id, Carries (recordOf collection id) (fun _ _ => True) (before.state checks) (after.state checks) :=
      pairwise_each fun _ => pairwise_carries chain (fun moves => moves.records listed) fun _ _ _ _ _ => trivial
    rw [List.pairwise_iff_forall_sublist]
    intro before after within collection listed id present
    obtain ⟨record, found⟩ := Option.ne_none_iff_exists'.mp present
    obtain ⟨next, there, _⟩ := List.pairwise_iff_forall_sublist.mp (every collection listed) within id record found
    exact there ▸ Option.some_ne_none next
  case decisions =>
    intro id
    refine along_walk chain (fun moves => moves.adrs) (fun _ _ step => step.1) ?_
    intro revision member adr found
    exact (sound revision member).adrs adr ((byId_indexed _).listed id adr found).1
  case proposed =>
    intro id absent
    exact walk_born (chain.imp fun _ _ moves gone _ found => decision_born moves.decisions gone found) absent
  case decided =>
    have kept : revisions.Pairwise fun before after => ∀ id, Carries (recordOf "adrs" id)
        (fun adr adr' => isText (read adr "lifecycle") "Proposed" = false → DecisionKept adr adr') (before.state checks) (after.state checks) := by
      refine pairwise_each fun id => pairwise_carries chain (fun moves => moves.adrs.weaken fun _ _ step => step.2) ?_
      intro one two three first second decided
      exact (first decided).trans (second (first decided).decided)
    refine kept.imp ?_
    intro before after carries id adr adr' found found'
    exact carried (carries id) found found'
  case deliveries =>
    intro id
    refine along_walk chain (fun moves => moves.landings) (fun _ _ step => step.1) ?_
    intro revision member landing found
    exact (sound revision member).landings landing ((byId_indexed _).listed id landing found).1
  case delivered =>
    have kept : revisions.Pairwise fun before after => ∀ id, Carries (recordOf "landings" id) DeliveryKept
        (before.state checks) (after.state checks) :=
      pairwise_each fun _ => pairwise_carries chain (fun moves => moves.landings.weaken fun _ _ step => step.2)
        fun _ _ _ => DeliveryKept.trans
    refine kept.imp ?_
    intro before after carries id landing landing' found found'
    exact carried (carries id) found found'
  case nodes =>
    refine nodes.imp ?_
    intro before after carries id node node' found found'
    exact carried (carries id) found found'
  case introduced =>
    intro id absent revision member present
    obtain ⟨before, after, within, gone, here⟩ := appears absent member present
    obtain ⟨node, found⟩ := Option.ne_none_iff_exists'.mp here
    have moves : Moves checks others before after := by
      have pair := chain.infix within
      rwa [List.isChain_pair] at pair
    obtain ⟨replaced, old, introduced⟩ := node_born moves.replacement gone found
    exact ⟨before, after, within, gone, node, replaced, old, found, introduced⟩
  case once =>
    have apart : revisions.Pairwise (Single checks) := by
      refine nodes.imp_of_mem fun {before after} _ member carries id id' node node' target found found' name name' => ?_
      obtain ⟨next, there, kept⟩ := carries id node found
      exact (sound after member).single _ _ _ _ _ there found' (kept.named name) name'
    have alone (revision : Revision Context) (member : revision ∈ revisions) : Single checks revision revision :=
      fun _ _ _ _ _ found found' name name' => (sound revision member).single _ _ _ _ _ found found' name name'
    have symmetric : Std.Symm (@Single Context checks) :=
      ⟨fun _ _ single _ _ _ _ _ found found' name name' => (single _ _ _ _ _ found' found name' name).symm⟩
    exact fun one member other member' => apart.forall_of_forall alone member member'

end Histories

namespace Sample

def text (value : String) : Value := .string (units value)

def record (fields : List (String × Value)) : Value := .object (fields.map fun field => (units field.1, field.2))

def proposal (id : String) : Value :=
  record [("id", text id), ("path", text ("docs/" ++ id ++ ".md")), ("title", text id), ("lifecycle", text "Proposed"),
    ("proposedOn", text "2026-08-30"), ("resolves", .array []), ("supersedes", .array []), ("acceptance", .null)]

def landing (lifecycle : String) : Value :=
  record [("id", text "runner/L2"), ("kind", text "implementation-landing"), ("requires", .array []),
    ("authorityAnchor", record [("type", text "task-contract"), ("id", text "L2")]), ("replaces", .null), ("replacement", .null),
    ("delivery", record [("lifecycle", text lifecycle), ("completionPolicy", text "reviewed-delivery-v1"), ("completion", .null),
      ("withdrawal", .null)])]

def registry (adrs : List String) (lifecycle : String) : Value :=
  record [("schemaVersion", .number versionOne), ("adrs", .array (adrs.map proposal)), ("questions", .array []), ("gates", .array []),
    ("landings", .array [landing lifecycle]), ("externalReferences", .array []), ("attestations", record [("genesis", record [])])]

def planned : Value := registry [] "Planned"

def begun : Value := registry ["ADR-0001"] "InProgress"

/-- Checks that read the two registries and have nothing to add. -/
def readsBoth : OtherChecks Unit where
  parseStrictJson text :=
    if text = canonicalSerialize planned then .ok planned
    else if text = canonicalSerialize begun then .ok begun
    else .error (units "unexpected")
  looksTruncated _ _ := false
  stateBytes _ := none
  sourceManifest _ := none
  manifestProblems _ := []
  adr _ _ _ := []
  question _ _ := []
  gate _ _ := []
  landing _ _ _ := []
  externalReference _ _ := []
  attestations _ _ := []
  historicalCorrespondence _ _ := []
  genesisBindings _ _ := []
  adrRelationships _ := []
  sha256Text _ := []

def comparesNothingElse : OtherComparisons Unit where
  consumerInventory _ := none
  consumerDiscoveries _ := []
  primitiveDigest _ := []
  relationshipDigest _ := []
  transitionDigest _ := []
  genesisException _ _ _ := (false, [])

def revision (state : Value) (commit : String) : Revision Unit := ⟨canonicalSerialize state, (), units commit⟩

/-- The two registries are told apart by their texts. -/
theorem readsBoth_reads : readsBoth.parseStrictJson (canonicalSerialize planned) = .ok planned ∧
    readsBoth.parseStrictJson (canonicalSerialize begun) = .ok begun := by
  have apart : canonicalSerialize begun ≠ canonicalSerialize planned := by decide +kernel
  unfold readsBoth
  constructor
  · simp only [if_true]
  · simp only [apart, if_true, if_false]

theorem planned_evaluation : (revision planned "a").evaluation readsBoth = acceptance readsBoth () planned := by
  apply evaluateState_quiet readsBoth_reads.1
  unfold Quiet
  decide +kernel

theorem begun_evaluation : (revision begun "b").evaluation readsBoth = acceptance readsBoth () begun := by
  apply evaluateState_quiet readsBoth_reads.2
  unfold Quiet
  decide +kernel

/-- The landing is ready, and the second registry an accepted change of the first. -/
theorem begun_accepted : (((revision planned "a").evaluation readsBoth).derived.bind fun derived =>
      (derived.readiness.lookup (units "runner/L2")).map Readiness.ready) = some true ∧
    ((revision planned "a").evaluation readsBoth).ok = true ∧ ((revision begun "b").evaluation readsBoth).ok = true ∧
    (evaluateHistory comparesNothingElse ((revision planned "a").observation readsBoth)
      ((revision begun "b").observation readsBoth) (units "a") (units "b") ⟨.absent, []⟩ fun _ => .ok ⟨[], []⟩).ok = true := by
  unfold Revision.observation
  rw [planned_evaluation, begun_evaluation]
  decide +kernel

theorem begun_permanent : Permanent readsBoth [revision planned "a", revision begun "b"] := by
  obtain ⟨_, first, second, accepted⟩ := begun_accepted
  refine @history_permanent Unit readsBoth comparesNothingElse _ ?_ ?_
  · intro given member
    rcases List.mem_pair.mp member with rfl | rfl
    · exact first
    · exact second
  · rw [List.isChain_pair]
    exact ⟨_, _, accepted⟩

end Sample

end SecureHome.Governance
