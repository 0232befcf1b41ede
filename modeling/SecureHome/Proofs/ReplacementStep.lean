import SecureHome.Proofs.GraphRules
import SecureHome.Proofs.NormalForm

/-! One replacement, of a current node and of all current landings that rest on it. It is
refused exactly if a landing that was replaced before requires one of these nodes. -/

namespace SecureHome.Governance
open Lib Relation

section Statements

variable {Context : Type} (checks : OtherChecks Context) (state : Value) (node : JsString) (fresh : JsString → JsString)

/-- What a replacement has to replace: a node, and every current landing that requires it by any number of steps. -/
def Affected (id : JsString) : Prop := id = node ∨ id ∈ currentOf checks state ∧ TransGen (Requires state) id node

/-- A prerequisite, and what a replacement requires in its place. -/
def Repointed (old new : JsString) : Prop :=
  Affected checks state node old ∧ new = fresh old ∨ ¬ Affected checks state node old ∧ new = old

/-- A fresh node in place of an old one, of its rule inputs and bound to it. -/
structure Successor (id : JsString) (old new : Value) : Prop where
  names : idOf new = some (fresh id)
  replaces : named new = some id
  inputs : ∀ name ∈ ["kind", "predicate", "sources", "authorityAnchor", "reviewedOrderingIntent"], read new name = read old name
  policy : readIn (read new "delivery") "completionPolicy" = readIn (read old "delivery") "completionPolicy"
  digest : readIn (read new "replacement") "digest" = some (.string (replacementDigest checks.sha256Text old new))
  attestation : readIn (readIn (read new "replacement") "attestation") "digest" =
    some (.string (replacementDigest checks.sha256Text old new))

structure GateSuccessor (id : JsString) (old new : Value) : Prop extends Successor checks fresh id old new where
  requires : read new "requires" = none
  delivery : read new "delivery" = none

/-- A landing starts planned, and requires what the old one did, repointed. -/
structure LandingSuccessor (id : JsString) (old new : Value) : Prop extends Successor checks fresh id old new where
  requires : ∃ ids : List JsString, read new "requires" = some (.array (ids.map .string)) ∧ ids.Nodup ∧
    ∀ prerequisite, prerequisite ∈ ids ↔ ∃ required ∈ requiresOf old, Repointed checks state node fresh required prerequisite
  delivery : ∃ fields, read new "delivery" = some (.object fields)
  planned : isText (lifecycleOf new) "Planned" = true
  completion : readIn (read new "delivery") "completion" = some .null
  withdrawal : readIn (read new "delivery") "withdrawal" = some .null

/-- A collection with a new record for every affected one. -/
def Grown (nodeFor : JsString → Value) (after : Value) (collection : String) : Prop :=
  ∃ ids : List JsString, ids.Nodup ∧
    (∀ id, id ∈ ids ↔ Affected checks state node id ∧ ∃ old ∈ members state collection, idOf old = some id) ∧
    (members after collection).Perm (members state collection ++ ids.map nodeFor)

/-- One replacement of a node and all that rests on it. -/
structure Replacement (nodeFor : JsString → Value) (after : Value) : Prop where
  current : node ∈ currentOf checks state
  apart : ∀ one other, Affected checks state node one → Affected checks state node other → fresh one = fresh other → one = other
  unused : ∀ id, Affected checks state node id → fresh id ∉ idsOf state
  gates : Grown checks state node nodeFor after "gates"
  landings : Grown checks state node nodeFor after "landings"
  gate : ∀ id, Affected checks state node id → ∀ old ∈ members state "gates", idOf old = some id → GateSuccessor checks fresh id old (nodeFor id)
  landing : ∀ id, Affected checks state node id → ∀ old ∈ members state "landings", idOf old = some id →
    LandingSuccessor checks state node fresh id old (nodeFor id)

end Statements

section Steps

variable {Context : Type} {checks : OtherChecks Context} {state after : Value} {node : JsString} {fresh : JsString → JsString}
  {nodeFor : JsString → Value}

namespace Replacement

variable (valid : ValidState state) (wired : Wired checks state) (replacement : Replacement checks state node fresh nodeFor after)
include valid wired replacement

theorem affected_current {id : JsString} (affected : Affected checks state node id) : id ∈ idsOf state ∧ ¬ Replaced state id := by
  apply (valid.current_iff (links_quiet valid wired)).mp
  rcases affected with rfl | ⟨current, _⟩
  · exact replacement.current
  · exact current

theorem affected_held {id : JsString} (affected : Affected checks state node id) : ∃ old, nodeOf id state = some old :=
  mem_keys.mp (replacement.affected_current valid wired affected).1

/-- What requires an affected node and is current is affected itself. -/
theorem affected_of_requires {id prerequisite : JsString} (requires : Requires state id prerequisite) (current : ¬ Replaced state id)
    (affected : Affected checks state node prerequisite) : Affected checks state node id := by
  right
  refine ⟨(valid.current_iff (links_quiet valid wired)).mpr ⟨requires_held requires, current⟩, ?_⟩
  rcases affected with rfl | ⟨_, depends⟩
  · exact .single requires
  · exact .head requires depends

omit wired in
/-- A new node is the successor of an affected one. -/
theorem successor {id : JsString} {old : Value} (affected : Affected checks state node id) (found : nodeOf id state = some old) :
    GateSuccessor checks fresh id old (nodeFor id) ∨ LandingSuccessor checks state node fresh id old (nodeFor id) := by
  obtain ⟨member, held⟩ := valid.nodeOf_iff.mp found
  rcases List.mem_append.mp member with gate | landing
  · exact .inl (replacement.gate id affected old gate held)
  · exact .inr (replacement.landing id affected old landing held)

theorem successor_id {id : JsString} (affected : Affected checks state node id) : idOf (nodeFor id) = some (fresh id) := by
  obtain ⟨old, found⟩ := replacement.affected_held valid wired affected
  rcases replacement.successor valid affected found with gate | landing
  · exact gate.names
  · exact landing.names

theorem valid_after : ValidState after := by
  obtain ⟨gateIds, apart, among, gates⟩ := replacement.gates
  obtain ⟨landingIds, apart', among', landings⟩ := replacement.landings
  have ids {collection : List JsString} (affected : ∀ id ∈ collection, Affected checks state node id) :
      (collection.map nodeFor).map idOf = collection.map fun id => some (fresh id) := by
    rw [List.map_map]
    exact List.map_congr_left fun id listed => replacement.successor_id valid wired (affected id listed)
  have affected (id : JsString) (listed : id ∈ gateIds ++ landingIds) : Affected checks state node id := by
    rcases List.mem_append.mp listed with gate | landing
    · exact ((among id).mp gate).1
    · exact ((among' id).mp landing).1
  have apartIds : (gateIds ++ landingIds).Nodup := by
    refine List.nodup_append'.mpr ⟨apart, apart', ?_⟩
    intro id listed listed'
    obtain ⟨_, gate, member, held⟩ := (among id).mp listed
    obtain ⟨_, landing, member', held'⟩ := (among' id).mp listed'
    have same := valid.nodes.alone (List.mem_append_left _ member) (List.mem_append_right _ member') (held.trans held'.symm)
    have kind := (valid.gates gate member).kind
    rw [same, (valid.landings landing member').not_gate] at kind
    cases kind
  have whole : (nodesOf after).Perm (nodesOf state ++ (gateIds ++ landingIds).map nodeFor) := by
    unfold nodesOf
    refine (gates.append landings).trans ?_
    rw [List.map_append, List.append_assoc, List.append_assoc]
    refine List.Perm.append_left _ ?_
    rw [← List.append_assoc, ← List.append_assoc]
    exact List.Perm.append_right _ List.perm_append_comm
  refine ⟨⟨?_, ?_⟩, ?_, ?_⟩
  · intro record member
    rcases List.mem_append.mp (whole.subset member) with old | new
    · exact valid.nodes.each record old
    · obtain ⟨id, listed, rfl⟩ := List.mem_map.mp new
      exact ⟨_, replacement.successor_id valid wired (affected id listed)⟩
  · rw [(whole.map idOf).nodup_iff, List.map_append, ids affected]
    refine List.nodup_append'.mpr ⟨valid.nodes.distinct, ?_, ?_⟩
    · refine List.Nodup.map_on ?_ apartIds
      intro one listed other listed' same
      exact replacement.apart one other (affected one listed) (affected other listed') (Option.some.inj same)
    · intro id old new
      obtain ⟨one, listed, rfl⟩ := List.mem_map.mp new
      obtain ⟨record, member, held⟩ := List.mem_map.mp old
      exact replacement.unused one (affected one listed) (mem_keys.mpr ⟨record, valid.nodes.lookup member held⟩)
  · intro gate member
    rcases List.mem_append.mp (gates.subset member) with old | new
    · exact valid.gates gate old
    · obtain ⟨id, listed, rfl⟩ := List.mem_map.mp new
      obtain ⟨affected, old, among, held⟩ := (among id).mp listed
      have next := replacement.gate id affected old among held
      have before := valid.gates old among
      refine ⟨⟨_, next.names⟩, ?_, ?_, next.requires, .inr ⟨_, next.replaces⟩⟩
      · rw [next.inputs "kind" (by decide)]
        exact before.kind
      · rw [next.inputs "predicate" (by decide)]
        exact before.question
  · intro landing member
    rcases List.mem_append.mp (landings.subset member) with old | new
    · exact valid.landings landing old
    · obtain ⟨id, listed, rfl⟩ := List.mem_map.mp new
      obtain ⟨affected, old, among, held⟩ := (among' id).mp listed
      have next := replacement.landing id affected old among held
      obtain ⟨ids, requires, distinct, _⟩ := next.requires
      refine ⟨⟨_, next.names⟩, ?_, ⟨ids, requires, distinct⟩, .inr ⟨_, next.replaces⟩, next.delivery⟩
      rw [next.inputs "kind" (by decide)]
      exact (valid.landings old among).kind

/-- The nodes afterwards: those before, and one for each affected. -/
theorem nodeOf_after {id : JsString} {record : Value} : nodeOf id after = some record ↔
    nodeOf id state = some record ∨ ∃ old, Affected checks state node old ∧ id = fresh old ∧ record = nodeFor old := by
  rw [(replacement.valid_after valid wired).nodeOf_iff, valid.nodeOf_iff]
  obtain ⟨gateIds, _, among, gates⟩ := replacement.gates
  obtain ⟨landingIds, _, among', landings⟩ := replacement.landings
  have listed : record ∈ nodesOf after ↔ record ∈ nodesOf state ∨ ∃ old, Affected checks state node old ∧ record = nodeFor old := by
    unfold nodesOf
    rw [List.mem_append, List.mem_append, gates.mem_iff, landings.mem_iff, List.mem_append, List.mem_append, List.mem_map, List.mem_map]
    constructor
    · rintro ((old | ⟨id, listed, rfl⟩) | (old | ⟨id, listed, rfl⟩))
      · exact .inl (.inl old)
      · exact .inr ⟨id, ((among id).mp listed).1, rfl⟩
      · exact .inl (.inr old)
      · exact .inr ⟨id, ((among' id).mp listed).1, rfl⟩
    · rintro ((old | old) | ⟨id, affected, rfl⟩)
      · exact .inl (.inl old)
      · exact .inr (.inl old)
      · obtain ⟨old, found⟩ := replacement.affected_held valid wired affected
        obtain ⟨member, held⟩ := valid.nodeOf_iff.mp found
        rcases List.mem_append.mp member with gate | landing
        · exact .inl (.inr ⟨id, (among id).mpr ⟨affected, old, gate, held⟩, rfl⟩)
        · exact .inr (.inr ⟨id, (among' id).mpr ⟨affected, old, landing, held⟩, rfl⟩)
  rw [listed]
  constructor
  · rintro ⟨member | ⟨old, affected, rfl⟩, held⟩
    · exact .inl ⟨member, held⟩
    · exact .inr ⟨old, affected, Option.some.inj (held.symm.trans (replacement.successor_id valid wired affected)), rfl⟩
  · rintro (⟨member, held⟩ | ⟨old, affected, rfl, rfl⟩)
    · exact ⟨.inl member, held⟩
    · exact ⟨.inr ⟨old, affected, rfl⟩, replacement.successor_id valid wired affected⟩

theorem fresh_node {id : JsString} (affected : Affected checks state node id) : nodeOf (fresh id) after = some (nodeFor id) :=
  (replacement.nodeOf_after valid wired).mpr (.inr ⟨id, affected, rfl, rfl⟩)

omit valid wired in
theorem fresh_apart {id other : JsString} (affected : Affected checks state node id) (held : other ∈ idsOf state) : other ≠ fresh id :=
  fun same => replacement.unused id affected (same ▸ held)

theorem idsOf_after {id : JsString} : id ∈ idsOf after ↔ id ∈ idsOf state ∨ ∃ old, Affected checks state node old ∧ id = fresh old := by
  have held {state : Value} : id ∈ idsOf state ↔ ∃ record, nodeOf id state = some record := mem_keys
  rw [held, held]
  constructor
  · rintro ⟨record, found⟩
    rcases (replacement.nodeOf_after valid wired).mp found with before | ⟨old, affected, same, _⟩
    · exact .inl ⟨record, before⟩
    · exact .inr ⟨old, affected, same⟩
  · rintro (⟨record, before⟩ | ⟨old, affected, rfl⟩)
    · exact ⟨record, (replacement.nodeOf_after valid wired).mpr (.inl before)⟩
    · exact ⟨_, replacement.fresh_node valid wired affected⟩

/-- A new node replaces the affected one, and the others what they did. -/
theorem replacedOf_after {id target : JsString} : replacedOf after id = some target ↔
    replacedOf state id = some target ∨ Affected checks state node target ∧ id = fresh target := by
  have names {id : JsString} (affected : Affected checks state node id) : named (nodeFor id) = some id := by
    obtain ⟨old, found⟩ := replacement.affected_held valid wired affected
    rcases replacement.successor valid affected found with gate | landing
    · exact gate.replaces
    · exact landing.replaces
  unfold replacedOf
  rw [Option.bind_eq_some_iff, Option.bind_eq_some_iff]
  constructor
  · rintro ⟨record, found, name⟩
    rcases (replacement.nodeOf_after valid wired).mp found with before | ⟨old, affected, rfl, rfl⟩
    · exact .inl ⟨record, before, name⟩
    · cases (names affected).symm.trans name
      exact .inr ⟨affected, rfl⟩
  · rintro (⟨record, before, name⟩ | ⟨affected, rfl⟩)
    · exact ⟨record, (replacement.nodeOf_after valid wired).mpr (.inl before), name⟩
    · exact ⟨_, replacement.fresh_node valid wired affected, names affected⟩

theorem replaced_after {target : JsString} : Replaced after target ↔ Replaced state target ∨ Affected checks state node target := by
  constructor
  · rintro ⟨other, replaces⟩
    rcases (replacement.replacedOf_after valid wired).mp replaces with before | ⟨affected, _⟩
    · exact .inl ⟨other, before⟩
    · exact .inr affected
  · rintro (⟨other, before⟩ | affected)
    · exact ⟨other, (replacement.replacedOf_after valid wired).mpr (.inl before)⟩
    · exact ⟨fresh target, (replacement.replacedOf_after valid wired).mpr (.inr ⟨affected, rfl⟩)⟩

theorem requires_fresh {id prerequisite : JsString} (affected : Affected checks state node id) :
    Requires after (fresh id) prerequisite ↔ ∃ required, Requires state id required ∧ Repointed checks state node fresh required prerequisite := by
  obtain ⟨old, found⟩ := replacement.affected_held valid wired affected
  rw [requires_at (replacement.fresh_node valid wired affected)]
  have same (required : JsString) : Requires state id required ↔ required ∈ requiresOf old := requires_at found
  simp only [same]
  obtain ⟨member, held⟩ := valid.nodeOf_iff.mp found
  rcases List.mem_append.mp member with gate | landing
  · have empty {record : Value} (none : read record "requires" = Option.none) : requiresOf record = [] := by
      unfold requiresOf members
      rw [none]
      rfl
    rw [empty (replacement.gate id affected old gate held).requires, empty (valid.gates old gate).requires]
    simp
  · obtain ⟨ids, requires, _, each⟩ := (replacement.landing id affected old landing held).requires
    rw [requiresOf_eq requires, each]

theorem requires_held_after {id prerequisite : JsString} (held : id ∈ idsOf state) : Requires after id prerequisite ↔ Requires state id prerequisite := by
  obtain ⟨record, found⟩ := mem_keys.mp held
  rw [requires_at found, requires_at ((replacement.nodeOf_after valid wired).mpr (.inl found))]

/-- A node afterwards, and the node before that it is or stands for. -/
def Stands (checks : OtherChecks Context) (state : Value) (node : JsString) (fresh : JsString → JsString) (id old : JsString) : Prop :=
  id = old ∧ id ∈ idsOf state ∨ Affected checks state node old ∧ id = fresh old

omit valid wired in
theorem stands_once {id one other : JsString} (first : Stands checks state node fresh id one) (second : Stands checks state node fresh id other) :
    one = other := by
  rcases first with ⟨rfl, held⟩ | ⟨affected, rfl⟩ <;> rcases second with ⟨rfl, held'⟩ | ⟨affected', same⟩
  · rfl
  · exact absurd same (replacement.fresh_apart affected' held)
  · exact absurd rfl (replacement.fresh_apart affected held')
  · exact replacement.apart one other affected affected' same

theorem requires_stands {id prerequisite : JsString} (requires : Requires after id prerequisite) :
    ∃ old required, Stands checks state node fresh id old ∧ Stands checks state node fresh prerequisite required ∧ Requires state old required := by
  rcases (replacement.idsOf_after valid wired).mp (requires_held requires) with held | ⟨old, affected, rfl⟩
  · have before := (replacement.requires_held_after valid wired held).mp requires
    exact ⟨id, prerequisite, .inl ⟨rfl, held⟩, .inl ⟨rfl, wired.exist id prerequisite before⟩, before⟩
  · obtain ⟨required, before, repointed⟩ := (replacement.requires_fresh valid wired affected).mp requires
    refine ⟨old, required, .inr ⟨affected, rfl⟩, ?_, before⟩
    rcases repointed with ⟨also, rfl⟩ | ⟨_, rfl⟩
    · exact .inr ⟨also, rfl⟩
    · exact .inl ⟨rfl, wired.exist old _ before⟩

theorem acyclic_after (id : JsString) : ¬ TransGen (Requires after) id id := by
  have follows {last : JsString} (depends : TransGen (Requires after) id last) :
      ∃ old required, Stands checks state node fresh id old ∧ Stands checks state node fresh last required ∧ TransGen (Requires state) old required := by
    induction depends with
    | single requires =>
      obtain ⟨old, required, stands, stands', before⟩ := replacement.requires_stands valid wired requires
      exact ⟨old, required, stands, stands', .single before⟩
    | tail _ requires ih =>
      obtain ⟨old, between, stands, stands', depends⟩ := ih
      obtain ⟨between', required, stands'', last, before⟩ := replacement.requires_stands valid wired requires
      cases replacement.stands_once stands' stands''
      exact ⟨old, required, stands, last, depends.tail before⟩
  intro cycle
  obtain ⟨old, required, stands, stands', depends⟩ := follows cycle
  cases replacement.stands_once stands stands'
  exact wired.acyclic old depends

theorem current_after {id prerequisite : JsString} (requires : Requires after id prerequisite) (replaced : Replaced after prerequisite) :
    Replaced after id := by
  rw [replacement.replaced_after valid wired] at replaced ⊢
  rcases (replacement.idsOf_after valid wired).mp (requires_held requires) with held | ⟨old, affected, rfl⟩
  · have before := (replacement.requires_held_after valid wired held).mp requires
    rcases replaced with replaced | affected
    · exact .inl (wired.current id prerequisite before replaced)
    · by_cases current : Replaced state id
      · exact .inl current
      · exact .inr (replacement.affected_of_requires valid wired before current affected)
  · -- a new node requires nothing that is replaced
    obtain ⟨required, before, repointed⟩ := (replacement.requires_fresh valid wired affected).mp requires
    rcases repointed with ⟨also, rfl⟩ | ⟨unaffected, rfl⟩
    · have gone : fresh required ∉ idsOf state := replacement.unused required also
      rcases replaced with ⟨other, replaces⟩ | affected'
      · obtain ⟨record, found, name⟩ := Option.bind_eq_some_iff.mp replaces
        obtain ⟨target, there, _⟩ := wired.linked other record _ found name
        exact absurd (mem_keys.mpr ⟨target, there⟩) gone
      · exact absurd (replacement.affected_current valid wired affected').1 gone
    · rcases replaced with replaced | affected'
      · exact absurd (wired.current old _ before replaced) (replacement.affected_current valid wired affected).2
      · exact absurd affected' unaffected

theorem ends_after {id : JsString} (member : id ∈ idsOf after) : ∃ trail, Trails (replacedOf after) (some id) trail := by
  have carry {start : Option JsString} {trail : List JsString} (trails : Trails (replacedOf state) start trail)
      (held : ∀ id, start = some id → id ∈ idsOf state) : Trails (replacedOf after) start trail := by
    induction trails with
    | ended => exact .ended
    | @step first rest later ih =>
      have here := held first rfl
      have same : replacedOf after first = replacedOf state first := by
        refine Option.ext fun target => ?_
        rw [replacement.replacedOf_after valid wired]
        exact or_iff_left fun ⟨affected, same⟩ => replacement.fresh_apart affected here same
      refine .step (same ▸ ih fun target replaces => ?_)
      obtain ⟨record, found, name⟩ := Option.bind_eq_some_iff.mp replaces
      obtain ⟨old, there, _⟩ := wired.linked first record target found name
      exact mem_keys.mpr ⟨old, there⟩
  have before {id : JsString} (held : id ∈ idsOf state) : ∃ trail, Trails (replacedOf after) (some id) trail := by
    obtain ⟨trail, trails⟩ := wired.ends id held
    exact ⟨trail, carry trails fun other same => Option.some.inj same ▸ held⟩
  rcases (replacement.idsOf_after valid wired).mp member with held | ⟨old, affected, rfl⟩
  · exact before held
  · obtain ⟨trail, trails⟩ := before (replacement.affected_current valid wired affected).1
    have next : replacedOf after (fresh old) = some old := (replacement.replacedOf_after valid wired).mpr (.inr ⟨affected, rfl⟩)
    exact ⟨_, .step (next ▸ trails)⟩

theorem single_after {one two target : JsString} (first : replacedOf after one = some target) (second : replacedOf after two = some target) :
    one = two := by
  rw [replacement.replacedOf_after valid wired] at first second
  rcases first with before | ⟨affected, rfl⟩ <;> rcases second with before' | ⟨affected', same⟩
  · exact wired.single one two target before before'
  · exact absurd ⟨one, before⟩ (replacement.affected_current valid wired affected').2
  · exact absurd ⟨two, before'⟩ (replacement.affected_current valid wired affected).2
  · exact same.symm

theorem linked_after {id target : JsString} {record : Value} (found : nodeOf id after = some record) (name : named record = some target) :
    ∃ old, nodeOf target after = some old ∧ linkProblems checks id record old = [] := by
  rcases (replacement.nodeOf_after valid wired).mp found with before | ⟨old, affected, rfl, rfl⟩
  · obtain ⟨old, there, quiet⟩ := wired.linked id record target before name
    exact ⟨old, (replacement.nodeOf_after valid wired).mpr (.inl there), quiet⟩
  · obtain ⟨prior, held⟩ := replacement.affected_held valid wired affected
    obtain ⟨successor, text, kind⟩ : Successor checks fresh old prior (nodeFor old) ∧ ∃ text, read prior "kind" = some (.string text) := by
      obtain ⟨member, named⟩ := valid.nodeOf_iff.mp held
      rcases List.mem_append.mp member with gate | landing
      · exact ⟨(replacement.gate old affected prior gate named).toSuccessor, _, isText_iff.mp (valid.gates prior gate).kind⟩
      · obtain ⟨kind, _, here⟩ := List.any_eq_true.mp (valid.landings prior landing).kind
        exact ⟨(replacement.landing old affected prior landing named).toSuccessor, _, isText_iff.mp here⟩
    cases successor.replaces.symm.trans name
    refine ⟨prior, (replacement.nodeOf_after valid wired).mpr (.inl held), ?_⟩
    unfold linkProblems
    have bound : same (some (.string (replacementDigest checks.sha256Text prior (nodeFor target))))
        (some (.string (replacementDigest checks.sha256Text prior (nodeFor target)))) = true := decide_eq_true rfl
    have kinds : same (some (.string text)) (some (.string text)) = true := decide_eq_true rfl
    dsimp only
    rw [successor.inputs "kind" (by decide), kind, kinds, successor.digest, successor.attestation, bound]
    split <;> rfl

theorem start_after {id : JsString} {record : Value} (found : nodeOf id after = some record) : startProblems id record = [] := by
  rcases (replacement.nodeOf_after valid wired).mp found with before | ⟨old, affected, rfl, rfl⟩
  · exact wired.start id record before
  · obtain ⟨prior, held⟩ := replacement.affected_held valid wired affected
    obtain ⟨member, named⟩ := valid.nodeOf_iff.mp held
    unfold startProblems
    split
    · rfl
    rcases List.mem_append.mp member with gate | landing
    · have next := replacement.gate old affected prior gate named
      rw [next.inputs "kind" (by decide), if_pos (valid.gates prior gate).kind, next.delivery]
      rfl
    · have next := replacement.landing old affected prior landing named
      have planned := next.planned
      unfold lifecycleOf at planned
      rw [next.inputs "kind" (by decide), (valid.landings prior landing).not_gate, if_neg Bool.false_ne_true]
      dsimp only
      rw [planned, next.completion, next.withdrawal]
      rfl

/-- Old pairs still agree exactly if none of them required an affected node. -/
theorem repointed_after (settled : ∀ id, Replaced state id → ∀ prerequisite, Requires state id prerequisite →
      ¬ Affected checks state node prerequisite) {id target : JsString} (replaces : replacedOf after id = some target) (prerequisite : JsString) :
    Requires after id prerequisite ↔
      ∃ old, Requires after target old ∧ (replacedOf after prerequisite = some old ∨ ¬ Replaced after old ∧ prerequisite = old) := by
  rcases (replacement.replacedOf_after valid wired).mp replaces with before | ⟨affected, rfl⟩
  · obtain ⟨record, found, name⟩ := Option.bind_eq_some_iff.mp before
    obtain ⟨prior, there, _⟩ := wired.linked id record target found name
    rw [replacement.requires_held_after valid wired (mem_keys.mpr ⟨record, found⟩), wired.repointed id target before]
    refine exists_congr fun old => ?_
    rw [replacement.requires_held_after valid wired (mem_keys.mpr ⟨prior, there⟩)]
    refine and_congr_right fun required => ?_
    have unaffected := settled target ⟨id, before⟩ old required
    rw [replacement.replacedOf_after valid wired, replacement.replaced_after valid wired, or_iff_left unaffected,
      or_iff_left fun both : _ ∧ _ => unaffected both.1]
  · have current := replacement.affected_current valid wired affected
    rw [replacement.requires_fresh valid wired affected]
    refine exists_congr fun old => ?_
    rw [replacement.requires_held_after valid wired current.1]
    refine and_congr_right fun required => ?_
    have free : ¬ Replaced state old := fun replaced => current.2 (wired.current target old required replaced)
    rw [replacement.replacedOf_after valid wired, replacement.replaced_after valid wired, or_iff_right free,
      or_iff_right fun before => free ⟨prerequisite, before⟩]
    rfl

theorem wired_after_iff : Wired checks after ↔
    ∀ id, Replaced state id → ∀ prerequisite, Requires state id prerequisite → ¬ Affected checks state node prerequisite := by
  constructor
  · rintro later id ⟨replacer, replaces⟩ prerequisite required affected
    -- the node in its place would have to require the new one, which it cannot know of
    obtain ⟨record, found, name⟩ := Option.bind_eq_some_iff.mp replaces
    have linked : replacedOf after replacer = some id := (replacement.replacedOf_after valid wired).mpr (.inl replaces)
    have new : replacedOf after (fresh prerequisite) = some prerequisite :=
      (replacement.replacedOf_after valid wired).mpr (.inr ⟨affected, rfl⟩)
    have asked : Requires after id prerequisite := (replacement.requires_held_after valid wired (requires_held required)).mpr required
    have requires := (later.repointed replacer id linked (fresh prerequisite)).mpr ⟨prerequisite, asked, .inl new⟩
    have before := (replacement.requires_held_after valid wired (mem_keys.mpr ⟨record, found⟩)).mp requires
    exact replacement.unused prerequisite affected (wired.exist _ _ before)
  · intro settled
    exact ⟨fun _ _ _ => replacement.linked_after valid wired, fun _ _ _ => replacement.single_after valid wired,
      fun _ => replacement.ends_after valid wired, fun _ _ requires => (by
        obtain ⟨old, required, _, stands, before⟩ := replacement.requires_stands valid wired requires
        rw [replacement.idsOf_after valid wired]
        rcases stands with ⟨rfl, held⟩ | ⟨affected, rfl⟩
        · exact .inl held
        · exact .inr ⟨required, affected, rfl⟩),
      replacement.acyclic_after valid wired, fun _ _ => replacement.current_after valid wired,
      fun _ _ replaces => replacement.repointed_after valid wired settled replaces, fun _ _ => replacement.start_after valid wired⟩

end Replacement

end Steps

/-- A replacement goes through exactly if nothing that was replaced before requires a node it replaces. -/
theorem replacement_proceeds_iff {Context : Type} {checks : OtherChecks Context} {context : Context} {state after : Value} {node : JsString}
    {fresh : JsString → JsString} {nodeFor : JsString → Value} (shape : validateTopLevel checks context state = [])
    (quiet : (deriveNodes checks state).1 = []) (replacement : Replacement checks state node fresh nodeFor after) :
    (deriveNodes checks after).1 = [] ↔
      ∀ id, Replaced state id → ∀ prerequisite, Requires state id prerequisite → ¬ Affected checks state node prerequisite := by
  have valid := validState shape
  have wired := (deriveNodes_iff valid).mp quiet
  rw [deriveNodes_iff (replacement.valid_after valid wired), replacement.wired_after_iff valid wired]

namespace Sample

/-- Checks that read some registries and have nothing to add. -/
def reads (states : List Value) : OtherChecks Unit :=
  { readsBoth with parseStrictJson := fun text =>
      match states.find? fun state => text = canonicalSerialize state with
      | some state => .ok state
      | none => .error (units "unexpected") }

theorem read_record {key name : String} {value : Value} {rest : List (String × Value)} :
    read (record ((key, value) :: rest)) name = if units name == units key then some value else read (record rest) name := by
  change ((units key, value) :: rest.map fun field => (units field.1, field.2)).lookup (units name) = _
  rw [List.lookup_cons]
  cases units name == units key <;> rfl

theorem landings_program (landings : List Value) : members (program landings) "gates" = [] ∧ members (program landings) "landings" = landings := by
  constructor <;> unfold members program <;> simp only [read_record] <;> rfl

theorem node_requires (id : String) (requires : List String) (replaced : Option String) :
    read (node id requires replaced) "requires" = some (.array ((requires.map units).map .string)) := by
  unfold node
  simp only [read_record]
  rw [List.map_map]
  rfl

theorem node_id (id : String) (requires : List String) (replaced : Option String) : idOf (node id requires replaced) = some (units id) := by
  unfold node idOf textAt
  simp only [read_record]
  rfl

theorem node_delivery (id : String) (requires : List String) (replaced : Option String) :
    read (node id requires replaced) "delivery" = some delivery := by
  unfold node
  simp only [read_record]
  rfl

/-- A sample landing succeeds another if it requires what that one does, repointed. -/
theorem node_succeeds {states : List Value} {state : Value} {first : JsString} {fresh : JsString → JsString} (id next : String)
    {requires requires' : List String} {replaced : Option String} (named : fresh (units id) = units next) (distinct : (requires'.map units).Nodup)
    (repointed : ∀ prerequisite, prerequisite ∈ requires'.map units ↔
      ∃ required ∈ requires.map units, Repointed (reads states) state first fresh required prerequisite) :
    LandingSuccessor (reads states) state first fresh (units id) (node id requires replaced) (node next requires' (some id)) where
  names := by
    rw [named]
    exact node_id next requires' (some id)
  replaces := by
    unfold node Governance.named textAt
    simp only [read_record]
    rfl
  inputs name listed := by
    simp only [List.mem_cons, List.not_mem_nil, or_false] at listed
    unfold node
    rcases listed with rfl | rfl | rfl | rfl | rfl <;> simp only [read_record] <;> rfl
  policy := by rw [node_delivery, node_delivery]
  digest := by
    unfold node
    simp only [read_record]
    rfl
  attestation := by
    unfold node
    simp only [read_record]
    rfl
  requires := ⟨_, node_requires next requires' (some id), distinct, by rw [requiresOf_eq (node_requires id requires replaced)]; exact repointed⟩
  delivery := ⟨_, node_delivery next requires' (some id)⟩
  planned := by
    unfold lifecycleOf
    rw [node_delivery]
    decide
  completion := by
    rw [node_delivery]
    rfl
  withdrawal := by
    rw [node_delivery]
    rfl

/-- A landing and its dependent are replaced, in a registry of which they are all that is current. -/
theorem replaces_two {states landings after : List Value} {id next : String} {replaced : Option String}
    (current : currentOf (reads states) (program landings) = [units "runner/L2", units id])
    (member : node "runner/L2" [] none ∈ landings) (member' : node id ["runner/L2"] replaced ∈ landings)
    (distinct : Named landings) (different : units id ≠ units "runner/L2") (apart : units next ≠ units "runner/L2-b")
    (unused : units "runner/L2-b" ∉ idsOf (program landings)) (unused' : units next ∉ idsOf (program landings))
    (grown : after.Perm (landings ++ [node "runner/L2-b" [] (some "runner/L2"), node next ["runner/L2-b"] (some id)])) :
    Replacement (reads states) (program landings) (units "runner/L2")
      (fun old => if old = units "runner/L2" then units "runner/L2-b" else units next)
      (fun old => if old = units "runner/L2" then node "runner/L2-b" [] (some "runner/L2") else node next ["runner/L2-b"] (some id))
      (program after) := by
  obtain ⟨none, all⟩ := landings_program landings
  obtain ⟨none', all'⟩ := landings_program after
  have nodes : nodesOf (program landings) = landings := by rw [nodesOf, none, all, List.nil_append]
  have found {id : String} {requires : List String} {replaced : Option String} (member : node id requires replaced ∈ landings) :
      nodeOf (units id) (program landings) = some (node id requires replaced) := by
    unfold nodeOf
    rw [nodes]
    exact distinct.lookup member (node_id id requires replaced)
  have first := found member
  have second := found member'
  have affected (old : JsString) : Affected (reads states) (program landings) (units "runner/L2") old ↔ old = units "runner/L2" ∨ old = units id := by
    constructor
    · rintro (rfl | ⟨listed, _⟩)
      · exact .inl rfl
      · rw [current] at listed
        simpa using listed
    · rintro (rfl | rfl)
      · exact .inl rfl
      · refine .inr ⟨current ▸ List.mem_cons_of_mem _ (List.mem_singleton_self _), .single ⟨_, second, ?_⟩⟩
        rw [requiresOf_eq (node_requires id ["runner/L2"] replaced)]
        exact List.mem_singleton_self _
  have alone {id : String} {requires : List String} {replaced : Option String} {record : Value}
      (listed : node id requires replaced ∈ landings) (member : record ∈ landings) (named : idOf record = some (units id)) :
      record = node id requires replaced := distinct.alone member listed (named.trans (node_id _ _ _).symm)
  refine ⟨current ▸ List.mem_cons_self, ?_, ?_, ⟨[], List.nodup_nil, ?_, ?_⟩, ⟨[units "runner/L2", units id], ?_, ?_, ?_⟩, ?_, ?_⟩
  · intro one other listed listed' same
    rcases (affected one).mp listed with rfl | rfl <;> rcases (affected other).mp listed' with rfl | rfl
    · rfl
    · rw [if_pos rfl, if_neg different] at same
      exact absurd same.symm apart
    · rw [if_pos rfl, if_neg different] at same
      exact absurd same apart
    · rfl
  · intro old listed
    rcases (affected old).mp listed with rfl | rfl
    · rwa [if_pos rfl]
    · rwa [if_neg different]
  · intro old
    apply iff_of_false List.not_mem_nil
    rintro ⟨_, gate, member, _⟩
    rw [none] at member
    exact absurd member List.not_mem_nil
  · rw [none, none']
    exact .refl _
  · simpa using different.symm
  · intro old
    rw [affected, all, List.mem_cons, List.mem_singleton, iff_self_and]
    rintro (rfl | rfl)
    · exact ⟨_, member, node_id _ _ _⟩
    · exact ⟨_, member', node_id _ _ _⟩
  · rw [all, all', List.map_cons, List.map_singleton, if_pos rfl, if_neg different]
    exact grown
  · intro old _ gate member
    rw [none] at member
    exact absurd member List.not_mem_nil
  · intro old listed record among named
    rw [all] at among
    rcases (affected old).mp listed with rfl | rfl
    · cases alone member among named
      rw [if_pos rfl]
      exact node_succeeds "runner/L2" "runner/L2-b" (if_pos rfl) List.nodup_nil (by simp)
    · cases alone member' among named
      rw [if_neg different]
      refine node_succeeds id next (if_neg different) (List.nodup_singleton _) fun prerequisite => ?_
      simp [Repointed, affected]

def pair : List Value := [node "runner/L2" [] none, node "runner/L3" ["runner/L2"] none]

/-- The dependent is replaced first, on its own. -/
def leafReplaced : List Value :=
  [node "runner/L2" [] none, node "runner/L3" ["runner/L2"] none, node "runner/L3-b" ["runner/L2"] (some "runner/L3")]

/-- Then the node it rests on, and with it what took its place. -/
def rootReplaced : List Value :=
  [node "runner/L2" [] none, node "runner/L2-b" [] (some "runner/L2"), node "runner/L3" ["runner/L2"] none,
    node "runner/L3-b" ["runner/L2"] (some "runner/L3"), node "runner/L3-c" ["runner/L2-b"] (some "runner/L3-b")]

theorem named_nodes {landings : List Value} {ids : List String} (held : landings.map idOf = ids.map fun id => some (units id))
    (distinct : (ids.map units).Nodup) : Named landings := by
  constructor
  · intro record member
    have listed : idOf record ∈ landings.map idOf := List.mem_map_of_mem member
    rw [held] at listed
    obtain ⟨id, _, same⟩ := List.mem_map.mp listed
    exact ⟨_, same.symm⟩
  · rw [held]
    have same : (ids.map fun id => some (units id)) = (ids.map units).map some := by rw [List.map_map]; rfl
    rw [same]
    exact distinct.map (Option.some_injective _)

def leafFirst : OtherChecks Unit := reads [program pair, program leafReplaced]

theorem root_replacement : ∃ fresh nodeFor,
    Replacement leafFirst (program leafReplaced) (units "runner/L2") fresh nodeFor (program rootReplaced) := by
  obtain ⟨current, unused, unused'⟩ : currentOf leafFirst (program leafReplaced) = [units "runner/L2", units "runner/L3-b"] ∧
      units "runner/L2-b" ∉ idsOf (program leafReplaced) ∧ units "runner/L3-c" ∉ idsOf (program leafReplaced) := by decide +kernel
  have distinct : Named leafReplaced := @named_nodes _ ["runner/L2", "runner/L3", "runner/L3-b"] (by decide +kernel) (by decide)
  have grown : rootReplaced.Perm (leafReplaced ++
      [node "runner/L2-b" [] (some "runner/L2"), node "runner/L3-c" ["runner/L2-b"] (some "runner/L3-b")]) :=
    (@List.perm_middle _ (node "runner/L2-b" [] (some "runner/L2")) (leafReplaced.drop 1) _).symm.cons _
  exact ⟨_, _, @replaces_two _ _ _ "runner/L3-b" "runner/L3-c" (some "runner/L3") current (List.mem_cons_self) (by simp [leafReplaced]) distinct
    (by decide) (by decide) unused unused' grown⟩

theorem reads_first (state : Value) (rest : List Value) : (reads (state :: rest)).parseStrictJson (canonicalSerialize state) = .ok state := by
  unfold reads
  simp

theorem reads_later {state first : Value} (apart : canonicalSerialize state ≠ canonicalSerialize first) (rest : List Value) :
    (reads (first :: rest)).parseStrictJson (canonicalSerialize state) = (reads rest).parseStrictJson (canonicalSerialize state) := by
  unfold reads
  simp [apart]

theorem leafFirst_reads : leafFirst.parseStrictJson (canonicalSerialize (program pair)) = .ok (program pair) ∧
    leafFirst.parseStrictJson (canonicalSerialize (program leafReplaced)) = .ok (program leafReplaced) := by
  have apart : canonicalSerialize (program leafReplaced) ≠ canonicalSerialize (program pair) := by
    intro same
    have counted := congrArg (fun state => (members state "landings").length) (canonicalSerialize_eq_iff.mp same)
    exact absurd counted (by decide +kernel)
  unfold leafFirst
  refine ⟨reads_first (program pair) [program leafReplaced], ?_⟩
  rw [reads_later apart]
  exact reads_first (program leafReplaced) []

/-- The registry with the dependent replaced is reached by an accepted change, and from it the next replacement is refused. -/
theorem replacement_dead_end :
    ((revision (program pair) "a").evaluation leafFirst).ok = true ∧ ((revision (program leafReplaced) "b").evaluation leafFirst).ok = true ∧
      Accepted leafFirst comparesNothingElse (revision (program pair) "a") (revision (program leafReplaced) "b") ∧
      (deriveNodes leafFirst (program leafReplaced)).1 = [] ∧
      (∃ fresh nodeFor, Replacement leafFirst (program leafReplaced) (units "runner/L2") fresh nodeFor (program rootReplaced)) ∧
      (deriveNodes leafFirst (program rootReplaced)).1 ≠ [] := by
  have quiet : Quiet leafFirst () (program pair) := by
    unfold Quiet
    decide +kernel
  have quiet' : Quiet leafFirst () (program leafReplaced) := by
    unfold Quiet
    decide +kernel
  have ok : (revision (program pair) "a").evaluation leafFirst = acceptance leafFirst () (program pair) :=
    evaluateState_quiet leafFirst_reads.1 quiet
  have ok' : (revision (program leafReplaced) "b").evaluation leafFirst = acceptance leafFirst () (program leafReplaced) :=
    evaluateState_quiet leafFirst_reads.2 quiet'
  have refused : (deriveNodes leafFirst (program rootReplaced)).1 ≠ [] := by decide +kernel
  refine ⟨?_, ?_, ⟨⟨.absent, []⟩, fun _ => .ok ⟨[], []⟩, ?_⟩, quiet'.2.2.2.1, root_replacement, refused⟩
  · rw [ok]
    rfl
  · rw [ok']
    rfl
  · unfold Revision.observation
    rw [ok, ok']
    decide +kernel

/-- Both replaced at once, in a registry where nothing was before. -/
theorem pair_replaced : (deriveNodes leafFirst replacedPair).1 = [] := by
  obtain ⟨shape, quiet, current, unused, unused'⟩ : validateTopLevel leafFirst () (program pair) = [] ∧
      (deriveNodes leafFirst (program pair)).1 = [] ∧ currentOf leafFirst (program pair) = [units "runner/L2", units "runner/L3"] ∧
      units "runner/L2-b" ∉ idsOf (program pair) ∧ units "runner/L3-b" ∉ idsOf (program pair) := by decide +kernel
  have distinct : Named pair := @named_nodes _ ["runner/L2", "runner/L3"] (by decide +kernel) (by decide)
  have grown : [node "runner/L2" [] none, node "runner/L2-b" [] (some "runner/L2"), node "runner/L3" ["runner/L2"] none,
      node "runner/L3-b" ["runner/L2-b"] (some "runner/L3")].Perm
        (pair ++ [node "runner/L2-b" [] (some "runner/L2"), node "runner/L3-b" ["runner/L2-b"] (some "runner/L3")]) :=
    (@List.perm_middle _ (node "runner/L2-b" [] (some "runner/L2")) (pair.drop 1) _).symm.cons _
  refine (@replacement_proceeds_iff _ _ () _ _ _ _ _ shape quiet (@replaces_two _ _ _ "runner/L3" "runner/L3-b" none current
    List.mem_cons_self (by simp [pair]) distinct (by decide) (by decide) unused unused' grown)).mpr ?_
  rintro id ⟨other, replaces⟩
  obtain ⟨record, found, name⟩ := Option.bind_eq_some_iff.mp replaces
  have listed := ((byId_indexed _).listed other record found).1
  rw [show nodesOf (program pair) = pair by rw [nodesOf, (landings_program pair).1, (landings_program pair).2, List.nil_append]] at listed
  simp only [pair, List.mem_cons, List.not_mem_nil, or_false] at listed
  have none_named (id : String) (requires : List String) : named (node id requires none) = none := by
    unfold node Governance.named textAt
    simp only [read_record]
    rfl
  rcases listed with rfl | rfl <;> cases (none_named _ _).symm.trans name

end Sample

end SecureHome.Governance
