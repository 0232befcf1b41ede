import Mathlib.Data.List.Nodup
import Mathlib.Data.List.Perm.Subperm
import Mathlib.Logic.Relation

/-! Strands: where every node has at most one successor, is the successor of at most one
node and does not lead back to itself, the nodes fall into finite strands, each led by the
one node of it that succeeds nothing. -/

namespace SecureHome.Lib
open Relation

variable {Node : Type*} {next : Node → Option Node}

/-- The nodes from here on, in order and to the end. -/
inductive Trails (next : Node → Option Node) : Option Node → List Node → Prop
  | ended : Trails next none []
  | step {node : Node} {rest : List Node} (after : Trails next (next node) rest) : Trails next (some node) (node :: rest)

def Precedes (next : Node → Option Node) (one other : Node) : Prop := next one = some other

section Trails

variable {start : Option Node} {trail other : List Node} {node : Node}

theorem Trails.unique (trails : Trails next start trail) (also : Trails next start other) : trail = other := by
  induction trails generalizing other with
  | ended =>
    cases also
    rfl
  | step _ ih =>
    cases also with
    | step after => rw [ih after]

theorem Trails.isChain (trails : Trails next start trail) : trail.IsChain (Precedes next) := by
  induction trails with
  | ended => exact .nil
  | @step node rest after ih =>
    generalize found : next node = second at after
    cases after with
    | ended => exact .singleton node
    | step _ => exact .cons_cons found ih

theorem Trails.last (trails : Trails next start trail) : ∀ node ∈ trail.getLast?, next node = none := by
  induction trails with
  | ended => exact fun _ member => by cases member
  | @step node rest after ih =>
    intro last member
    cases rest with
    | nil =>
      generalize found : next node = second at after
      cases after
      exact Option.some.inj member ▸ found
    | cons first others => exact ih last (by rwa [List.getLast?_cons_cons] at member)

/-- The trail of a node on a trail is the rest of it. -/
theorem Trails.suffix (trails : Trails next start trail) (member : node ∈ trail) :
    ∃ rest, Trails next (some node) (node :: rest) ∧ node :: rest <:+ trail := by
  induction trails with
  | ended => cases member
  | @step first rest after ih =>
    rcases List.mem_cons.mp member with rfl | later
    · exact ⟨rest, .step after, List.suffix_rfl⟩
    · obtain ⟨tail, here, within⟩ := ih later
      exact ⟨tail, here, within.trans (List.suffix_cons _ _)⟩

theorem Trails.nodup (trails : Trails next start trail) : trail.Nodup := by
  induction trails with
  | ended => exact List.nodup_nil
  | @step first rest after ih =>
    refine List.nodup_cons.mpr ⟨?_, ih⟩
    intro again
    obtain ⟨tail, here, within⟩ := after.suffix again
    have same := here.unique (.step after)
    have longer := within.length_le
    rw [same, List.length_cons] at longer
    omega

theorem Trails.reached (trails : Trails next start trail) (member : node ∈ trail) :
    ∃ first, start = some first ∧ ReflTransGen (Precedes next) first node := by
  induction trails with
  | ended => cases member
  | @step first rest after ih =>
    refine ⟨first, rfl, ?_⟩
    rcases List.mem_cons.mp member with rfl | later
    · exact .refl
    · obtain ⟨second, found, reaches⟩ := ih later
      exact .head found reaches

theorem Trails.reaches {first : Node} (trails : Trails next (some first) trail) (reaches : ReflTransGen (Precedes next) first node) :
    node ∈ trail := by
  induction reaches with
  | refl =>
    cases trails
    exact List.mem_cons_self
  | @tail second third _ step ih =>
    obtain ⟨rest, here, within⟩ := trails.suffix ih
    cases here with
    | step after =>
      rw [show next second = some third from step] at after
      cases after
      exact within.subset (List.mem_cons_of_mem _ List.mem_cons_self)

end Trails

/-- What the strands of some nodes rest on. -/
structure Stranded (next : Node → Option Node) (nodes : List Node) : Prop where
  distinct : nodes.Nodup
  stays : ∀ one ∈ nodes, ∀ other, next one = some other → other ∈ nodes
  single : ∀ one ∈ nodes, ∀ two ∈ nodes, ∀ other, next one = some other → next two = some other → one = two
  ends : ∀ one ∈ nodes, ∃ trail, Trails next (some one) trail

/-- A node that succeeds none. -/
def IsHead (next : Node → Option Node) (nodes : List Node) (head : Node) : Prop := ∀ one ∈ nodes, next one ≠ some head

/-- The nodes of one strand: a head, what succeeds it, and on to one that nothing succeeds. -/
structure IsStrand (next : Node → Option Node) (nodes strand : List Node) : Prop where
  chain : strand.IsChain (Precedes next)
  last : ∀ node ∈ strand.getLast?, next node = none
  head : ∃ head rest, strand = head :: rest ∧ IsHead next nodes head ∧ ∀ node ∈ rest, ¬ IsHead next nodes node

variable {nodes trail : List Node} {node : Node}

namespace Stranded

variable (stranded : Stranded next nodes)
include stranded

theorem within {first : Node} (member : first ∈ nodes) (reaches : ReflTransGen (Precedes next) first node) : node ∈ nodes := by
  induction reaches with
  | refl => exact member
  | tail _ step ih => exact stranded.stays _ ih _ step

/-- Every node is on the trail of a head. -/
theorem led (member : node ∈ nodes) : ∃ head ∈ nodes, IsHead next nodes head ∧ ReflTransGen (Precedes next) head node := by
  obtain ⟨trail, trails⟩ := stranded.ends node member
  -- the further up, the longer the trail, and no trail is longer than there are nodes
  generalize room : nodes.length - trail.length = left
  induction left generalizing node trail with
  | zero =>
    refine ⟨node, member, ?_, .refl⟩
    intro one among found
    have longer : Trails next (some one) (one :: trail) := .step (found ▸ trails)
    have inside : one :: trail ⊆ nodes := by
      intro other listed
      obtain ⟨first, same, reaches⟩ := longer.reached listed
      cases same
      exact stranded.within among reaches
    have most := (List.subperm_of_subset longer.nodup inside).length_le
    rw [List.length_cons] at most
    omega
  | succ left ih =>
    by_cases head : IsHead next nodes node
    · exact ⟨node, member, head, .refl⟩
    · unfold IsHead at head
      push Not at head
      obtain ⟨one, among, found⟩ := head
      have longer : Trails next (some one) (one :: trail) := .step (found ▸ trails)
      obtain ⟨head, listed, first, reaches⟩ := ih among _ longer (by rw [List.length_cons]; omega)
      exact ⟨head, listed, first, reaches.tail found⟩

/-- Two heads of one node are one. -/
theorem led_once {one two : Node} (among : one ∈ nodes) (among' : two ∈ nodes) (head : IsHead next nodes one) (head' : IsHead next nodes two)
    (reaches : ReflTransGen (Precedes next) one node) (reaches' : ReflTransGen (Precedes next) two node) : one = two := by
  induction reaches generalizing two with
  | refl =>
    rcases ReflTransGen.cases_tail reaches' with same | ⟨before, path, step⟩
    · exact same
    · exact absurd step (head before (stranded.within among' path))
  | @tail before last path step ih =>
    rcases ReflTransGen.cases_tail reaches' with rfl | ⟨before', path', step'⟩
    · exact absurd step (head' before (stranded.within among path))
    · have same := stranded.single before (stranded.within among path) before' (stranded.within among' path') last step step'
      exact ih among' head' (same ▸ path')

/-- The nodes are the strands put together, each in one of them. -/
theorem strands : ∃ strands : List (List Node), strands.flatten.Perm nodes ∧ ∀ strand ∈ strands, IsStrand next nodes strand := by
  classical
  have each : ∀ head : {head // head ∈ nodes}, ∃ trail, Trails next (some head.1) trail := fun head => stranded.ends head.1 head.2
  choose trailOf trails using each
  let heads := nodes.attach.filter fun head => IsHead next nodes head.1
  have first (head : {head // head ∈ nodes}) (listed : head ∈ heads) : IsHead next nodes head.1 := by
    simpa using (List.mem_filter.mp listed).2
  have reached (head : {head // head ∈ nodes}) {node : Node} : node ∈ trailOf head ↔ ReflTransGen (Precedes next) head.1 node := by
    constructor
    · intro member
      obtain ⟨start, same, reaches⟩ := (trails head).reached member
      cases same
      exact reaches
    · exact (trails head).reaches
  refine ⟨heads.map trailOf, ?_, ?_⟩
  · refine (List.perm_ext_iff_of_nodup ?_ stranded.distinct).mpr ?_
    · refine List.nodup_flatten.mpr ⟨?_, ?_⟩
      · intro strand member
        obtain ⟨head, _, rfl⟩ := List.mem_map.mp member
        exact (trails head).nodup
      · refine List.pairwise_map.mpr (List.Nodup.pairwise_of_forall_ne (stranded.distinct.attach.filter _) ?_)
        intro one listed two listed' different node member member'
        apply different
        exact Subtype.ext (stranded.led_once one.2 two.2 (first one listed) (first two listed') ((reached one).mp member)
          ((reached two).mp member'))
    · intro node
      rw [List.mem_flatten]
      constructor
      · rintro ⟨strand, member, listed⟩
        obtain ⟨head, _, rfl⟩ := List.mem_map.mp member
        exact stranded.within head.2 ((reached head).mp listed)
      · intro member
        obtain ⟨head, listed, leads, reaches⟩ := stranded.led member
        refine ⟨trailOf ⟨head, listed⟩, List.mem_map_of_mem ?_, (reached ⟨head, listed⟩).mpr reaches⟩
        exact List.mem_filter.mpr ⟨List.mem_attach _ _, by simpa using leads⟩
  · intro strand member
    obtain ⟨head, listed, rfl⟩ := List.mem_map.mp member
    refine ⟨(trails head).isChain, (trails head).last, ?_⟩
    have mine := trails head
    generalize trailOf head = trail at mine
    cases mine with
    | @step _ rest after =>
      refine ⟨head.1, rest, rfl, first head listed, ?_⟩
      intro node later leads
      obtain ⟨second, found, reaches⟩ := after.reached later
      have start : ReflTransGen (Precedes next) head.1 node := .head found reaches
      -- a head further down would be the head itself
      have same := stranded.led_once head.2 (stranded.within head.2 start) (first head listed) leads start .refl
      have apart := (Trails.step after).nodup
      exact (List.nodup_cons.mp apart).1 (same ▸ later)

end Stranded

end SecureHome.Lib
