import SecureHome.Proofs.MachineHistory
import SecureHome.RunState.Outbox

/-! Where a machine's transitions go: to the outbox, to a reader of the pending
journal, or with an adopted commit. One cursor stands for all three. -/

namespace SecureHome.RunState
open Lib Lifecycle

inductive Route where
  | enqueued
  | confirmed
  | carried
  deriving DecidableEq, Repr

/-- One transition handed on, by its place in the record. -/
structure Handing where
  position : Nat
  route : Route
  entry : TransitionEntry
  deriving DecidableEq, Repr

def handings (route : Route) : Nat → List TransitionEntry → List Handing
  | _, [] => []
  | position, entry :: rest => ⟨position, route, entry⟩ :: handings route (position + 1) rest

/-- What the outbox was given, of the transitions. -/
def JournalOutbox.transitions (outbox : JournalOutbox) : List TransitionEntry :=
  outbox.pending.filterMap fun pending =>
    match pending.fact with
    | .transition entry => some entry
    | _ => none

/-- A machine, its outbox, the reads of the pending journal not confirmed yet, and
every handing and adoption so far. -/
structure Handover where
  history : MachineHistory
  outbox : JournalOutbox
  reads : List (Nat × List TransitionEntry) := []
  handed : List Handing := []
  adopted : List CommitCapability := []

namespace Handover

abbrev machine (handover : Handover) : RunMachine := handover.history.machine

inductive Action where
  | operate (operation : MachineOperation)
  | drainMachine
  | pendingJournal
  /-- A read is landed as far as `transitions` of its entries, and that many confirmed. -/
  | confirmJournaled (read : Nat × List TransitionEntry) (transitions rejections : Nat)

/-- The capability an operation gets adopted. -/
def adopts (handover : Handover) : MachineOperation → Option CommitCapability
  | .commitProjected capability =>
    if handover.history.Presentable capability ∧ (handover.machine.commitProjected capability).1.isOk then some capability
    else none
  | _ => none

def act (handover : Handover) : Action → Handover
  | .operate operation =>
    let history := handover.history.operate operation
    match handover.adopts operation with
    | none => { handover with history }
    | some capability =>
      { handover with
        history
        handed := handover.handed ++ handings .carried handover.machine.transitionRecord.length capability.entries
        adopted := handover.adopted ++ [capability] }
  | .drainMachine =>
    let drained := handover.outbox.drainMachine handover.machine
    { handover with
      history := { handover.history with machine := drained.2 }
      outbox := drained.1
      handed := handover.handed ++
        handings .enqueued handover.machine.journaledTransitions handover.machine.pendingTransitions }
  | .pendingJournal =>
    { handover with
      reads := handover.reads ++ [(handover.machine.journaledTransitions, handover.machine.pendingTransitions)] }
  | .confirmJournaled read transitions rejections =>
    if read ∈ handover.reads then
      let landed := read.2.take transitions
      { handover with
        history := { handover.history with machine := handover.machine.confirmJournaled landed.length rejections }
        reads := handover.reads.erase read
        handed := handover.handed ++ handings .confirmed read.1 landed }
    else handover

/-- A commit that carries anything is adopted while nothing is pending in the machine,
and what is confirmed was read where the cursor still stands. -/
def Orderly (handover : Handover) : Action → Prop
  | .operate operation =>
    ∀ capability ∈ handover.adopts operation, capability.entries = [] ∨ handover.machine.pendingTransitions = []
  | .confirmJournaled read transitions _ =>
    read.2.take transitions = [] ∨ read.1 = handover.machine.journaledTransitions
  | _ => True

/-- A transition of the record went one way, once. -/
def Routed (handover : Handover) (position : Nat) (entry : TransitionEntry) : Prop :=
  ∃ route, handover.handed.filter (fun handing => handing.position = position) = [⟨position, route, entry⟩]

/-- Exactly the first `cursor` transitions of the record were handed on, each once. -/
def Once (record : List TransitionEntry) (cursor : Nat) (handed : List Handing) : Prop :=
  ∀ position, (cursor ≤ position → handed.filter (fun handing => handing.position = position) = []) ∧
    (position < cursor → ∃ entry, record[position]? = some entry ∧
      ∃ route, handed.filter (fun handing => handing.position = position) = [⟨position, route, entry⟩])

theorem Once.grow {record : List TransitionEntry} {cursor : Nat} {handed : List Handing}
    (once : Once record cursor handed) (more : List TransitionEntry) : Once (record ++ more) cursor handed := by
  intro position
  refine ⟨(once position).1, fun below => ?_⟩
  obtain ⟨entry, found, routed⟩ := (once position).2 below
  refine ⟨entry, ?_, routed⟩
  rw [List.getElem?_append_left (List.getElem?_eq_some_iff.mp found).1]
  exact found

/-- Handing on the entries at the cursor moves the cursor past them. -/
theorem Once.hand {record : List TransitionEntry} (route : Route) {entries : List TransitionEntry} {cursor : Nat}
    {handed : List Handing} (once : Once record cursor handed) (next : entries <+: record.drop cursor) :
    Once record (cursor + entries.length) (handed ++ handings route cursor entries) := by
  induction entries generalizing cursor handed with
  | nil => simpa [handings] using once
  | cons entry rest ih =>
    obtain ⟨beyond, split⟩ := next
    have found : record[cursor]? = some entry := by
      have head := congrArg (fun list => list[0]?) split
      simpa using head.symm
    have onward : Once record (cursor + 1) (handed ++ [⟨cursor, route, entry⟩]) := by
      intro position
      rcases Nat.lt_trichotomy position cursor with below | rfl | above
      · refine ⟨fun beyond => by omega, fun _ => ?_⟩
        obtain ⟨landed, at_, way, only⟩ := (once position).2 below
        refine ⟨landed, at_, way, ?_⟩
        simp [only, Nat.ne_of_gt below]
      · refine ⟨fun beyond => by omega, fun _ => ⟨entry, found, route, ?_⟩⟩
        simp [(once position).1 (Nat.le_refl _)]
      · refine ⟨fun _ => ?_, fun under => by omega⟩
        simp [(once position).1 (Nat.le_of_lt above), Nat.ne_of_lt above]
    have rest := ih onward ⟨beyond, by
      rw [← List.drop_drop, ← split]
      simp⟩
    simpa [handings, Nat.add_assoc, Nat.add_comm 1] using rest

@[simp] theorem handings_route (route other : Route) (position : Nat) (entries : List TransitionEntry) :
    ((handings route position entries).filter fun handing => handing.route = other).map (·.entry) =
      if route = other then entries else [] := by
  induction entries generalizing position with
  | nil => simp [handings]
  | cons entry rest ih =>
    by_cases same : route = other
    · simpa [handings, same] using ih (position + 1)
    · simpa [handings, same] using ih (position + 1)

/-- An operation extends the record, and moves the cursor only by what it adopts. -/
theorem operate_record (handover : Handover) (operation : MachineOperation) :
    let after := (handover.history.operate operation).machine
    match handover.adopts operation with
    | none => after.journaledTransitions = handover.machine.journaledTransitions ∧
        ∃ more, after.transitionRecord = handover.machine.transitionRecord ++ more
    | some capability =>
      after.journaledTransitions = handover.machine.journaledTransitions + capability.entries.length ∧
        after.transitionRecord = handover.machine.transitionRecord ++ capability.entries := by
  intro after
  cases operation with
  | apply claim kind cause instant =>
    rcases handover.machine.apply_cases claim kind cause instant with ⟨next, _, _, _, taken⟩ | ⟨_, entry, refused⟩
    · exact ⟨congrArg (·.2.journaledTransitions) taken, _, congrArg (·.2.transitionRecord) taken⟩
    · exact ⟨congrArg (·.2.journaledTransitions) refused, [], by
        rw [List.append_nil]; exact congrArg (·.2.transitionRecord) refused⟩
  | hold kind detail instant => exact ⟨rfl, [], (List.append_nil _).symm⟩
  | advance kind cause instant =>
    rcases handover.machine.advance_cases kind cause instant with ⟨next, _, _, taken⟩ | ⟨_, entry, refused⟩
    · exact ⟨congrArg (·.2.journaledTransitions) taken, _, congrArg (·.2.transitionRecord) taken⟩
    · exact ⟨congrArg (·.2.journaledTransitions) refused, [], by
        rw [List.append_nil]; exact congrArg (·.2.transitionRecord) refused⟩
  | project steps clock =>
    simp only [adopts, after, MachineHistory.operate, MachineHistory.projection]
    rcases handover.machine.project_cases steps ((List.range steps.length).map clock) with
      ⟨kind, source, refused⟩ | ⟨legs, _, granted⟩
    · rw [show handover.history.machine = handover.machine from rfl, refused]
      exact ⟨rfl, [], (List.append_nil _).symm⟩
    · rw [show handover.history.machine = handover.machine from rfl, granted]
      exact ⟨rfl, [], (List.append_nil _).symm⟩
  | commitProjected capability =>
    simp only [adopts, after, MachineHistory.operate]
    by_cases known : handover.history.Presentable capability
    · rw [if_pos known, show handover.history.machine = handover.machine from rfl]
      rcases handover.machine.commitProjected_cases capability with
        ⟨remembered, current⟩ | ⟨message, projections, refused⟩
      · rw [RunMachine.commitProjected_adopts remembered current]
        simp [known, Except.isOk, Except.toBool]
      · rw [refused]
        simp [Except.isOk, Except.toBool]
    · rw [if_neg known]
      simp [known, machine]

/-- Every handing is accounted for on the side it went to. -/
structure Matched (handover : Handover) : Prop where
  enqueued : handover.outbox.transitions =
    (handover.handed.filter fun handing => handing.route = .enqueued).map (·.entry)
  carried : handover.adopted.flatMap (·.entries) =
    (handover.handed.filter fun handing => handing.route = .carried).map (·.entry)

/-- The cursor stands within the record, whatever is before it was handed on once, and
what was read is still there. -/
structure Accounted (handover : Handover) : Prop where
  within : handover.machine.journaledTransitions ≤ handover.machine.transitionRecord.length
  once : Once handover.machine.transitionRecord handover.machine.journaledTransitions handover.handed
  reads : ∀ read ∈ handover.reads, read.2 <+: handover.machine.transitionRecord.drop read.1

theorem record_transitions (outbox : JournalOutbox) (entries : List TransitionEntry) (rejections : List RejectionEntry) :
    ((entries.map Ports.JournalFact.transition ++ rejections.map Ports.JournalFact.rejection).foldl JournalOutbox.record
      outbox).transitions = outbox.transitions ++ entries := by
  have recorded (outbox : JournalOutbox) (fact : Ports.JournalFact) : (outbox.record fact).transitions =
      outbox.transitions ++ (match fact with | .transition entry => [entry] | _ => []) := by
    cases fact <;> simp [JournalOutbox.record, JournalOutbox.transitions]
  induction entries generalizing outbox with
  | nil =>
    induction rejections generalizing outbox with
    | nil => simp
    | cons entry rest ih => simpa [recorded] using ih (outbox.record (.rejection entry))
  | cons entry rest ih => simpa [recorded] using ih (outbox.record (.transition entry))

theorem Matched.act {handover : Handover} (matched : handover.Matched) (action : Action) :
    (handover.act action).Matched := by
  obtain ⟨enqueued, carried⟩ := matched
  cases action with
  | operate operation =>
    simp only [Handover.act]
    split
    · exact ⟨enqueued, carried⟩
    · exact ⟨by simp [enqueued], by simp [carried]⟩
  | drainMachine =>
    refine ⟨?_, by simp [Handover.act, carried]⟩
    simp only [Handover.act, JournalOutbox.drainMachine, record_transitions, enqueued]
    simp
  | pendingJournal => exact ⟨enqueued, carried⟩
  | confirmJournaled read transitions rejections =>
    simp only [Handover.act]
    split
    · exact ⟨by simp [enqueued], by simp [carried]⟩
    · exact ⟨enqueued, carried⟩

private theorem Accounted.operate {handover : Handover} (accounted : handover.Accounted) (operation : MachineOperation)
    (orderly : handover.Orderly (.operate operation)) : (handover.act (.operate operation)).Accounted := by
  obtain ⟨within, once, reads⟩ := accounted
  have record := operate_record handover operation
  have kept {more : List TransitionEntry} : ∀ read ∈ handover.reads,
      read.2 <+: (handover.machine.transitionRecord ++ more).drop read.1 := by
    intro read listed
    rw [List.drop_append]
    exact (reads read listed).trans (List.prefix_append _ _)
  simp only [act]
  cases adopted : handover.adopts operation with
  | none =>
    rw [adopted] at record
    obtain ⟨cursor, more, grown⟩ := record
    refine ⟨?_, ?_, ?_⟩
    all_goals simp only [machine, cursor, grown]
    · rw [List.length_append]; exact Nat.le_add_right_of_le within
    · exact once.grow more
    · exact kept
  | some capability =>
    rw [adopted] at record
    obtain ⟨cursor, grown⟩ := record
    refine ⟨?_, ?_, ?_⟩
    all_goals simp only [machine, cursor, grown]
    · rw [List.length_append]; exact Nat.add_le_add_right within _
    · rcases orderly capability adopted with empty | drained
      · simpa [empty, handings] using once
      · -- With nothing pending the cursor stands at the end, where the commit's entries go.
        have atEnd : handover.machine.journaledTransitions = handover.machine.transitionRecord.length :=
          Nat.le_antisymm within (List.drop_eq_nil_iff.mp drained)
        have next : capability.entries <+: (handover.machine.transitionRecord ++ capability.entries).drop
            handover.machine.journaledTransitions :=
          ⟨[], by rw [List.append_nil, atEnd, List.drop_left]⟩
        have handed := (once.grow capability.entries).hand .carried next
        rw [← atEnd]
        exact handed
    · exact kept

/-- One step of the cursor: whatever is handed on in order stays accounted for. -/
theorem Accounted.act {handover : Handover} (accounted : handover.Accounted) (action : Action)
    (orderly : handover.Orderly action) : (handover.act action).Accounted := by
  cases action with
  | operate operation => exact accounted.operate operation orderly
  | drainMachine =>
    obtain ⟨within, once, reads⟩ := accounted
    refine ⟨?_, once.hand .enqueued List.prefix_rfl, reads⟩
    simp only [Handover.act, JournalOutbox.drainMachine, machine, RunMachine.confirmJournaled,
      RunMachine.pendingTransitions, List.length_drop]
    simp only [machine] at within
    omega
  | pendingJournal =>
    obtain ⟨within, once, reads⟩ := accounted
    refine ⟨within, once, ?_⟩
    intro read listed
    rcases List.mem_append.mp listed with listed | fresh
    · exact reads read listed
    · rw [List.mem_singleton.mp fresh]
      exact List.prefix_rfl
  | confirmJournaled read transitions rejections =>
    obtain ⟨within, once, reads⟩ := accounted
    simp only [Handover.act]
    split
    next known =>
      have landed := (List.take_prefix transitions read.2).trans (reads read known)
      rcases orderly with none | current
      · have kept : Once handover.machine.transitionRecord handover.machine.journaledTransitions
            (handover.handed ++ handings .confirmed read.1 []) := by simpa [handings] using once
        rw [none]
        exact ⟨within, kept, fun other listed => reads other (List.mem_of_mem_erase listed)⟩
      · rw [current] at landed ⊢
        refine ⟨?_, once.hand .confirmed landed, fun other listed => reads other (List.mem_of_mem_erase listed)⟩
        have short := landed.length_le
        rw [List.length_drop] at short
        simp only [machine, RunMachine.confirmJournaled] at within short ⊢
        omega
    · exact ⟨within, once, reads⟩

/-- A fresh machine and its empty outbox. -/
def initial (identity : Nat) (runId : String) (table : TransitionTable) (identityPrefix : String) : Handover :=
  ⟨⟨{ identity, runId, table }, []⟩, ⟨identityPrefix, [], 0⟩, [], [], []⟩

/-- Once the machine is drained, every transition it recorded went one way and once:
to the outbox, to a confirmed read, or with one adopted commit. -/
theorem routed_once (identity : Nat) (runId : String) (table : TransitionTable) (identityPrefix : String)
    (actions : List Action) (orderly : Along act Orderly (initial identity runId table identityPrefix) actions) :
    let handover := after act (initial identity runId table identityPrefix) actions
    handover.Matched ∧ (handover.machine.pendingTransitions = [] →
      ∀ position entry, handover.machine.transitionRecord[position]? = some entry → handover.Routed position entry) := by
  intro handover
  have matched : handover.Matched :=
    invariant_after Matched (fun _ action kept => kept.act action) ⟨rfl, rfl⟩ actions
  have accounted : handover.Accounted := by
    refine invariant_along Accounted (fun _ action kept allowed => kept.act action allowed) ?_ orderly
    refine ⟨Nat.le_refl _, ?_, fun _ absent => nomatch absent⟩
    intro position
    exact ⟨fun _ => rfl, fun below => absurd below (Nat.not_lt_zero position)⟩
  refine ⟨matched, fun drained position entry found => ?_⟩
  have inside := (List.getElem?_eq_some_iff.mp found).1
  have whole := List.drop_eq_nil_iff.mp drained
  obtain ⟨same, known, routed⟩ := (accounted.once position).2 (Nat.lt_of_lt_of_le inside whole)
  cases known.symm.trans found
  exact routed

/-- One transition pending while a commit is adopted, then a drain. -/
def overtakingCommit : List Action :=
  [.operate (.advance .resolveProfile "profile resolved" "t0"),
    .operate (.project [⟨.decideEligibility, "eligible"⟩] fun _ => "t1"),
    .operate (.commitProjected ⟨0, 0, [⟨"run", .profileResolved, .eligible, .decideEligibility, "eligible", "t1"⟩], 1⟩),
    .drainMachine]

/-- The commit moves the cursor over the pending transition: the drained machine has
lost it, and hands the committed one to the outbox again. -/
theorem overtaken_lost_and_doubled :
    let handover := after act (initial 0 "run" transitions "run#g1") overtakingCommit
    handover.machine.pendingTransitions = [] ∧
    handover.machine.transitionRecord.map (·.kind) = [.resolveProfile, .decideEligibility] ∧
    handover.handed.filter (fun handing => handing.position = 0) = [] ∧
    (handover.handed.filter fun handing => handing.position = 1).map (·.route) = [.carried, .enqueued] := by
  decide

/-- The same operations with a drain before the commit. -/
theorem drained_first_routed_once :
    let actions : List Action := overtakingCommit.take 1 ++ .drainMachine :: overtakingCommit.drop 1
    Along act Orderly (initial 0 "run" transitions "run#g1") actions ∧
    (after act (initial 0 "run" transitions "run#g1") actions).Routed 1
      ⟨"run", .profileResolved, .eligible, .decideEligibility, "eligible", "t1"⟩ :=
  have orderly : Along act Orderly (initial 0 "run" transitions "run#g1")
      (overtakingCommit.take 1 ++ .drainMachine :: overtakingCommit.drop 1) :=
    ⟨fun _ absent => (nomatch absent), trivial, fun _ absent => (nomatch absent), fun _ _ => .inr (by decide), trivial,
      trivial⟩
  ⟨orderly, (routed_once 0 "run" transitions "run#g1" _ orderly).2 (by decide) 1 _ (by decide)⟩

end Handover

end SecureHome.RunState
