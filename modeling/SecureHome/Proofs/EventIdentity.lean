import Mathlib.Data.List.Nodup
import SecureHome.Adapters.EventSink

/-! What occupies an event identity, and what each operation of the sink may do to
the rows, the reservations and the landed facts. -/

namespace SecureHome.Adapters
open Ports RunState

theorem eraseP_eq_filter {Row : Type*} (key : Row → Nat) {rows : List Row} (distinct : (rows.map key).Nodup)
    (id : Nat) : rows.eraseP (fun row => key row == id) = rows.filter fun row => key row ≠ id := by
  induction rows with
  | nil => rfl
  | cons row rows ih =>
    obtain ⟨absent, distinct⟩ := List.nodup_cons.mp distinct
    by_cases same : key row = id
    · have rest : rows.filter (fun row => key row ≠ id) = rows := by
        refine List.filter_eq_self.mpr fun other member => ?_
        have different : key other ≠ id := fun equal =>
          absent (List.mem_map.mpr ⟨other, member, equal.trans same.symm⟩)
        simpa using different
      simpa [same] using rest.symm
    · simpa [same] using ih distinct

namespace RecordingEventSink

variable {Event : Type}

theorem stageOf_eq_some {reservation : Reservation Event} {commitId : String} {row : StoredEvent Event}
    (distinct : (reservation.stages.map (·.1)).Nodup) :
    stageOf reservation commitId = some row ↔ (commitId, row) ∈ reservation.stages := by
  constructor
  · intro found
    obtain ⟨stage, member, rfl⟩ := Option.map_eq_some_iff.mp found
    have named : stage.1 = commitId := by simpa using List.find?_some member
    obtain ⟨stage, row⟩ := stage
    obtain rfl : stage = commitId := named
    exact List.mem_of_find?_eq_some member
  · intro member
    cases found : stageOf reservation commitId with
    | none =>
      have absent := Option.map_eq_none_iff.mp found
      have := List.find?_eq_none.mp absent (commitId, row) member
      simp at this
    | some own =>
      obtain ⟨stage, hit, rfl⟩ := Option.map_eq_some_iff.mp found
      have named : stage.1 = commitId := by simpa using List.find?_some hit
      have := List.inj_on_of_nodup_map distinct (List.mem_of_find?_eq_some hit) member named
      rw [this]

/-- What every operation leaves of what a reader sees and of what a handle names. -/
structure Grows (visibility visibility' : CommitLedger) (before after : RecordingEventSink Event) : Prop where
  rows : ∀ run, ((before.byRun run).filter fun row => visibility.isVisible row.commitId).Sublist
    ((after.byRun run).filter fun row => visibility'.isVisible row.commitId)
  published : ∀ commitId, visibility.isPublished commitId = true → visibility'.isPublished commitId = true
  next : before.next ≤ after.next
  old : ∀ run row, row ∈ after.byRun run → row.id < before.next → row ∈ before.byRun run

theorem Grows.refl (visibility : CommitLedger) (sink : RecordingEventSink Event) :
    Grows visibility visibility sink sink :=
  ⟨fun _ => List.Sublist.refl _, fun _ shown => shown, Nat.le_refl _, fun _ _ member _ => member⟩

theorem Grows.trans {first second third : CommitLedger} {before middle after : RecordingEventSink Event}
    (left : Grows first second before middle) (right : Grows second third middle after) :
    Grows first third before after :=
  ⟨fun run => (left.rows run).trans (right.rows run),
    fun commitId shown => right.published commitId (left.published commitId shown), Nat.le_trans left.next right.next,
    fun run row member known =>
      left.old run row (right.old run row member (Nat.lt_of_lt_of_le known left.next)) known⟩

/-- What a reader saw stays, in order. -/
theorem Grows.events {visibility visibility' : CommitLedger} {before after : RecordingEventSink Event}
    (grows : Grows visibility visibility' before after) (run : String) :
    (before.eventsOf visibility run).Sublist (after.eventsOf visibility' run) :=
  (grows.rows run).map _

variable [Sequenced Event]

/-- The sink's rows, reservations and landed facts agree. -/
structure Valid (visibility : CommitLedger) (sink : RecordingEventSink Event) : Prop where
  fresh : ∀ run row, row ∈ sink.byRun run → row.id < sink.next
  distinct : ∀ run, ((sink.byRun run).map (·.id)).Nodup
  apart : ∀ run other row row', row ∈ sink.byRun run → row' ∈ sink.byRun other → row.id = row'.id → run = other
  landed : ∀ run sequence event, sink.landed (run, sequence) = some event →
    Sequenced.sequence event = sequence ∧ ∃ row ∈ sink.byRun run, row.commitId = none ∧ row.event = event
  ordinary : ∀ run row, row ∈ sink.byRun run → row.commitId = none →
    sink.landed (run, Sequenced.sequence row.event) = some row.event
  staged : ∀ run row commitId, row ∈ sink.byRun run → row.commitId = some commitId →
    visibility.isPublished commitId = false →
    sink.landed (run, Sequenced.sequence row.event) = none ∧
      ∃ reservation, sink.reserved (run, Sequenced.sequence row.event) = some reservation ∧
        (commitId, row) ∈ reservation.stages
  held : ∀ identity reservation, sink.reserved identity = some reservation →
    reservation.stages ≠ [] ∧ Sequenced.sequence reservation.canonical = identity.2 ∧
      (reservation.stages.map (·.1)).Nodup ∧
      ∀ commitId row, (commitId, row) ∈ reservation.stages →
        row.commitId = some commitId ∧ row.event = reservation.canonical ∧ row ∈ sink.byRun identity.1

theorem Valid.initial (visibility : CommitLedger) : Valid visibility ({} : RecordingEventSink Event) := by
  constructor <;> simp

/-- Rows with one id are one row, in one run. -/
theorem Valid.same {visibility : CommitLedger} {sink : RecordingEventSink Event} (valid : Valid visibility sink)
    {run other : String} {row row' : StoredEvent Event} (member : row ∈ sink.byRun run)
    (member' : row' ∈ sink.byRun other) (equal : row.id = row'.id) : row = row' := by
  obtain rfl := valid.apart run other row row' member member' equal
  exact List.inj_on_of_nodup_map (valid.distinct run) member member' equal

/-- What a reader of an occupied identity sees. -/
theorem durable_visible {visibility : CommitLedger} {sink : RecordingEventSink Event}
    (valid : Valid visibility sink) {run : String} {sequence : Nat} {event : Event}
    (durable : sink.durableCanonical visibility run sequence = some event) :
    Sequenced.sequence event = sequence ∧
      ∃ row ∈ sink.byRun run, visibility.isVisible row.commitId = true ∧ row.event = event := by
  unfold durableCanonical at durable
  cases landed : sink.landed (run, sequence) with
  | some fact =>
    simp only [landed, Option.some.injEq] at durable
    subst durable
    obtain ⟨same, row, member, ordinary, rfl⟩ := valid.landed run sequence fact landed
    exact ⟨same, row, member, by simp [ordinary], rfl⟩
  | none =>
    simp only [landed] at durable
    obtain ⟨row, found, rfl⟩ := Option.map_eq_some_iff.mp durable
    have occupied := List.find?_some found
    simp only [StoredEvent.occupies, Bool.and_eq_true, beq_iff_eq] at occupied
    exact ⟨occupied.2, row, List.mem_of_find?_eq_some found, occupied.1.2, rfl⟩

/-- An identity that nothing durable occupies has no visible row. -/
theorem durable_free {visibility : CommitLedger} {sink : RecordingEventSink Event}
    (valid : Valid visibility sink) {run : String} {sequence : Nat}
    (free : sink.durableCanonical visibility run sequence = none) :
    sink.landed (run, sequence) = none ∧
      ∀ row ∈ sink.byRun run, Sequenced.sequence row.event = sequence → visibility.isVisible row.commitId = false := by
  unfold durableCanonical at free
  cases landed : sink.landed (run, sequence) with
  | some fact => simp [landed] at free
  | none =>
    simp only [landed, Option.map_eq_none_iff, List.find?_eq_none] at free
    refine ⟨rfl, fun row member same => ?_⟩
    cases mark : row.commitId with
    | none =>
      have := valid.ordinary run row member mark
      rw [same, landed] at this
      cases this
    | some commitId => simpa [StoredEvent.occupies, mark, same] using free row member

/-- A handle names one row: wherever its id is stored, the row itself is stored, at the handle's identity. -/
structure Proper (sink : RecordingEventSink Event) (identity : String × Nat) (commitId : String)
    (row : StoredEvent Event) : Prop where
  tagged : row.commitId = some commitId
  known : row.id < sink.next
  placed : ∀ run other, other ∈ sink.byRun run → other.id = row.id →
    other = row ∧ identity = (run, Sequenced.sequence row.event)

theorem Grows.proper {visibility visibility' : CommitLedger} {before after : RecordingEventSink Event}
    (grows : Grows visibility visibility' before after) {identity : String × Nat} {commitId : String}
    {row : StoredEvent Event} (proper : before.Proper identity commitId row) :
    after.Proper identity commitId row := by
  refine ⟨proper.tagged, Nat.lt_of_lt_of_le proper.known grows.next, fun run other member same => ?_⟩
  exact proper.placed run other (grows.old run other member (same ▸ proper.known)) same

theorem Valid.proper {visibility : CommitLedger} {sink : RecordingEventSink Event} (valid : Valid visibility sink)
    {run commitId : String} {row : StoredEvent Event} (member : row ∈ sink.byRun run)
    (tagged : row.commitId = some commitId) :
    sink.Proper (run, Sequenced.sequence row.event) commitId row := by
  refine ⟨tagged, valid.fresh run row member, fun other row' member' same => ?_⟩
  obtain rfl := valid.same member' member same
  exact ⟨rfl, by rw [valid.apart run other row' row' member member' rfl]⟩

section Release

variable {visibility : CommitLedger} {sink : RecordingEventSink Event} {identity : String × Nat} {commitId : String}
  {row : StoredEvent Event}

/-- A handle whose row is gone releases nothing. -/
theorem release_absent (valid : Valid visibility sink) (absent : ∀ run other, other ∈ sink.byRun run → other.id ≠ row.id) :
    sink.releaseStage visibility identity commitId row = sink := by
  unfold releaseStage
  split
  · rfl
  have rows : (fun run => (sink.byRun run).eraseP fun other => other.id == row.id) = sink.byRun := by
    funext run
    refine List.eraseP_of_forall_not fun other member => ?_
    simpa using absent run other member
  have stages : ∀ reservation, sink.reserved identity = some reservation →
      (stageOf reservation commitId).map (·.id) ≠ some row.id := by
    intro reservation found equal
    obtain ⟨own, staged, same⟩ := Option.map_eq_some_iff.mp equal
    obtain ⟨_, _, distinct, members⟩ := valid.held identity reservation found
    have member := (members commitId own ((stageOf_eq_some distinct).mp staged)).2.2
    exact absent _ own member same
  rw [rows]
  cases found : sink.reserved identity with
  | none => rfl
  | some reservation => simp only [if_neg (stages reservation found)]

/-- A handle whose row stands unpublished takes out that row and its entry. -/
theorem release_present (valid : Valid visibility sink) {home : String} (member : row ∈ sink.byRun home)
    (tagged : row.commitId = some commitId) (hidden : visibility.isPublished commitId = false) :
    ∃ reservation, sink.reserved (home, Sequenced.sequence row.event) = some reservation ∧
      (commitId, row) ∈ reservation.stages ∧
      sink.releaseStage visibility (home, Sequenced.sequence row.event) commitId row =
        { sink with
          reserved := Function.update sink.reserved (home, Sequenced.sequence row.event)
            (if (reservation.stages.filter (·.1 ≠ commitId)).isEmpty then none
              else some { reservation with stages := reservation.stages.filter (·.1 ≠ commitId) })
          byRun := fun run => (sink.byRun run).filter fun other => other.id ≠ row.id } := by
  obtain ⟨_, reservation, found, entry⟩ := valid.staged home row commitId member tagged hidden
  obtain ⟨_, _, distinct, _⟩ := valid.held _ reservation found
  refine ⟨reservation, found, entry, ?_⟩
  have own : stageOf reservation commitId = some row := (stageOf_eq_some distinct).mpr entry
  unfold releaseStage
  rw [if_neg (by simp [tagged, hidden])]
  simp only [found, own, Option.map_some, if_true]
  congr 1
  funext run
  exact eraseP_eq_filter _ (valid.distinct run) row.id

theorem mem_release (valid : Valid visibility sink) (proper : sink.Proper identity commitId row)
    (hidden : visibility.isPublished commitId = false) (run : String) (other : StoredEvent Event) :
    other ∈ (sink.releaseStage visibility identity commitId row).byRun run ↔
      other ∈ sink.byRun run ∧ other.id ≠ row.id := by
  by_cases present : ∃ run other, other ∈ sink.byRun run ∧ other.id = row.id
  · obtain ⟨home, found, member, same⟩ := present
    obtain ⟨rfl, rfl⟩ := proper.placed home found member same
    obtain ⟨_, _, _, released⟩ := release_present valid member proper.tagged hidden
    simp [released]
  · have absent : ∀ run other, other ∈ sink.byRun run → other.id ≠ row.id :=
      fun run other member same => present ⟨run, other, member, same⟩
    rw [release_absent valid absent]
    exact ⟨fun member => ⟨member, absent run other member⟩, fun kept => kept.1⟩

omit [Sequenced Event] in
theorem release_published (shown : visibility.isVisible row.commitId = true) :
    sink.releaseStage visibility identity commitId row = sink := by
  simp [releaseStage, shown]

theorem release_valid (valid : Valid visibility sink) (proper : sink.Proper identity commitId row) :
    Valid visibility (sink.releaseStage visibility identity commitId row) := by
  cases hidden : visibility.isPublished commitId with
  | true => rwa [release_published (by simp [proper.tagged, hidden])]
  | false =>
  by_cases present : ∃ run other, other ∈ sink.byRun run ∧ other.id = row.id
  swap
  · rwa [release_absent valid fun run other member same => present ⟨run, other, member, same⟩]
  obtain ⟨home, found, member, same⟩ := present
  obtain ⟨rfl, rfl⟩ := proper.placed home found member same
  obtain ⟨reservation, reserved, entry, released⟩ := release_present valid member proper.tagged hidden
  obtain ⟨_, at_, distinct, members⟩ := valid.held _ reservation reserved
  rw [released]
  -- two entries of one commit in one reservation are the same entry
  have single : ∀ other, (commitId, other) ∈ reservation.stages → other = found := fun other also =>
    congrArg Prod.snd (List.inj_on_of_nodup_map distinct also entry rfl)
  constructor
  · intro run other kept
    exact valid.fresh run other (List.mem_filter.mp kept).1
  · intro run
    exact ((valid.distinct run).sublist (List.filter_sublist.map _))
  · intro run run' other other' kept kept'
    exact valid.apart run run' other other' (List.mem_filter.mp kept).1 (List.mem_filter.mp kept').1
  · intro run sequence event landed
    obtain ⟨same, other, stored, ordinary, equal⟩ := valid.landed run sequence event landed
    refine ⟨same, other, List.mem_filter.mpr ⟨stored, ?_⟩, ordinary, equal⟩
    have different : other.id ≠ found.id := fun same => by
      have := valid.same stored member same
      rw [this, proper.tagged] at ordinary
      cases ordinary
    simpa using different
  · intro run other kept ordinary
    exact valid.ordinary run other (List.mem_filter.mp kept).1 ordinary
  · intro run other commit kept tag unpublished
    obtain ⟨stored, different⟩ := List.mem_filter.mp kept
    obtain ⟨free, reserve, found', entry'⟩ := valid.staged run other commit stored tag unpublished
    refine ⟨free, ?_⟩
    by_cases here : (run, Sequenced.sequence other.event) = (home, Sequenced.sequence found.event)
    · rw [here, reserved] at found'
      obtain rfl := Option.some.inj found'
      have apart : commit ≠ commitId := fun equal => by
        subst equal
        simp [single other entry'] at different
      have remains : (commit, other) ∈ reservation.stages.filter (·.1 ≠ commitId) :=
        List.mem_filter.mpr ⟨entry', by simpa using apart⟩
      have nonempty : (reservation.stages.filter (·.1 ≠ commitId)).isEmpty = false := by
        cases empty : reservation.stages.filter (·.1 ≠ commitId) with
        | nil => rw [empty] at remains; cases remains
        | cons => rfl
      refine ⟨{ reservation with stages := reservation.stages.filter (·.1 ≠ commitId) }, ?_, remains⟩
      simp only [here, Function.update_self, nonempty, Bool.false_eq_true, if_false]
    · exact ⟨reserve, by simp [here, found'], entry'⟩
  · intro identity reserve found'
    by_cases here : identity = (home, Sequenced.sequence found.event)
    · subst here
      simp only [Function.update_self] at found'
      split at found'
      · cases found'
      next nonempty =>
        obtain rfl := Option.some.inj found'
        refine ⟨by simpa using nonempty, at_, distinct.sublist (List.filter_sublist.map _), ?_⟩
        intro commit other kept
        obtain ⟨entry', apart⟩ := List.mem_filter.mp kept
        obtain ⟨tag, event, stored⟩ := members commit other entry'
        refine ⟨tag, event, List.mem_filter.mpr ⟨stored, ?_⟩⟩
        have different : other.id ≠ found.id := fun same => by
          rw [valid.same stored member same, proper.tagged] at tag
          simp [Option.some.inj tag] at apart
        simpa using different
    · simp only [Function.update_of_ne here] at found'
      obtain ⟨nonempty, at', distinct', members'⟩ := valid.held identity reserve found'
      refine ⟨nonempty, at', distinct', fun commit other entry' => ?_⟩
      obtain ⟨tag, event, stored⟩ := members' commit other entry'
      refine ⟨tag, event, List.mem_filter.mpr ⟨stored, ?_⟩⟩
      have different : other.id ≠ found.id := fun same => here <| by
        obtain rfl := valid.same stored member same
        rw [← valid.apart identity.1 home other other stored member rfl, event, at']
      simpa using different

theorem release_grows (valid : Valid visibility sink) (proper : sink.Proper identity commitId row) :
    Grows visibility visibility sink (sink.releaseStage visibility identity commitId row) := by
  cases hidden : visibility.isPublished commitId with
  | true => rw [release_published (by simp [proper.tagged, hidden])]; exact .refl _ _
  | false =>
  by_cases present : ∃ run other, other ∈ sink.byRun run ∧ other.id = row.id
  swap
  · rw [release_absent valid fun run other member same => present ⟨run, other, member, same⟩]; exact .refl _ _
  obtain ⟨home, found, member, same⟩ := present
  obtain ⟨rfl, rfl⟩ := proper.placed home found member same
  obtain ⟨_, _, _, released⟩ := release_present valid member proper.tagged hidden
  rw [released]
  refine ⟨fun run => ?_, fun _ shown => shown, Nat.le_refl _, fun run other kept _ => (List.mem_filter.mp kept).1⟩
  -- the row that leaves was unpublished, so the visible rows are the same list
  have unseen : ((sink.byRun run).filter fun other => other.id ≠ found.id).filter
      (fun other => visibility.isVisible other.commitId) =
      (sink.byRun run).filter fun other => visibility.isVisible other.commitId := by
    rw [List.filter_filter]
    refine List.filter_congr fun other stored => ?_
    by_cases same : other.id = found.id
    · simp [valid.same stored member same, proper.tagged, hidden]
    · simp [same]
  exact unseen ▸ List.Sublist.refl _

theorem release_elsewhere (valid : Valid visibility sink) (proper : sink.Proper identity commitId row) {run : String}
    (away : run ≠ identity.1) : (sink.releaseStage visibility identity commitId row).byRun run = sink.byRun run := by
  cases hidden : visibility.isPublished commitId with
  | true => rw [release_published (by simp [proper.tagged, hidden])]
  | false =>
  by_cases present : ∃ run other, other ∈ sink.byRun run ∧ other.id = row.id
  swap
  · rw [release_absent valid fun run other member same => present ⟨run, other, member, same⟩]
  obtain ⟨home, found, member, same⟩ := present
  obtain ⟨rfl, rfl⟩ := proper.placed home found member same
  obtain ⟨_, _, _, released⟩ := release_present valid member proper.tagged hidden
  rw [released]
  refine List.filter_eq_self.mpr fun other stored => ?_
  have different : other.id ≠ found.id := fun same => away (valid.apart run home other found stored member same)
  simpa using different

theorem releaseAll_spec {stages : List (String × StoredEvent Event)} (valid : Valid visibility sink)
    (proper : ∀ stage ∈ stages, sink.Proper identity stage.1 stage.2)
    (hidden : ∀ stage ∈ stages, visibility.isPublished stage.1 = false) :
    Valid visibility (sink.releaseAll visibility identity stages) ∧
      Grows visibility visibility sink (sink.releaseAll visibility identity stages) ∧
      (∀ run, run ≠ identity.1 → (sink.releaseAll visibility identity stages).byRun run = sink.byRun run) ∧
      ∀ run other, other ∈ (sink.releaseAll visibility identity stages).byRun run ↔
        other ∈ sink.byRun run ∧ ∀ stage ∈ stages, other.id ≠ stage.2.id := by
  induction stages generalizing sink with
  | nil => exact ⟨valid, .refl _ _, fun _ _ => rfl, by simp [releaseAll]⟩
  | cons stage stages ih =>
    have own := proper stage List.mem_cons_self
    have unpublished := hidden stage List.mem_cons_self
    have grows := release_grows valid own
    obtain ⟨valid', grows', elsewhere, rows⟩ := ih (release_valid valid own)
      (fun later member => grows.proper (proper later (List.mem_cons_of_mem _ member)))
      (fun later member => hidden later (List.mem_cons_of_mem _ member))
    refine ⟨valid', grows.trans grows', fun run away => (elsewhere run away).trans (release_elsewhere valid own away),
      fun run other => ?_⟩
    have first := mem_release valid own unpublished run other
    have rest := rows run other
    simp only [releaseAll, List.foldl_cons, List.forall_mem_cons] at rest ⊢
    rw [rest, first, and_assoc]

omit [Sequenced Event] in
theorem releaseStage_frame (visibility : CommitLedger) (sink : RecordingEventSink Event) (identity : String × Nat)
    (commitId : String) (row : StoredEvent Event) :
    (sink.releaseStage visibility identity commitId row).landed = sink.landed ∧
      (sink.releaseStage visibility identity commitId row).fence = sink.fence ∧
      (sink.releaseStage visibility identity commitId row).next = sink.next := by
  unfold releaseStage
  split <;> exact ⟨rfl, rfl, rfl⟩

omit [Sequenced Event] in
theorem releaseAll_frame (visibility : CommitLedger) (sink : RecordingEventSink Event) (identity : String × Nat)
    (stages : List (String × StoredEvent Event)) :
    (sink.releaseAll visibility identity stages).landed = sink.landed ∧
      (sink.releaseAll visibility identity stages).fence = sink.fence ∧
      (sink.releaseAll visibility identity stages).next = sink.next := by
  induction stages generalizing sink with
  | nil => exact ⟨rfl, rfl, rfl⟩
  | cons stage stages ih =>
    obtain ⟨landed, fence, next⟩ := ih (sink.releaseStage visibility identity stage.1 stage.2)
    obtain ⟨landed', fence', next'⟩ := releaseStage_frame visibility sink identity stage.1 stage.2
    exact ⟨landed.trans landed', fence.trans fence', next.trans next'⟩

end Release

theorem Valid.withFence {visibility : CommitLedger} {sink : RecordingEventSink Event}
    (valid : Valid visibility sink) (fence : FenceLedger) : Valid visibility { sink with fence } :=
  ⟨valid.fresh, valid.distinct, valid.apart, valid.landed, valid.ordinary, valid.staged, valid.held⟩

omit [Sequenced Event] in
theorem Grows.withFence (visibility : CommitLedger) (sink : RecordingEventSink Event) (fence : FenceLedger) :
    Grows visibility visibility sink { sink with fence } :=
  ⟨fun _ => List.Sublist.refl _, fun _ shown => shown, Nat.le_refl _, fun _ _ member _ => member⟩

section Push

variable {visibility : CommitLedger} {sink : RecordingEventSink Event} {run : String} {event : Event}

omit [Sequenced Event] in
theorem mem_push (commitId : Option String) (home : String) (row : StoredEvent Event) :
    row ∈ (sink.push run event commitId).2.byRun home ↔
      row ∈ sink.byRun home ∨ (home = run ∧ row = ⟨sink.next, event, commitId⟩) := by
  by_cases same : home = run
  · subst same; simp [push]
  · simp [push, same]

omit [Sequenced Event] in
theorem push_grows (visibility : CommitLedger) (sink : RecordingEventSink Event) (run : String) (event : Event)
    (commitId : Option String) : Grows visibility visibility sink (sink.push run event commitId).2 := by
  refine ⟨fun home => ?_, fun _ shown => shown, Nat.le_succ _, fun home row member known => ?_⟩
  · by_cases same : home = run
    · subst same
      simp only [push, Function.update_self, List.filter_append]
      exact List.sublist_append_left _ _
    · simp [push, same]
  · rcases (mem_push commitId home row).mp member with stored | ⟨_, rfl⟩
    · exact stored
    · exact absurd known (Nat.lt_irrefl _)

/-- Ids stay below the counter, distinct, and in one run each. -/
theorem push_ids (valid : Valid visibility sink) (run : String) (event : Event) (commitId : Option String) :
    (∀ home row, row ∈ (sink.push run event commitId).2.byRun home → row.id < sink.next + 1) ∧
      (∀ home, (((sink.push run event commitId).2.byRun home).map (·.id)).Nodup) ∧
      ∀ home other row row', row ∈ (sink.push run event commitId).2.byRun home →
        row' ∈ (sink.push run event commitId).2.byRun other → row.id = row'.id → home = other := by
  refine ⟨fun home row member => ?_, fun home => ?_, fun home other row row' member member' same => ?_⟩
  · rcases (mem_push commitId home row).mp member with stored | ⟨_, rfl⟩
    · exact Nat.lt_succ_of_lt (valid.fresh home row stored)
    · exact Nat.lt_succ_self _
  · by_cases same : home = run
    · subst same
      simp only [push, Function.update_self, List.map_append, List.map_cons, List.map_nil]
      refine List.nodup_append.mpr ⟨valid.distinct home, List.nodup_singleton _, ?_⟩
      intro id stored id' last
      obtain ⟨row, member, rfl⟩ := List.mem_map.mp stored
      obtain rfl := List.mem_singleton.mp last
      exact Nat.ne_of_lt (valid.fresh home row member)
    · simpa [push, same] using valid.distinct home
  · rcases (mem_push commitId home row).mp member with stored | ⟨rfl, rfl⟩ <;>
      rcases (mem_push commitId other row').mp member' with stored' | ⟨rfl, rfl⟩
    · exact valid.apart home other row row' stored stored' same
    · exact absurd same (Nat.ne_of_lt (valid.fresh home row stored))
    · exact absurd same.symm (Nat.ne_of_lt (valid.fresh other row' stored'))
    · rfl

/-- Landing an event at an identity no row holds. -/
theorem land_valid (valid : Valid visibility sink)
    (free : ∀ row ∈ sink.byRun run, Sequenced.sequence row.event ≠ Sequenced.sequence event) :
    Valid visibility (sink.land run (Sequenced.sequence event) event) := by
  have rows : ∀ home row, row ∈ (sink.land run (Sequenced.sequence event) event).byRun home ↔
      row ∈ sink.byRun home ∨ (home = run ∧ row = ⟨sink.next, event, none⟩) := mem_push none
  obtain ⟨fresh, distinct, apart⟩ := push_ids valid run event none
  have elsewhere : ∀ home row, row ∈ sink.byRun home →
      (home, Sequenced.sequence row.event) ≠ (run, Sequenced.sequence event) := by
    intro home row stored equal
    obtain ⟨rfl, same⟩ := Prod.mk.inj equal
    exact free row stored same
  refine ⟨fresh, distinct, apart, ?_, ?_, ?_, ?_⟩
  · intro home sequence fact landed
    by_cases here : (home, sequence) = (run, Sequenced.sequence event)
    · obtain ⟨rfl, rfl⟩ := Prod.mk.inj here
      obtain rfl : event = fact := by simpa [land, push] using landed
      exact ⟨rfl, _, (rows home _).mpr (.inr ⟨rfl, rfl⟩), rfl, rfl⟩
    · have before : sink.landed (home, sequence) = some fact := by simpa [land, push, here] using landed
      obtain ⟨same, row, stored, tag, equal⟩ := valid.landed home sequence fact before
      exact ⟨same, row, (rows home row).mpr (.inl stored), tag, equal⟩
  · intro home row member tag
    rcases (rows home row).mp member with stored | ⟨rfl, rfl⟩
    · simpa [land, push, elsewhere home row stored] using valid.ordinary home row stored tag
    · simp [land, push]
  · intro home row commitId member tag unpublished
    rcases (rows home row).mp member with stored | ⟨rfl, rfl⟩
    · simpa [land, push, elsewhere home row stored] using valid.staged home row commitId stored tag unpublished
    · cases tag
  · intro identity reservation found
    obtain ⟨nonempty, same, keys, members⟩ := valid.held identity reservation found
    refine ⟨nonempty, same, keys, fun commitId row entry => ?_⟩
    obtain ⟨tag, equal, stored⟩ := members commitId row entry
    exact ⟨tag, equal, (rows _ row).mpr (.inl stored)⟩

/-- The sink after one more commit staged its own row at an identity. -/
def reserve (sink : RecordingEventSink Event) (run commitId : String) (event : Event)
    (stages : List (String × StoredEvent Event)) : RecordingEventSink Event :=
  { (sink.push run event (some commitId)).2 with
    reserved := Function.update sink.reserved (run, Sequenced.sequence event)
      (some ⟨event, stages ++ [(commitId, ⟨sink.next, event, some commitId⟩)]⟩) }

@[simp] theorem reserve_reserved (commitId : String) (stages : List (String × StoredEvent Event)) :
    (sink.reserve run commitId event stages).reserved (run, Sequenced.sequence event) =
      some ⟨event, stages ++ [(commitId, ⟨sink.next, event, some commitId⟩)]⟩ := by simp [reserve]

theorem reserve_valid {stages : List (String × StoredEvent Event)} {commitId : String}
    (valid : Valid visibility sink) (free : sink.landed (run, Sequenced.sequence event) = none)
    (keys : (stages.map (·.1)).Nodup) (new : ∀ row, (commitId, row) ∉ stages)
    (members : ∀ commit row, (commit, row) ∈ stages →
      row.commitId = some commit ∧ row.event = event ∧ row ∈ sink.byRun run)
    (covers : ∀ commit row, row ∈ sink.byRun run → Sequenced.sequence row.event = Sequenced.sequence event →
      row.commitId = some commit → visibility.isPublished commit = false → (commit, row) ∈ stages) :
    Valid visibility (sink.reserve run commitId event stages) := by
  have rows : ∀ home row, row ∈ (sink.reserve run commitId event stages).byRun home ↔
      row ∈ sink.byRun home ∨ (home = run ∧ row = ⟨sink.next, event, some commitId⟩) := mem_push (some commitId)
  obtain ⟨fresh, distinct, apart⟩ := push_ids valid run event (some commitId)
  refine ⟨fresh, distinct, apart, ?_, ?_, ?_, ?_⟩
  · intro home sequence fact landed
    obtain ⟨same, row, stored, tag, equal⟩ := valid.landed home sequence fact landed
    exact ⟨same, row, (rows home row).mpr (.inl stored), tag, equal⟩
  · intro home row member tag
    rcases (rows home row).mp member with stored | ⟨rfl, rfl⟩
    · exact valid.ordinary home row stored tag
    · cases tag
  · intro home row commit member tag unpublished
    rcases (rows home row).mp member with stored | ⟨rfl, rfl⟩
    · obtain ⟨open_, reservation, found, entry⟩ := valid.staged home row commit stored tag unpublished
      refine ⟨open_, ?_⟩
      by_cases here : (home, Sequenced.sequence row.event) = (run, Sequenced.sequence event)
      · obtain ⟨rfl, same⟩ := Prod.mk.inj here
        rw [same]
        exact ⟨_, reserve_reserved commitId stages,
          List.mem_append_left _ (covers commit row stored same tag unpublished)⟩
      · exact ⟨reservation, by simp [reserve, here, found], entry⟩
    · obtain rfl : commitId = commit := Option.some.inj tag
      exact ⟨free, _, reserve_reserved commitId stages, List.mem_append_right _ List.mem_cons_self⟩
  · intro identity reservation found
    by_cases here : identity = (run, Sequenced.sequence event)
    · subst here
      obtain rfl : _ = reservation := by simpa [reserve] using found
      refine ⟨by simp, rfl, ?_, fun commit row entry => ?_⟩
      · simp only [List.map_append, List.map_cons, List.map_nil]
        refine List.nodup_append.mpr ⟨keys, List.nodup_singleton _, fun commit member other last => ?_⟩
        obtain ⟨⟨commit, row⟩, entry, rfl⟩ := List.mem_map.mp member
        obtain rfl := List.mem_singleton.mp last
        rintro rfl
        exact new row entry
      · rcases List.mem_append.mp entry with entry | last
        · obtain ⟨tag, equal, stored⟩ := members commit row entry
          exact ⟨tag, equal, (rows run row).mpr (.inl stored)⟩
        · obtain ⟨rfl, rfl⟩ := Prod.mk.inj (List.mem_singleton.mp last)
          exact ⟨rfl, rfl, (rows run _).mpr (.inr ⟨rfl, rfl⟩)⟩
    · have before : sink.reserved identity = some reservation := by simpa [reserve, here] using found
      obtain ⟨nonempty, same, keys', members'⟩ := valid.held identity reservation before
      refine ⟨nonempty, same, keys', fun commit row entry => ?_⟩
      obtain ⟨tag, equal, stored⟩ := members' commit row entry
      exact ⟨tag, equal, (rows _ row).mpr (.inl stored)⟩

end Push

end RecordingEventSink

end SecureHome.Adapters
