import SecureHome.Lib.Tagged
import SecureHome.Proofs.EventIdentity

/-! One statement for each operation of the event sink: what it answers, what it
adds and what it takes away. -/

namespace SecureHome.Adapters.RecordingEventSink
open Lib Ports RunState

variable {Event : Type} [Sequenced Event] {visibility : CommitLedger}
  {sink : RecordingEventSink Event}

/-- The rows an operation adds are new, at identities no reader saw anything at. -/
def Adds (visibility : CommitLedger) (before after : RecordingEventSink Event) : Prop :=
  ∀ run row, row ∈ after.byRun run → row ∈ before.byRun run ∨
    (row.id = before.next ∧ ∀ other ∈ before.byRun run,
      Sequenced.sequence other.event = Sequenced.sequence row.event → visibility.isVisible other.commitId = false)

/-- What a reader may count on after any operation. -/
structure Keeps (visibility : CommitLedger) (before after : RecordingEventSink Event) : Prop where
  valid : Valid visibility after
  grows : Grows visibility visibility before after
  adds : Adds visibility before after

theorem Keeps.withFence (valid : Valid visibility sink) (fence : FenceLedger) :
    Keeps visibility sink { sink with fence } :=
  ⟨valid.withFence fence, .withFence visibility sink fence, fun _ _ member => .inl member⟩

/-- A row pushed at an identity with nothing durable. -/
theorem push_adds {run : String} {event : Event} (commitId : Option String)
    (free : ∀ row ∈ sink.byRun run, Sequenced.sequence row.event = Sequenced.sequence event →
      visibility.isVisible row.commitId = false) :
    Adds visibility sink (sink.push run event commitId).2 := by
  intro home row member
  rcases (mem_push commitId home row).mp member with stored | ⟨rfl, rfl⟩
  · exact .inl stored
  · exact .inr ⟨rfl, free⟩

/-- An unpublished row lives in the reservation of its identity. -/
theorem live_of_hidden (valid : Valid visibility sink) {run : String} {row : StoredEvent Event}
    (member : row ∈ sink.byRun run) (hidden : visibility.isVisible row.commitId = false) :
    ∃ reservation commitId, sink.liveReservation visibility (run, Sequenced.sequence row.event) = some reservation ∧
      (commitId, row) ∈ reservation.stages := by
  cases tag : row.commitId with
  | none => simp [tag] at hidden
  | some commitId =>
    obtain ⟨_, reservation, found, entry⟩ := valid.staged run row commitId member tag (by simpa [tag] using hidden)
    refine ⟨reservation, commitId, ?_, entry⟩
    have unpublished : reservation.stages.any (fun stage => !visibility.isVisible stage.2.commitId) = true :=
      List.any_eq_true.mpr ⟨_, entry, by simp [hidden]⟩
    simp [liveReservation, found, unpublished]

omit [Sequenced Event] in
theorem live_reserved {identity : String × Nat} {reservation : Reservation Event}
    (live : sink.liveReservation visibility identity = some reservation) :
    sink.reserved identity = some reservation := by
  unfold liveReservation at live
  split at live
  · cases live
  next found =>
    split at live
    · rw [found, ← Option.some.inj live]
    · cases live

/-- What an ordinary emission does to its sink. -/
structure Emits (visibility : CommitLedger) (fence : RunFence) (event : Event) (before : RecordingEventSink Event)
    (result : FenceOutcome × RecordingEventSink Event) : Prop extends Keeps visibility before result.2 where
  shown : result.1 = .ok → event ∈ result.2.eventsOf visibility fence.runId
  kept : ∀ run row, row ∈ before.byRun run → row ∈ result.2.byRun run ∨
    (result.1 = .ok ∧ run = fence.runId ∧ row.event = event)
  ordinary : ∀ run row, row ∈ result.2.byRun run → row ∈ before.byRun run ∨ (run = fence.runId ∧ row.commitId = none)
  elsewhere : ∀ run, (run ≠ fence.runId ∨ (before.fence.refuse fence).1.isSome) →
    result.2.byRun run = before.byRun run
  fences : result.2.fence = (before.fence.refuse fence).2

private theorem settled (valid : Valid visibility sink) {fence : RunFence} {event : Event} {ledger : FenceLedger}
    (fenced : (sink.fence.refuse fence).2 = ledger) {outcome : FenceOutcome}
    (shown : outcome = .ok → event ∈ sink.eventsOf visibility fence.runId) :
    Emits visibility fence event sink (outcome, { sink with fence := ledger }) :=
  ⟨.withFence valid ledger, shown, fun _ _ member => .inl member, fun _ _ member => .inl member, fun _ _ => rfl,
    fenced.symm⟩

private theorem land_spec {cleared : RecordingEventSink Event} {fence : RunFence}
    {event : Event} (kept : Valid visibility cleared) (grows : Grows visibility visibility sink cleared)
    (admitted : (sink.fence.refuse fence).1 = none) (fenced : cleared.fence = (sink.fence.refuse fence).2)
    (same : cleared.next = sink.next) (rows : ∀ run row, row ∈ cleared.byRun run → row ∈ sink.byRun run)
    (away : ∀ run, run ≠ fence.runId → cleared.byRun run = sink.byRun run)
    (free : ∀ row ∈ sink.byRun fence.runId, Sequenced.sequence row.event = Sequenced.sequence event →
      visibility.isVisible row.commitId = false)
    (clear : ∀ row ∈ cleared.byRun fence.runId, Sequenced.sequence row.event ≠ Sequenced.sequence event)
    (retired : ∀ run row, row ∈ sink.byRun run → row ∈ cleared.byRun run ∨ (run = fence.runId ∧ row.event = event)) :
    Emits visibility fence event sink (.ok, cleared.land fence.runId (Sequenced.sequence event) event) := by
  have pushed : ∀ home row, row ∈ (cleared.land fence.runId (Sequenced.sequence event) event).byRun home ↔
      row ∈ cleared.byRun home ∨ (home = fence.runId ∧ row = ⟨cleared.next, event, none⟩) := mem_push none
  refine ⟨⟨land_valid kept clear, ?_, ?_⟩, ?_, ?_, ?_, ?_, fenced⟩
  · have landing : Grows visibility visibility cleared (cleared.land fence.runId (Sequenced.sequence event) event) := by
      obtain ⟨rows, published, next, old⟩ := push_grows visibility cleared fence.runId event none
      exact ⟨rows, published, next, old⟩
    exact grows.trans landing
  · intro home row member
    rcases (pushed home row).mp member with stored | ⟨rfl, rfl⟩
    · exact .inl (rows home row stored)
    · exact .inr ⟨same, free⟩
  · intro _
    refine List.mem_map.mpr ⟨⟨cleared.next, event, none⟩, List.mem_filter.mpr ⟨?_, rfl⟩, rfl⟩
    exact (pushed fence.runId _).mpr (.inr ⟨rfl, rfl⟩)
  · intro home row stored
    rcases retired home row stored with remains | gone
    · exact .inl ((pushed home row).mpr (.inl remains))
    · exact .inr ⟨rfl, gone⟩
  · intro home row member
    rcases (pushed home row).mp member with stored | ⟨rfl, rfl⟩
    · exact .inl (rows home row stored)
    · exact .inr ⟨rfl, rfl⟩
  · intro home apart
    have different : home ≠ fence.runId := apart.resolve_right (by simp [admitted])
    simpa [land, push, different] using away home different

/-- An emission lands its event, finds it durable, or is refused and changes no row. -/
theorem emit_spec [DecidableEq Event] (valid : Valid visibility sink) (fence : RunFence) (event : Event) :
    Emits visibility fence event sink (sink.emit visibility fence (Sequenced.sequence event) event) := by
  unfold emit
  cases refused : sink.fence.refuse fence with
  | mk detail ledger =>
  cases detail with
  | some detail =>
    exact settled valid (by rw [refused]) fun same => by cases same
  | none =>
  have durability : ({ sink with fence := ledger } : RecordingEventSink Event).durableCanonical visibility fence.runId
      (Sequenced.sequence event) = sink.durableCanonical visibility fence.runId (Sequenced.sequence event) := rfl
  cases durable : sink.durableCanonical visibility fence.runId (Sequenced.sequence event) with
  | some fact =>
    simp only [durability, durable]
    split
    next same =>
      subst same
      obtain ⟨_, row, member, shown, rfl⟩ := durable_visible valid durable
      exact settled valid (by rw [refused]) fun _ => List.mem_map.mpr ⟨row, List.mem_filter.mpr ⟨member, shown⟩, rfl⟩
    · exact settled valid (by rw [refused]) fun same => by cases same
  | none =>
    obtain ⟨vacant, hidden⟩ := durable_free valid durable
    simp only [durability, durable]
    have liveness : ({ sink with fence := ledger } : RecordingEventSink Event).liveReservation visibility
        (fence.runId, Sequenced.sequence event) =
        sink.liveReservation visibility (fence.runId, Sequenced.sequence event) := rfl
    simp only [liveness]
    cases live : sink.liveReservation visibility (fence.runId, Sequenced.sequence event) with
    | none =>
      refine land_spec (valid.withFence ledger) (.withFence visibility sink ledger) (by rw [refused]) (by rw [refused]) rfl
        (fun _ _ member => member) (fun _ _ => rfl) hidden ?_ (fun _ _ member => .inl member)
      intro row member same
      obtain ⟨_, _, found, _⟩ := live_of_hidden valid member (hidden row member same)
      rw [same, live] at found
      cases found
    | some reservation =>
      dsimp only
      split
      · exact settled valid (by rw [refused]) fun same => by cases same
      next same =>
        have canonical : reservation.canonical = event := not_not.mp same
        obtain ⟨_, _, distinct, members⟩ := valid.held _ reservation (live_reserved live)
        have proper : ∀ stage ∈ reservation.stages, ({ sink with fence := ledger } : RecordingEventSink Event).Proper
            (fence.runId, Sequenced.sequence event) stage.1 stage.2 := by
          intro stage entry
          obtain ⟨tag, fact, stored⟩ := members stage.1 stage.2 entry
          have := (valid.withFence ledger).proper stored tag
          rwa [fact, canonical] at this
        have unpublished : ∀ stage ∈ reservation.stages, visibility.isPublished stage.1 = false := by
          intro stage entry
          obtain ⟨tag, fact, stored⟩ := members stage.1 stage.2 entry
          simpa [tag] using hidden stage.2 stored (by rw [fact, canonical])
        obtain ⟨kept, grows, away, rows⟩ := releaseAll_spec (valid.withFence ledger) proper unpublished
        obtain ⟨_, fenced, next⟩ := releaseAll_frame visibility { sink with fence := ledger }
          (fence.runId, Sequenced.sequence event) reservation.stages
        refine land_spec kept ((Grows.withFence visibility sink ledger).trans grows) (by rw [refused])
          (by rw [fenced, refused]) next (fun run row member => ((rows run row).mp member).1) away hidden ?_ ?_
        · intro row member equal
          obtain ⟨stored, apart⟩ := (rows fence.runId row).mp member
          obtain ⟨found, commitId, live', entry⟩ := live_of_hidden valid stored (hidden row stored equal)
          rw [equal, live] at live'
          obtain rfl := Option.some.inj live'
          exact apart _ entry rfl
        · intro run row stored
          by_cases retired : ∃ stage ∈ reservation.stages, row.id = stage.2.id
          · obtain ⟨stage, entry, same⟩ := retired
            obtain ⟨_, fact, stored'⟩ := members stage.1 stage.2 entry
            obtain rfl := valid.same stored stored' same
            exact .inr ⟨valid.apart run _ stage.2 stage.2 stored stored' rfl, fact.trans canonical⟩
          · exact .inl ((rows run row).mpr ⟨stored, fun stage entry same => retired ⟨stage, entry, same⟩⟩)

/-- The stages reserved at an identity. -/
def stagesAt (sink : RecordingEventSink Event) (identity : String × Nat) : List (String × StoredEvent Event) :=
  ((sink.reserved identity).map (·.stages)).getD []

/-- Nothing that belongs to anybody but one commit has moved. -/
structure Frames (commitId : String) (before after : RecordingEventSink Event) : Prop where
  rows : ∀ run, others (·.commitId) commitId (after.byRun run) = others (·.commitId) commitId (before.byRun run)
  stages : ∀ identity, (after.stagesAt identity).filter (·.1 ≠ commitId) =
    (before.stagesAt identity).filter (·.1 ≠ commitId)
  landed : after.landed = before.landed

omit [Sequenced Event] in
theorem Frames.refl (commitId : String) (sink : RecordingEventSink Event) : Frames commitId sink sink :=
  ⟨fun _ => rfl, fun _ => rfl, rfl⟩

omit [Sequenced Event] in
theorem Frames.trans {commitId : String} {before middle after : RecordingEventSink Event}
    (first : Frames commitId before middle) (rest : Frames commitId middle after) : Frames commitId before after :=
  ⟨fun run => (rest.rows run).trans (first.rows run), fun identity => (rest.stages identity).trans (first.stages identity),
    rest.landed.trans first.landed⟩

/-- What a handle stands for in the sink that answered it. -/
def Holds (visibility : CommitLedger) (sink : RecordingEventSink Event) (run commitId : String) (event : Event) :
    StagedEvent Event → Prop
  | .settled owner => owner = commitId ∧ event ∈ sink.eventsOf visibility run
  | .row identity owner row => owner = commitId ∧ identity = (run, Sequenced.sequence event) ∧
      row ∈ sink.byRun run ∧ row.event = event ∧ row.commitId = some commitId

/-- What staging an event does to its sink. -/
structure StagesEvent (visibility : CommitLedger) (fence : RunFence) (commitId : String) (event : Event)
    (before : RecordingEventSink Event) (result : Staging (StagedEvent Event) × RecordingEventSink Event) : Prop
    extends Keeps visibility before result.2 where
  answered : ∀ handle, result.1 = .ok handle → Holds visibility result.2 fence.runId commitId event handle
  kept : ∀ run row, row ∈ before.byRun run → row ∈ result.2.byRun run
  frames : Frames commitId before result.2
  added : ∀ run row, row ∈ result.2.byRun run → row ∈ before.byRun run ∨
    (run = fence.runId ∧ ∃ identity, result.1 = .ok (.row identity commitId row))
  fences : result.2.fence = (before.fence.refuse fence).2

private theorem reserve_spec (valid : Valid visibility sink) {fence : RunFence} {ledger : FenceLedger}
    (refused : sink.fence.refuse fence = (none, ledger)) {commitId : String} {event : Event}
    {stages : List (String × StoredEvent Event)}
    (current : sink.stagesAt (fence.runId, Sequenced.sequence event) = stages)
    (vacant : sink.landed (fence.runId, Sequenced.sequence event) = none)
    (hidden : ∀ row ∈ sink.byRun fence.runId, Sequenced.sequence row.event = Sequenced.sequence event →
      visibility.isVisible row.commitId = false)
    (keys : (stages.map (·.1)).Nodup) (new : ∀ row, (commitId, row) ∉ stages)
    (members : ∀ commit row, (commit, row) ∈ stages →
      row.commitId = some commit ∧ row.event = event ∧ row ∈ sink.byRun fence.runId)
    (covers : ∀ commit row, row ∈ sink.byRun fence.runId → Sequenced.sequence row.event = Sequenced.sequence event →
      row.commitId = some commit → visibility.isPublished commit = false → (commit, row) ∈ stages) :
    StagesEvent visibility fence commitId event sink
      (.ok (.row (fence.runId, Sequenced.sequence event) commitId ⟨sink.next, event, some commitId⟩),
        ({ sink with fence := ledger } : RecordingEventSink Event).reserve fence.runId commitId event stages) := by
  have pushed : ∀ home row, row ∈ (({ sink with fence := ledger } : RecordingEventSink Event).reserve
      fence.runId commitId event stages).byRun home ↔
      row ∈ sink.byRun home ∨ (home = fence.runId ∧ row = ⟨sink.next, event, some commitId⟩) :=
    mem_push (some commitId)
  refine ⟨⟨reserve_valid (valid.withFence ledger) vacant keys new members covers, ?_, ?_⟩, ?_, ?_, ?_, ?_, ?_⟩
  · obtain ⟨rows, published, next, old⟩ :=
      push_grows visibility { sink with fence := ledger } fence.runId event (some commitId)
    exact ⟨rows, published, next, old⟩
  · exact push_adds (some commitId) hidden
  · intro handle same
    obtain rfl := Staging.ok.inj same
    exact ⟨rfl, rfl, (pushed fence.runId _).mpr (.inr ⟨rfl, rfl⟩), rfl, rfl⟩
  · exact fun run row member => (pushed run row).mpr (.inl member)
  · refine ⟨fun run => ?_, fun identity => ?_, rfl⟩
    · by_cases same : run = fence.runId
      · subst same
        simp [reserve, push, others]
      · simp [reserve, push, same]
    · by_cases same : identity = (fence.runId, Sequenced.sequence event)
      · subst same
        rw [current]
        simp [stagesAt, List.filter_append]
      · simp [stagesAt, reserve, same]
  · intro run row member
    rcases (pushed run row).mp member with stored | ⟨rfl, rfl⟩
    · exact .inl stored
    · exact .inr ⟨rfl, _, rfl⟩
  · simp [reserve, push, refused]

private theorem unmoved (valid : Valid visibility sink) {fence : RunFence} {commitId : String} {event : Event}
    {ledger : FenceLedger} (refused : (sink.fence.refuse fence).2 = ledger) {staging : Staging (StagedEvent Event)}
    (answered : ∀ handle, staging = .ok handle → Holds visibility sink fence.runId commitId event handle) :
    StagesEvent visibility fence commitId event sink (staging, { sink with fence := ledger }) :=
  ⟨.withFence valid ledger,
    fun handle same => by cases handle <;> exact answered _ same,
    fun _ _ member => member, ⟨fun _ => rfl, fun _ => rfl, rfl⟩, fun _ _ member => .inl member, refused.symm⟩

/-- Staging finds the fact durable, finds its own row, or adds one row of its own. -/
theorem stageEmit_spec [DecidableEq Event] (valid : Valid visibility sink) (fence : RunFence) (commitId : String) (event : Event) :
    StagesEvent visibility fence commitId event sink (sink.stageEmit visibility fence commitId event) := by
  unfold stageEmit
  cases refused : sink.fence.refuse fence with
  | mk detail ledger =>
  have fenced : (sink.fence.refuse fence).2 = ledger := by rw [refused]
  cases detail with
  | some detail => exact unmoved valid fenced fun _ same => by cases same
  | none =>
  have durability : ({ sink with fence := ledger } : RecordingEventSink Event).durableCanonical visibility fence.runId
      (Sequenced.sequence event) = sink.durableCanonical visibility fence.runId (Sequenced.sequence event) := rfl
  have liveness : ({ sink with fence := ledger } : RecordingEventSink Event).liveReservation visibility
      (fence.runId, Sequenced.sequence event) =
      sink.liveReservation visibility (fence.runId, Sequenced.sequence event) := rfl
  simp only [durability, liveness]
  cases durable : sink.durableCanonical visibility fence.runId (Sequenced.sequence event) with
  | some fact =>
    dsimp only
    split
    · exact unmoved valid fenced fun _ same => by cases same
    next same =>
      obtain rfl : fact = event := not_not.mp same
      obtain ⟨_, row, member, shown, rfl⟩ := durable_visible valid durable
      refine unmoved valid fenced fun handle same => ?_
      obtain rfl := Staging.ok.inj same
      exact ⟨rfl, List.mem_map.mpr ⟨row, List.mem_filter.mpr ⟨member, shown⟩, rfl⟩⟩
  | none =>
    obtain ⟨vacant, hidden⟩ := durable_free valid durable
    cases live : sink.liveReservation visibility (fence.runId, Sequenced.sequence event) with
    | none =>
      -- nothing durable and nothing live: no row holds the identity and nothing reserves it
      have empty : ∀ row ∈ sink.byRun fence.runId, Sequenced.sequence row.event ≠ Sequenced.sequence event := by
        intro row member same
        obtain ⟨_, _, found, _⟩ := live_of_hidden valid member (hidden row member same)
        rw [same, live] at found
        cases found
      have current : sink.stagesAt (fence.runId, Sequenced.sequence event) = [] := by
        cases found : sink.reserved (fence.runId, Sequenced.sequence event) with
        | none => simp [stagesAt, found]
        | some reservation =>
          obtain ⟨nonempty, at_, _, members⟩ := valid.held _ reservation found
          obtain ⟨⟨commit, row⟩, entry⟩ := List.exists_mem_of_ne_nil _ nonempty
          obtain ⟨_, fact, stored⟩ := members commit row entry
          exact absurd (fact ▸ at_) (empty row stored)
      exact reserve_spec valid refused current vacant hidden (by simp) (by simp) (by simp)
        fun commit row member same _ _ => absurd same (empty row member)
    | some reservation =>
      dsimp only
      have reserved := live_reserved live
      obtain ⟨_, _, distinct, members⟩ := valid.held _ reservation reserved
      split
      · exact unmoved valid fenced fun _ same => by cases same
      next same =>
        have canonical : reservation.canonical = event := not_not.mp same
        cases own : stageOf reservation commitId with
        | some row =>
          obtain ⟨tag, fact, stored⟩ := members commitId row ((stageOf_eq_some distinct).mp own)
          refine unmoved valid fenced fun handle same => ?_
          obtain rfl := Staging.ok.inj same
          exact ⟨rfl, rfl, stored, fact.trans canonical, tag⟩
        | none =>
          have shape : ({ reservation with
              stages := reservation.stages ++ [(commitId, ⟨sink.next, event, some commitId⟩)] } : Reservation Event) =
              ⟨event, reservation.stages ++ [(commitId, ⟨sink.next, event, some commitId⟩)]⟩ := by rw [canonical]
          have result := reserve_spec valid refused (by simp [stagesAt, reserved])
            vacant hidden distinct
            (fun row entry => by
              have := (stageOf_eq_some distinct).mpr entry
              rw [own] at this
              cases this)
            (fun commit row entry => by
              obtain ⟨tag, fact, stored⟩ := members commit row entry
              exact ⟨tag, fact.trans canonical, stored⟩)
            (fun commit row member equal tag unpublished => by
              obtain ⟨_, found, live', entry⟩ := valid.staged fence.runId row commit member tag unpublished
              rw [equal, reserved] at live'
              exact Option.some.inj live' ▸ entry)
          simpa only [reserve, push, ← shape] using result

/-- Abandoning takes out at most the handle's own unpublished row. -/
theorem abandon_spec (valid : Valid visibility sink) {identity : String × Nat} {commitId : String}
    {row : StoredEvent Event} (proper : sink.Proper identity commitId row) :
    Keeps visibility sink (sink.releaseStage visibility identity commitId row) :=
  ⟨release_valid valid proper, release_grows valid proper, fun home other member => by
    cases hidden : visibility.isPublished commitId with
    | true =>
      rw [release_published (by simp [proper.tagged, hidden])] at member
      exact .inl member
    | false => exact .inl ((mem_release valid proper hidden home other).mp member).1⟩

/-- Abandoning moves nothing of anybody else's. -/
theorem release_frames (valid : Valid visibility sink) {identity : String × Nat} {commitId : String}
    {row : StoredEvent Event} (proper : sink.Proper identity commitId row) :
    Frames commitId sink (sink.releaseStage visibility identity commitId row) := by
  cases hidden : visibility.isPublished commitId with
  | true => rw [release_published (by simp [proper.tagged, hidden])]; exact .refl _ _
  | false =>
  by_cases present : ∃ run other, other ∈ sink.byRun run ∧ other.id = row.id
  swap
  · rw [release_absent valid fun run other member same => present ⟨run, other, member, same⟩]; exact .refl _ _
  obtain ⟨home, found, member, same⟩ := present
  obtain ⟨rfl, rfl⟩ := proper.placed home found member same
  obtain ⟨reservation, reserved, _, released⟩ := release_present valid member proper.tagged hidden
  rw [released]
  refine ⟨fun run => ?_, fun identity => ?_, rfl⟩
  · simp only [others, List.filter_filter]
    refine List.filter_congr fun other stored => ?_
    by_cases same : other.id = found.id
    · rw [valid.same stored member same]; simp [proper.tagged]
    · simp [same]
  · by_cases here : identity = (home, Sequenced.sequence found.event)
    · subst here
      simp only [stagesAt, Function.update_self, reserved, Option.map_some, Option.getD_some]
      by_cases empty : (reservation.stages.filter (·.1 ≠ commitId)).isEmpty = true
      · simp only [empty, if_true, Option.map_none, Option.getD_none]
        exact (List.isEmpty_iff.mp empty).symm
      · simp only [empty]
        simp
    · simp [stagesAt, here]

end SecureHome.Adapters.RecordingEventSink
