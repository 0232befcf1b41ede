import Mathlib.Data.List.Induction
import SecureHome.Lib.Execution
import SecureHome.Proofs.EventOperations

/-! Whole histories of one event sink: emissions, stages, abandons of any handle and
publications, in any order. -/

namespace SecureHome.Adapters
open Lib Ports RunState RecordingEventSink

variable {Event : Type} [Sequenced Event]

/-- A stage that was answered ok, and the handle it was answered with. -/
structure IssuedStage (Event : Type) where
  runId : String
  commitId : String
  event : Event
  handle : StagedEvent Event

/-- A sink together with what its callers know. `withdrawn` holds the rows whose
commit gave its stage up while it was unpublished. -/
structure SinkHistory (Event : Type) where
  sink : RecordingEventSink Event := {}
  visibility : CommitLedger := {}
  issued : List (IssuedStage Event) := []
  withdrawn : List Nat := []
  acknowledged : List (String × Event) := []

inductive SinkRequest (Event : Type) where
  | emit (fence : RunFence) (event : Event)
  | stageEmit (fence : RunFence) (commitId : String) (event : Event)
  | abandon (handle : Nat)
  | publish (commitId : String)

namespace SinkHistory

def eventsOf (history : SinkHistory Event) (runId : String) : List Event :=
  history.sink.eventsOf history.visibility runId

def withdraw (history : SinkHistory Event) : StagedEvent Event → List Nat
  | .settled _ => history.withdrawn
  | .row _ commitId row =>
    if history.visibility.isPublished commitId then history.withdrawn else row.id :: history.withdrawn

def serve [DecidableEq Event] (history : SinkHistory Event) : SinkRequest Event → SinkHistory Event
  | .emit fence event =>
    let result := history.sink.emit history.visibility fence (Sequenced.sequence event) event
    { history with
      sink := result.2
      acknowledged :=
        if result.1 = .ok then history.acknowledged ++ [(fence.runId, event)] else history.acknowledged }
  | .stageEmit fence commitId event =>
    let result := history.sink.stageEmit history.visibility fence commitId event
    { history with
      sink := result.2
      issued :=
        match result.1 with
        | .ok handle => history.issued ++ [⟨fence.runId, commitId, event, handle⟩]
        | .refused _ _ => history.issued }
  | .abandon handle =>
    match history.issued[handle]? with
    | none => history
    | some stage =>
      { history with
        sink := history.sink.abandon history.visibility stage.handle
        withdrawn := history.withdraw stage.handle }
  | .publish commitId => { history with visibility := history.visibility.publish commitId }

/-- A publication meets no sibling: at no identity where the commit still has a row
of its own is an event visible already. -/
def Unshadowed (history : SinkHistory Event) : SinkRequest Event → Prop
  | .publish commitId => ∀ run row, row ∈ history.sink.byRun run → row.commitId = some commitId →
      history.visibility.isPublished commitId = false →
      ∀ other ∈ history.sink.byRun run, history.visibility.isVisible other.commitId = true →
        Sequenced.sequence other.event ≠ Sequenced.sequence row.event
  | _ => True

/-- The stage is still its commit's: nobody gave its row up before publication. -/
def Standing (history : SinkHistory Event) : StagedEvent Event → Prop
  | .settled _ => True
  | .row _ _ row => row.id ∉ history.withdrawn

/-- Every acknowledged emission and every standing stage of a published commit is visible. -/
def Shown (history : SinkHistory Event) : Prop :=
  (∀ run event, (run, event) ∈ history.acknowledged → event ∈ history.eventsOf run) ∧
    ∀ stage ∈ history.issued, history.visibility.isPublished stage.commitId = true → history.Standing stage.handle →
      stage.event ∈ history.eventsOf stage.runId

/-- Whatever visible rows one run has, no two of them share a sequence. -/
def OneEach (history : SinkHistory Event) : Prop :=
  ∀ run, ((history.eventsOf run).map Sequenced.sequence).Nodup

end SinkHistory

open SinkHistory

/-- One identity, one durable event, over a whole history. -/
structure IdentityKept [DecidableEq Event] (requests : List (SinkRequest Event)) : Prop where
  one : ∀ served, served <+: requests → (after serve {} served).OneEach
  stays : ∀ earlier later, earlier <+: later → later <+: requests → ∀ run,
    ((after serve {} earlier).eventsOf run).Sublist ((after serve {} later).eventsOf run)
  shown : ∀ served, served <+: requests → (after serve {} served).Shown

namespace SinkHistory

/-- What a handle stands for at any later time. -/
def Tracks (history : SinkHistory Event) (stage : IssuedStage Event) : Prop :=
  match stage.handle with
  | .settled _ => stage.event ∈ history.eventsOf stage.runId
  | .row identity commitId row => commitId = stage.commitId ∧ row.event = stage.event ∧
      identity = (stage.runId, Sequenced.sequence stage.event) ∧ history.sink.Proper identity commitId row ∧
      (row.id ∈ history.withdrawn ∨ row ∈ history.sink.byRun stage.runId ∨
        stage.event ∈ history.eventsOf stage.runId)

structure Valid (history : SinkHistory Event) : Prop where
  sink : history.sink.Valid history.visibility
  tracks : ∀ stage ∈ history.issued, history.Tracks stage
  acknowledged : ∀ run event, (run, event) ∈ history.acknowledged → event ∈ history.eventsOf run

/-- What no request takes back. -/
structure Grows (before after : SinkHistory Event) : Prop where
  sink : RecordingEventSink.Grows before.visibility after.visibility before.sink after.sink
  withdrawn : before.withdrawn ⊆ after.withdrawn

omit [Sequenced Event] in
theorem Grows.refl (history : SinkHistory Event) : Grows history history := ⟨.refl _ _, fun _ member => member⟩

omit [Sequenced Event] in
theorem Grows.trans {before middle last : SinkHistory Event} (first : Grows before middle) (rest : Grows middle last) :
    Grows before last := ⟨first.sink.trans rest.sink, fun _ member => rest.withdrawn (first.withdrawn member)⟩

omit [Sequenced Event] in
theorem Grows.events {before after : SinkHistory Event} (grows : Grows before after) (run : String) :
    (before.eventsOf run).Sublist (after.eventsOf run) := grows.sink.events run

/-- A handle keeps its standing when its row is still there, was given up, or is visible otherwise. -/
theorem Tracks.grow {before after : SinkHistory Event} {stage : IssuedStage Event} (tracks : before.Tracks stage)
    (grows : Grows before after)
    (rows : ∀ row, row ∈ before.sink.byRun stage.runId → row.event = stage.event →
      row ∈ after.sink.byRun stage.runId ∨ stage.event ∈ after.eventsOf stage.runId ∨ row.id ∈ after.withdrawn) :
    after.Tracks stage := by
  obtain ⟨runId, commitId, event, handle⟩ := stage
  cases handle with
  | settled owner => exact (grows.events runId).subset tracks
  | row identity owner row =>
    obtain ⟨named, fact, at_, proper, standing⟩ := tracks
    refine ⟨named, fact, at_, grows.sink.proper proper, ?_⟩
    rcases standing with given | stored | shown
    · exact .inl (grows.withdrawn given)
    · rcases rows row stored fact with stored | shown | given
      · exact .inr (.inl stored)
      · exact .inr (.inr shown)
      · exact .inl given
    · exact .inr (.inr ((grows.events runId).subset shown))

theorem Valid.initial : Valid ({} : SinkHistory Event) :=
  ⟨RecordingEventSink.Valid.initial _, by simp, by simp⟩

/-- Publishing keeps every row, and makes some of them visible. -/
theorem publish_sink {visibility : CommitLedger} {sink : RecordingEventSink Event}
    (valid : sink.Valid visibility) (commitId : String) :
    sink.Valid (visibility.publish commitId) ∧
      RecordingEventSink.Grows visibility (visibility.publish commitId) sink sink := by
  have shown : ∀ other, visibility.isPublished other = true → (visibility.publish commitId).isPublished other = true :=
    fun other published => by simp [published]
  refine ⟨⟨valid.fresh, valid.distinct, valid.apart, valid.landed, valid.ordinary, ?_, valid.held⟩,
    ⟨fun run => ?_, shown, Nat.le_refl _, fun _ _ member _ => member⟩⟩
  · intro run row other member tag unpublished
    refine valid.staged run row other member tag ?_
    cases published : visibility.isPublished other with
    | false => rfl
    | true => rw [shown other published] at unpublished; cases unpublished
  · exact List.monotone_filter_right _ fun row seen => CommitLedger.isVisible_publish commitId seen

variable [DecidableEq Event]

/-- Every request keeps the invariant and takes nothing back, whatever it is. -/
theorem serve_preserves (history : SinkHistory Event) (request : SinkRequest Event) (valid : history.Valid) :
    (history.serve request).Valid ∧ Grows history (history.serve request) := by
  cases request with
  | emit fence event =>
    have emits := emit_spec valid.sink fence event
    have grows : Grows history (history.serve (.emit fence event)) := ⟨emits.grows, fun _ member => member⟩
    refine ⟨⟨emits.valid, fun stage issued => ?_, fun run fact member => ?_⟩, grows⟩
    · refine (valid.tracks stage issued).grow grows fun row stored fact => ?_
      rcases emits.kept stage.runId row stored with stored | ⟨acknowledged, same, retired⟩
      · exact .inl stored
      · refine .inr (.inl ?_)
        rw [← fact, retired, same]
        exact emits.shown acknowledged
    · have earlier : (run, fact) ∈ history.acknowledged → fact ∈ (history.serve (.emit fence event)).eventsOf run :=
        fun member => (grows.events run).subset (valid.acknowledged run fact member)
      simp only [serve] at member
      split at member
      next acknowledged =>
        rcases List.mem_append.mp member with member | last
        · exact earlier member
        · obtain ⟨rfl, rfl⟩ := Prod.mk.inj (List.mem_singleton.mp last)
          exact emits.shown acknowledged
      · exact earlier member
  | stageEmit fence commitId event =>
    have stages := stageEmit_spec valid.sink fence commitId event
    have grows : Grows history (history.serve (.stageEmit fence commitId event)) :=
      ⟨stages.grows, fun _ member => member⟩
    refine ⟨⟨stages.valid, fun stage issued => ?_, fun run fact member => ?_⟩, grows⟩
    · have earlier : stage ∈ history.issued → (history.serve (.stageEmit fence commitId event)).Tracks stage :=
        fun issued => (valid.tracks stage issued).grow grows fun row stored _ =>
          .inl (stages.kept stage.runId row stored)
      simp only [serve] at issued
      split at issued
      next handle answered =>
        rcases List.mem_append.mp issued with issued | last
        · exact earlier issued
        · obtain rfl := List.mem_singleton.mp last
          have holds := stages.answered handle answered
          cases handle with
          | settled owner => exact holds.2
          | row identity owner row =>
            obtain ⟨rfl, rfl, stored, rfl, tag⟩ := holds
            exact ⟨rfl, rfl, rfl, stages.valid.proper stored tag, .inr (.inl stored)⟩
      · exact earlier issued
    · exact (grows.events run).subset (valid.acknowledged run fact member)
  | abandon index =>
    simp only [serve]
    split
    · exact ⟨valid, .refl _ _, fun _ member => member⟩
    next stage found =>
      have tracks := valid.tracks stage (List.mem_of_getElem? found)
      obtain ⟨runId, commitId, event, handle⟩ := stage
      cases handle with
      | settled owner => exact ⟨valid, .refl _ _, fun _ member => member⟩
      | row identity owner row =>
        obtain ⟨_, _, _, proper, _⟩ := tracks
        have abandons := abandon_spec valid.sink proper
        have withdrawn : history.withdrawn ⊆ history.withdraw
            (.row identity owner row) := by
          intro id member
          simp only [withdraw]
          split
          · exact member
          · exact List.mem_cons_of_mem _ member
        refine ⟨⟨abandons.valid, fun stage issued => ?_, fun run fact member => ?_⟩, abandons.grows, withdrawn⟩
        · refine (valid.tracks stage issued).grow ⟨abandons.grows, withdrawn⟩ fun other stored _ => ?_
          cases hidden : history.visibility.isPublished owner with
          | true =>
            refine .inl ?_
            have unmoved : history.sink.releaseStage history.visibility identity owner row = history.sink :=
              release_published (by simp [proper.tagged, hidden])
            simpa only [RecordingEventSink.abandon, unmoved] using stored
          | false =>
            by_cases same : other.id = row.id
            · exact .inr (.inr (by simp [withdraw, hidden, same]))
            · exact .inl ((mem_release valid.sink proper hidden _ other).mpr ⟨stored, same⟩)
        · exact (abandons.grows.events run).subset (valid.acknowledged run fact member)
  | publish commitId =>
    obtain ⟨kept, grows⟩ := publish_sink valid.sink commitId
    have growth : Grows history (history.serve (.publish commitId)) := ⟨grows, fun _ member => member⟩
    exact ⟨⟨kept, fun stage issued => (valid.tracks stage issued).grow growth fun _ stored _ => .inl stored,
      fun run fact member => (growth.events run).subset (valid.acknowledged run fact member)⟩, growth⟩

theorem after_valid (requests : List (SinkRequest Event)) : Valid (after serve {} requests) :=
  invariant_after Valid (fun history request valid => (serve_preserves history request valid).1) .initial requests

theorem after_grows {history : SinkHistory Event} (valid : history.Valid) (requests : List (SinkRequest Event)) :
    Grows history (after serve history requests) :=
  growth_after Valid Grows Grows.refl Grows.trans (fun history request valid => (serve_preserves history request valid).1)
    (fun history request valid => (serve_preserves history request valid).2) valid requests

omit [DecidableEq Event] in
theorem Valid.shown {history : SinkHistory Event} (valid : history.Valid) : history.Shown := by
  refine ⟨valid.acknowledged, fun stage issued published standing => ?_⟩
  have tracks := valid.tracks stage issued
  obtain ⟨runId, commitId, event, handle⟩ := stage
  cases handle with
  | settled owner => exact tracks
  | row identity owner row =>
    obtain ⟨rfl, rfl, _, proper, given | stored | shown⟩ := tracks
    · exact absurd given standing
    · exact List.mem_map.mpr ⟨row, List.mem_filter.mpr ⟨stored, by simpa [proper.tagged] using published⟩, rfl⟩
    · exact shown

/-- No two rows a reader sees in one run share a sequence. -/
def Single (history : SinkHistory Event) : Prop :=
  ∀ run row row', row ∈ history.sink.byRun run → row' ∈ history.sink.byRun run →
    history.visibility.isVisible row.commitId = true → history.visibility.isVisible row'.commitId = true →
    Sequenced.sequence row.event = Sequenced.sequence row'.event → row = row'

omit [DecidableEq Event] in
theorem oneEach_iff {history : SinkHistory Event} (valid : history.Valid) : history.OneEach ↔ history.Single := by
  have rows : ∀ run, ((history.sink.byRun run).filter fun row => history.visibility.isVisible row.commitId).Nodup :=
    fun run => (List.Nodup.of_map _ (valid.sink.distinct run)).filter _
  have events : ∀ run, (history.eventsOf run).map Sequenced.sequence =
      ((history.sink.byRun run).filter fun row => history.visibility.isVisible row.commitId).map
        fun row => Sequenced.sequence row.event := by
    intro run; simp [SinkHistory.eventsOf, RecordingEventSink.eventsOf, Function.comp_def]
  constructor
  · intro one run row row' member member' seen seen' same
    have distinct := one run
    rw [events] at distinct
    exact List.inj_on_of_nodup_map distinct (List.mem_filter.mpr ⟨member, seen⟩)
      (List.mem_filter.mpr ⟨member', seen'⟩) same
  · intro single run
    rw [events]
    refine (rows run).map_on fun row member row' member' same => ?_
    obtain ⟨stored, seen⟩ := List.mem_filter.mp member
    obtain ⟨stored', seen'⟩ := List.mem_filter.mp member'
    exact single run row row' stored stored' seen seen' same

omit [DecidableEq Event] in
/-- An operation that adds rows only at free identities keeps visible identities single. -/
theorem Single.keeps {history : SinkHistory Event} (single : history.Single) {sink : RecordingEventSink Event}
    (keeps : RecordingEventSink.Keeps history.visibility history.sink sink) {next : SinkHistory Event}
    (same : next.sink = sink) (still : next.visibility = history.visibility) : next.Single := by
  subst same
  intro run row row' member member' seen seen' equal
  rw [still] at seen seen'
  rcases keeps.adds run row member with stored | ⟨id, free⟩ <;>
    rcases keeps.adds run row' member' with stored' | ⟨id', free'⟩
  · exact single run row row' stored stored' seen seen' equal
  · rw [free' row stored equal] at seen; cases seen
  · rw [free row' stored' equal.symm] at seen'; cases seen'
  · exact keeps.valid.same member member' (id.trans id'.symm)

theorem serve_single {history : SinkHistory Event} {request : SinkRequest Event} (valid : history.Valid)
    (single : history.Single) (clear : history.Unshadowed request) : (history.serve request).Single := by
  cases request with
  | emit fence event => exact single.keeps (emit_spec valid.sink fence event).toKeeps rfl rfl
  | stageEmit fence commitId event => exact single.keeps (stageEmit_spec valid.sink fence commitId event).toKeeps rfl rfl
  | abandon index =>
    simp only [serve]
    split
    · exact single
    next stage found =>
      have tracks := valid.tracks stage (List.mem_of_getElem? found)
      obtain ⟨runId, commitId, event, handle⟩ := stage
      cases handle with
      | settled owner => exact single
      | row identity owner row => exact single.keeps (abandon_spec valid.sink tracks.2.2.2.1) rfl rfl
  | publish commitId =>
    -- what was hidden and shows now belongs to the published commit, and meets nothing visible
    have either : ∀ tag, (history.visibility.publish commitId).isVisible tag = true →
        history.visibility.isVisible tag = true ∨ (tag = some commitId ∧ history.visibility.isPublished commitId = false) := by
      intro tag seen
      cases tag with
      | none => exact .inl rfl
      | some other =>
        by_cases same : other = commitId
        · subst same
          cases published : history.visibility.isPublished other with
          | true => exact .inl published
          | false => exact .inr ⟨rfl, rfl⟩
        · exact .inl (by simpa [same] using seen)
    intro run row row' member member' seen seen' equal
    rcases either row.commitId seen with seen | ⟨mine, hidden⟩ <;>
      rcases either row'.commitId seen' with seen' | ⟨mine', hidden'⟩
    · exact single run row row' member member' seen seen' equal
    · exact absurd equal (clear run row' member' mine' hidden' row member seen)
    · exact absurd equal.symm (clear run row member mine hidden row' member' seen')
    · obtain ⟨_, reservation, found, entry⟩ := valid.sink.staged run row commitId member mine hidden
      obtain ⟨_, reservation', found', entry'⟩ := valid.sink.staged run row' commitId member' mine' hidden'
      rw [equal, found'] at found
      obtain rfl := Option.some.inj found
      exact congrArg Prod.snd (List.inj_on_of_nodup_map (valid.sink.held _ _ found').2.2.1 entry entry' rfl)

/-- A publication that meets a sibling leaves two visible rows at one identity. -/
theorem shadowed_publish {history : SinkHistory Event} {request : SinkRequest Event}
    (shadowed : ¬ history.Unshadowed request) : ¬ (history.serve request).Single := by
  intro single
  cases request with
  | publish commitId =>
    refine shadowed fun run row member tag hidden other member' seen equal => ?_
    have same := single run other row member' member (CommitLedger.isVisible_publish commitId seen)
      (by simp [serve, tag]) equal
    rw [same, tag] at seen
    simp [hidden] at seen
  | _ => exact shadowed trivial

theorem single_along {requests : List (SinkRequest Event)} (clear : Along serve Unshadowed {} requests) :
    Single (after serve ({} : SinkHistory Event) requests) := by
  let kept (history : SinkHistory Event) : Prop := history.Valid ∧ history.Single
  have both : kept (after serve {} requests) := invariant_along kept
    (fun history request kept clear => ⟨(serve_preserves history request kept.1).1, serve_single kept.1 kept.2 clear⟩)
    ⟨.initial, by simp [Single]⟩ clear
  exact both.2

/-- Histories whose every prefix shows one event for each identity meet no sibling at any publication. -/
theorem along_of_single {requests : List (SinkRequest Event)}
    (one : ∀ served, served <+: requests → Single (after serve ({} : SinkHistory Event) served)) :
    Along serve Unshadowed {} requests := by
  induction requests using List.reverseRecOn with
  | nil => trivial
  | append_singleton requests request ih =>
    refine Along.concat (ih fun served before => one served (before.trans (List.prefix_append _ _))) ?_
    by_contra shadowed
    refine shadowed_publish shadowed ?_
    have last := one _ (List.prefix_refl _)
    rwa [after_concat] at last

end SinkHistory

/-- A history keeps one identity to one durable event exactly when no publication
exposes a row beside an event already visible at its identity. -/
theorem identity_kept_iff [DecidableEq Event] (requests : List (SinkRequest Event)) :
    IdentityKept requests ↔ Along serve Unshadowed {} requests := by
  constructor
  · intro kept
    exact along_of_single fun served before => (oneEach_iff (after_valid served)).mp (kept.one served before)
  · intro clear
    refine ⟨fun served before => ?_, fun earlier later first rest run => ?_, fun served _ => (after_valid served).shown⟩
    · obtain ⟨rest, rfl⟩ := before
      exact (oneEach_iff (after_valid served)).mpr (single_along clear.append.1)
    · obtain ⟨more, rfl⟩ := first
      rw [after_append]
      exact (after_grows (after_valid earlier) more).events run

/-- Two commits stage the same event and both are published: one identity, two visible events. -/
theorem siblings_published_twice :
    let terminated : EventEnvelope := ⟨"run.terminated", 7⟩
    let requests : List (SinkRequest EventEnvelope) :=
      [.stageEmit ⟨"run", 1⟩ "first" terminated, .stageEmit ⟨"run", 1⟩ "second" terminated,
        .publish "first", .publish "second"]
    (after serve {} requests).eventsOf "run" = [terminated, terminated] ∧ ¬ IdentityKept requests := by
  have twice : (after serve {} [.stageEmit ⟨"run", 1⟩ "first" (⟨"run.terminated", 7⟩ : EventEnvelope),
      .stageEmit ⟨"run", 1⟩ "second" ⟨"run.terminated", 7⟩, .publish "first", .publish "second"]).eventsOf "run" =
      [⟨"run.terminated", 7⟩, ⟨"run.terminated", 7⟩] := by decide
  refine ⟨twice, fun kept => ?_⟩
  have one := kept.one _ (List.prefix_refl _) "run"
  rw [twice] at one
  exact absurd one (by decide)

end SecureHome.Adapters
