import Mathlib.Data.List.Induction
import SecureHome.Lib.Execution
import SecureHome.Proofs.Participants

/-! When a run is told to be held. A transition that is appended lets the hold go; one that
is staged and published later does not. -/

namespace SecureHome.RunState
open Lib Lifecycle Ports InMemoryRunJournal

inductive JournalRequest where
  | append (fence : RunFence) (entryId : String) (fact : JournalFact)
  | stageTransitions (fence : RunFence) (commitId : String) (transitions : List TransitionEntry)
  | abandon (runId commitId : String)
  | publish (commitId : String)

/-- A journal, what is published, and the runs that stand: where a hold landed and no transition became visible after it. -/
structure HoldHistory where
  journal : InMemoryRunJournal := {}
  visibility : CommitLedger := {}
  stands : String → Bool := fun _ => false

namespace HoldHistory

variable (history : HoldHistory)

def shown (runId : String) : List TransitionEntry :=
  (visible (·.commitId) history.visibility.isPublished (history.journal.rows runId)).map (·.entry)

def told (runId : String) : Option JournaledState := history.journal.readCurrentState history.visibility runId

def held (runId : String) : Bool := ((history.told runId).bind (·.held)).isSome

/-- An entry that is recorded: not refused, and not a replay. -/
def Lands (fence : RunFence) (entryId : String) : Prop :=
  (history.journal.fence.refuse fence).1 = none ∧ (history.journal.page fence.runId).seen entryId = none

instance (fence : RunFence) (entryId : String) : Decidable (history.Lands fence entryId) := inferInstanceAs (Decidable (_ ∧ _))

/-- The run a hold lands on. -/
def holdLanded : JournalRequest → Option String
  | .append fence entryId (.hold _) => if history.Lands fence entryId then some fence.runId else none
  | _ => none

def answer : JournalRequest → InMemoryRunJournal × CommitLedger
  | .append fence entryId fact => ((history.journal.append fence entryId fact).2, history.visibility)
  | .stageTransitions fence commitId transitions => ((history.journal.stageTransitions fence commitId transitions).2, history.visibility)
  | .abandon runId commitId => (history.journal.abandon runId commitId, history.visibility)
  | .publish commitId => (history.journal, history.visibility.publish commitId)

/-- Transitions became visible if those shown are no longer among those shown before. -/
def serve (request : JournalRequest) : HoldHistory :=
  let next : HoldHistory := ⟨(history.answer request).1, (history.answer request).2, history.stands⟩
  { next with
    stands := fun runId =>
      if history.holdLanded request = some runId then true
      else if (next.shown runId).isSublist (history.shown runId) then history.stands runId
      else false }

/-- A run is told to be held exactly where its hold stands, and never in a terminal state. -/
structure Faithful : Prop where
  stands : ∀ runId, history.held runId = history.stands runId
  moving : ∀ runId state, history.told runId = some state → state.held.isSome → isTerminal state.state = false

def stateOf (transitions : List TransitionEntry) : LifecycleState := (transitions.getLast?.map (·.target)).getD .requested

/-- What the remaining rows of an abandoned commit show. -/
def remaining (runId commitId : String) : List TransitionEntry :=
  (visible (·.commitId) history.visibility.isPublished ((history.journal.rows runId).filter fun row => row.commitId ≠ some commitId)).map (·.entry)

/-- No staged row comes to be seen of a held run, no hold lands in a terminal state, and none is left in one. -/
def Clear : JournalRequest → Prop
  | .append fence entryId (.hold _) => history.Lands fence entryId → isTerminal (stateOf (history.shown fence.runId)) = false
  | .append _ _ _ => True
  | .stageTransitions fence commitId transitions => (history.journal.fence.refuse fence).1 = none →
      history.visibility.isPublished commitId = true → transitions ≠ [] → history.held fence.runId = false
  | .abandon runId commitId => history.held runId = true → isTerminal (stateOf (history.remaining runId commitId)) = false
  | .publish commitId => history.visibility.isPublished commitId = false → ∀ runId, history.held runId = true →
      ∀ row ∈ history.journal.rows runId, row.commitId ≠ some commitId

variable {history}

theorem held_page (runId : String) : history.held runId = (history.journal.page runId).held.isSome := by
  unfold held told
  rw [readCurrentState_eq]
  unfold viewOf
  dsimp only
  split
  next empty =>
    simp only [Bool.and_eq_true, Option.isNone_iff_eq_none] at empty
    rw [empty.2]
    rfl
  next => rfl

theorem told_state {runId : String} {state : JournaledState} (found : history.told runId = some state) :
    state.state = stateOf (history.shown runId) ∧ state.held = (history.journal.page runId).held := by
  unfold told at found
  rw [readCurrentState_eq] at found
  unfold viewOf at found
  dsimp only at found
  split at found
  · cases found
  · cases found
    exact ⟨rfl, rfl⟩

theorem told_held {runId : String} (held : history.held runId = true) : ∃ state, history.told runId = some state ∧ state.held.isSome := by
  unfold HoldHistory.held at held
  cases found : history.told runId with
  | none => rw [found] at held; cases held
  | some state =>
    rw [found] at held
    exact ⟨state, rfl, held⟩

/-- Said of the rows and the page. -/
theorem faithful_iff : history.Faithful ↔ ∀ runId, history.held runId = history.stands runId ∧
    (history.held runId = true → isTerminal (stateOf (history.shown runId)) = false) := by
  constructor
  · intro faithful runId
    refine ⟨faithful.stands runId, fun held => ?_⟩
    obtain ⟨state, found, is_held⟩ := told_held held
    rw [← (told_state found).1]
    exact faithful.moving runId state found is_held
  · intro each
    refine ⟨fun runId => (each runId).1, fun runId state found is_held => ?_⟩
    rw [(told_state found).1]
    apply (each runId).2
    rw [held_page, ← (told_state found).2]
    exact is_held

section Steps

variable {runId : String} {request : JournalRequest}

/-- What each run is told, and whether it stands, after a request. -/
theorem shown_serve : (history.serve request).shown runId =
    (visible (·.commitId) (history.answer request).2.isPublished ((history.answer request).1.rows runId)).map (·.entry) := rfl

theorem held_serve : (history.serve request).held runId = ((history.answer request).1.page runId).held.isSome := held_page runId

theorem stands_serve (elsewhere : history.holdLanded request ≠ some runId) : (history.serve request).stands runId =
    (((history.serve request).shown runId).isSublist (history.shown runId) && history.stands runId) := by
  change (if history.holdLanded request = some runId then true
    else if ((history.serve request).shown runId).isSublist (history.shown runId) then history.stands runId else false) = _
  rw [if_neg elsewhere]
  cases ((history.serve request).shown runId).isSublist (history.shown runId) <;> rfl

theorem unlanded (none_landed : history.holdLanded request = none) : history.holdLanded request ≠ some runId := by
  rw [none_landed]
  exact nofun

/-- Transitions that are more than before are not all among them. -/
theorem more_shown {before after : List TransitionEntry} (longer : before.length < after.length) : after.isSublist before = false := by
  rw [Bool.eq_false_iff, ne_eq, List.isSublist_iff_sublist]
  exact fun among => Nat.not_lt.mpr among.length_le longer

/-- What a run is told faithfully. -/
def FaithfulAt (history : HoldHistory) (runId : String) : Prop :=
  history.held runId = history.stands runId ∧ (history.held runId = true → isTerminal (stateOf (history.shown runId)) = false)

/-- A run that stays held is told faithfully if it is shown nothing more, in no terminal state. -/
theorem faithful_kept (faithful : history.FaithfulAt runId) (elsewhere : history.holdLanded request ≠ some runId)
    (held : (history.serve request).held runId = history.held runId)
    (among : history.held runId = true → ((history.serve request).shown runId).Sublist (history.shown runId) ∧
      isTerminal (stateOf ((history.serve request).shown runId)) = false) : (history.serve request).FaithfulAt runId := by
  unfold FaithfulAt
  rw [stands_serve elsewhere, held, faithful.1]
  refine ⟨?_, fun stands => (among (faithful.1.trans stands)).2⟩
  cases stands : history.stands runId with
  | false => rw [Bool.and_false]
  | true => rw [Bool.and_true, List.isSublist_iff_sublist.mpr (among (faithful.1.trans stands)).1]

/-- A run whose page shows the same is told the same. -/
theorem faithful_same (faithful : history.FaithfulAt runId) (elsewhere : history.holdLanded request ≠ some runId)
    (held : (history.serve request).held runId = history.held runId) (shown : (history.serve request).shown runId = history.shown runId) :
    (history.serve request).FaithfulAt runId := by
  apply faithful_kept faithful elsewhere held
  intro is_held
  rw [shown]
  exact ⟨List.Sublist.refl _, faithful.2 is_held⟩

/-- A run that is held and shown more is not told faithfully. -/
theorem unfaithful_more (elsewhere : history.holdLanded request ≠ some runId) (held : (history.serve request).held runId = true)
    (longer : (history.shown runId).length < ((history.serve request).shown runId).length) : ¬ (history.serve request).FaithfulAt runId := by
  intro faithful
  have stands := faithful.1
  rw [held, stands_serve elsewhere, more_shown longer] at stands
  cases stands

theorem append_refused {fence : RunFence} {entryId detail : String} {fact : JournalFact}
    (refused : (history.journal.fence.refuse fence).1 = some detail) :
    (history.journal.append fence entryId fact).2 = { history.journal with fence := (history.journal.fence.refuse fence).2 } := by
  unfold InMemoryRunJournal.append
  generalize history.journal.fence.refuse fence = answer at refused ⊢
  obtain ⟨_, ledger⟩ := answer
  cases refused
  rfl

theorem append_seen {fence : RunFence} {entryId : String} {fact landed : JournalFact}
    (admitted : (history.journal.fence.refuse fence).1 = none) (seen : (history.journal.page fence.runId).seen entryId = some landed) :
    (history.journal.append fence entryId fact).2 =
      { history.journal with fence := (history.journal.fence.refuse fence).2 }.setPage fence.runId (history.journal.page fence.runId) := by
  unfold InMemoryRunJournal.append
  generalize history.journal.fence.refuse fence = answer at admitted ⊢
  obtain ⟨_, ledger⟩ := answer
  cases admitted
  have page : ({ history.journal with fence := ledger } : InMemoryRunJournal).page fence.runId = history.journal.page fence.runId := rfl
  simp only [JournalPages.classify, page, seen]
  by_cases same : landed = fact
  · rw [if_pos same]
  · rw [if_neg same]

theorem append_free {fence : RunFence} {entryId : String} {fact : JournalFact}
    (admitted : (history.journal.fence.refuse fence).1 = none) (free : (history.journal.page fence.runId).seen entryId = none) :
    (history.journal.append fence entryId fact).2 =
      { history.journal with fence := (history.journal.fence.refuse fence).2 }.setPage fence.runId
        (JournalPages.record { history.journal.page fence.runId with
          seen := Function.update (history.journal.page fence.runId).seen entryId (some fact) } fact) := by
  unfold InMemoryRunJournal.append
  generalize history.journal.fence.refuse fence = answer at admitted ⊢
  obtain ⟨_, ledger⟩ := answer
  cases admitted
  have page : ({ history.journal with fence := ledger } : InMemoryRunJournal).page fence.runId = history.journal.page fence.runId := rfl
  simp only [JournalPages.classify, page, free]

/-- A fact lands on its run's page, or changes no page. -/
theorem append_page (fence : RunFence) (entryId : String) (fact : JournalFact) :
    (history.journal.append fence entryId fact).2.page runId =
      if history.Lands fence entryId ∧ runId = fence.runId then
        JournalPages.record { history.journal.page fence.runId with
          seen := Function.update (history.journal.page fence.runId).seen entryId (some fact) } fact
      else history.journal.page runId := by
  by_cases lands : history.Lands fence entryId
  · rw [append_free lands.1 lands.2, page_setPage]
    by_cases here : runId = fence.runId
    · rw [if_pos here, if_pos ⟨lands, here⟩]
    · rw [if_neg here, if_neg fun both => here both.2]
      rfl
  · rw [if_neg fun both => lands both.1]
    cases refused : (history.journal.fence.refuse fence).1 with
    | some detail =>
      rw [append_refused refused]
      rfl
    | none =>
      cases seen : (history.journal.page fence.runId).seen entryId with
      | none => exact absurd ⟨refused, seen⟩ lands
      | some landed =>
        rw [append_seen refused seen, page_setPage]
        split
        next same => rw [same]
        next => rfl

/-- A staged tail is more rows of its run. -/
theorem stage_page (fence : RunFence) (commitId : String) (transitions : List TransitionEntry) :
    (history.journal.stageTransitions fence commitId transitions).2.page runId =
      if (history.journal.fence.refuse fence).1 = none ∧ runId = fence.runId then
        { history.journal.page fence.runId with
          transitions := (history.journal.page fence.runId).transitions ++ stagedRows commitId transitions }
      else history.journal.page runId := by
  unfold InMemoryRunJournal.stageTransitions
  generalize history.journal.fence.refuse fence = answer
  obtain ⟨refused, ledger⟩ := answer
  cases refused with
  | some detail =>
    rw [if_neg fun both => nomatch both.1]
    rfl
  | none =>
    dsimp only
    rw [page_setPage]
    by_cases here : runId = fence.runId
    · rw [if_pos here, if_pos ⟨rfl, here⟩]
      rfl
    · rw [if_neg here, if_neg fun both => here both.2]
      rfl

/-- A run whose page is as it was, under what was published, is told the same. -/
theorem faithful_page (faithful : history.FaithfulAt runId) (elsewhere : history.holdLanded request ≠ some runId)
    (page : (history.answer request).1.page runId = history.journal.page runId) (published : (history.answer request).2 = history.visibility) :
    (history.serve request).FaithfulAt runId := by
  apply faithful_same faithful elsewhere
  · rw [held_serve, page, held_page]
  · rw [shown_serve, published, InMemoryRunJournal.rows, page]
    rfl

theorem shown_append {fence : RunFence} {entryId : String} {fact : JournalFact} (lands : history.Lands fence entryId)
    (other : ∀ entry, fact ≠ .transition entry) : (history.serve (.append fence entryId fact)).shown fence.runId = history.shown fence.runId := by
  rw [shown_serve, InMemoryRunJournal.rows]
  change (visible _ history.visibility.isPublished ((history.journal.append fence entryId fact).2.page fence.runId).transitions).map _ = _
  rw [append_page, if_pos ⟨lands, rfl⟩]
  cases fact with
  | transition entry => exact absurd rfl (other entry)
  | _ => rfl

theorem held_append {fence : RunFence} {entryId : String} {fact : JournalFact} (lands : history.Lands fence entryId) :
    (history.serve (.append fence entryId fact)).held fence.runId = (JournalPages.record (history.journal.page fence.runId) fact).held.isSome := by
  rw [held_serve]
  change ((history.journal.append fence entryId fact).2.page fence.runId).held.isSome = _
  rw [append_page, if_pos ⟨lands, rfl⟩]
  cases fact <;> rfl

theorem append_elsewhere {fence : RunFence} {entryId : String} {fact : JournalFact} (apart : ¬ (history.Lands fence entryId ∧ runId = fence.runId)) :
    history.holdLanded (.append fence entryId fact) ≠ some runId := by
  unfold holdLanded
  cases fact with
  | hold entry =>
    dsimp only
    split
    next lands => exact fun same => apart ⟨lands, (Option.some.inj same).symm⟩
    next => exact nofun
  | _ => exact nofun

/-- A hold that lands is told, of the state the run is in. -/
theorem hold_lands {fence : RunFence} {entryId : String} {entry : JournaledHold} (lands : history.Lands fence entryId) :
    (history.serve (.append fence entryId (.hold entry))).FaithfulAt fence.runId ↔
      isTerminal (stateOf (history.shown fence.runId)) = false := by
  have landed : history.holdLanded (.append fence entryId (.hold entry)) = some fence.runId := by
    unfold holdLanded
    exact if_pos lands
  have stands : (history.serve (.append fence entryId (.hold entry))).stands fence.runId = true := if_pos landed
  have held : (history.serve (.append fence entryId (.hold entry))).held fence.runId = true := held_append lands
  unfold FaithfulAt
  rw [stands, held, @shown_append _ fence entryId (.hold entry) lands fun _ => nofun]
  simp

theorem append_faithful {fence : RunFence} {entryId : String} {fact : JournalFact} (faithful : history.FaithfulAt runId)
    (clear : history.Clear (.append fence entryId fact)) : (history.serve (.append fence entryId fact)).FaithfulAt runId := by
  by_cases own : history.Lands fence entryId ∧ runId = fence.runId
  · obtain ⟨lands, rfl⟩ := own
    cases fact with
    | transition entry =>
      have held : (history.serve (.append fence entryId (.transition entry))).held fence.runId = false := held_append lands
      have longer : (history.shown fence.runId).length < ((history.serve (.append fence entryId (.transition entry))).shown fence.runId).length := by
        rw [shown_serve, InMemoryRunJournal.rows]
        change _ < ((visible _ history.visibility.isPublished ((history.journal.append fence entryId _).2.page fence.runId).transitions).map _).length
        rw [append_page, if_pos ⟨lands, rfl⟩]
        simp [JournalPages.record, shown, InMemoryRunJournal.rows, visible, readable]
      unfold FaithfulAt
      rw [held, stands_serve (unlanded rfl), more_shown longer, Bool.false_and]
      exact ⟨rfl, fun is_held => absurd is_held Bool.false_ne_true⟩
    | rejection entry =>
      refine faithful_same faithful (unlanded rfl) ?_ (shown_append lands fun _ other => by cases other)
      rw [held_append lands, held_page]
      rfl
    | acquisition entry =>
      refine faithful_same faithful (unlanded rfl) ?_ (shown_append lands fun _ other => by cases other)
      rw [held_append lands, held_page]
      rfl
    | hold entry => exact (hold_lands lands).mpr (clear lands)
  · apply faithful_page faithful (append_elsewhere own) _ rfl
    change (history.journal.append fence entryId fact).2.page runId = _
    rw [append_page, if_neg own]

theorem shown_stage {fence : RunFence} {commitId : String} {transitions : List TransitionEntry}
    (admitted : (history.journal.fence.refuse fence).1 = none) :
    (history.serve (.stageTransitions fence commitId transitions)).shown fence.runId =
      history.shown fence.runId ++ (if history.visibility.isPublished commitId then transitions else []) := by
  rw [shown_serve, InMemoryRunJournal.rows]
  change (visible _ history.visibility.isPublished ((history.journal.stageTransitions fence commitId transitions).2.page fence.runId).transitions).map _ = _
  rw [stage_page, if_pos ⟨admitted, rfl⟩, visible_append, List.map_append]
  congr 1
  cases published : history.visibility.isPublished commitId with
  | true =>
    rw [if_pos rfl]
    unfold stagedRows visible
    rw [List.filter_eq_self.mpr, List.map_map]
    · exact List.map_id _
    · intro row member
      obtain ⟨entry, _, rfl⟩ := List.mem_map.mp member
      exact published
  | false =>
    rw [visible_hidden published fun row member => by obtain ⟨entry, _, rfl⟩ := List.mem_map.mp member; rfl]
    rfl

theorem held_stage {fence : RunFence} {commitId : String} {transitions : List TransitionEntry}
    (admitted : (history.journal.fence.refuse fence).1 = none) :
    (history.serve (.stageTransitions fence commitId transitions)).held fence.runId = history.held fence.runId := by
  rw [held_serve, held_page]
  change ((history.journal.stageTransitions fence commitId transitions).2.page fence.runId).held.isSome = _
  rw [stage_page, if_pos ⟨admitted, rfl⟩]

theorem stage_faithful {fence : RunFence} {commitId : String} {transitions : List TransitionEntry} (faithful : history.FaithfulAt runId)
    (clear : history.Clear (.stageTransitions fence commitId transitions)) :
    (history.serve (.stageTransitions fence commitId transitions)).FaithfulAt runId := by
  by_cases own : (history.journal.fence.refuse fence).1 = none ∧ runId = fence.runId
  · obtain ⟨admitted, rfl⟩ := own
    apply faithful_kept faithful (unlanded rfl) (held_stage admitted)
    intro held
    have unseen : (if history.visibility.isPublished commitId then transitions else []) = [] := by
      split
      next published =>
        by_contra more
        have quiet := clear admitted published more
        rw [held] at quiet
        cases quiet
      next => rfl
    rw [shown_stage admitted, unseen, List.append_nil]
    exact ⟨List.Sublist.refl _, faithful.2 held⟩
  · apply faithful_page faithful (unlanded rfl) _ rfl
    change (history.journal.stageTransitions fence commitId transitions).2.page runId = _
    rw [stage_page, if_neg own]

theorem abandon_page (runId commitId other : String) : (history.journal.abandon runId commitId).page other =
    if other = runId then { history.journal.page runId with
      transitions := (history.journal.page runId).transitions.filter fun row => row.commitId ≠ some commitId }
    else history.journal.page other := page_setPage runId other _

theorem shown_abandon {commitId : String} : (history.serve (.abandon runId commitId)).shown runId = history.remaining runId commitId := by
  rw [shown_serve, InMemoryRunJournal.rows]
  change (visible _ history.visibility.isPublished ((history.journal.abandon runId commitId).page runId).transitions).map _ = _
  rw [abandon_page, if_pos rfl]
  rfl

theorem held_abandon {commitId : String} : (history.serve (.abandon runId commitId)).held runId = history.held runId := by
  rw [held_serve, held_page]
  change ((history.journal.abandon runId commitId).page runId).held.isSome = _
  rw [abandon_page, if_pos rfl]

theorem abandon_faithful {owner commitId : String} (faithful : history.FaithfulAt runId) (clear : history.Clear (.abandon owner commitId)) :
    (history.serve (.abandon owner commitId)).FaithfulAt runId := by
  by_cases own : runId = owner
  · subst own
    apply faithful_kept faithful (unlanded rfl) held_abandon
    intro held
    rw [shown_abandon]
    refine ⟨List.Sublist.map _ (List.Sublist.filter _ List.filter_sublist), clear held⟩
  · apply faithful_page faithful (unlanded rfl) _ rfl
    change (history.journal.abandon owner commitId).page runId = _
    rw [abandon_page, if_neg own]

theorem held_publish {commitId : String} : (history.serve (.publish commitId)).held runId = history.held runId := by
  rw [held_serve, held_page]
  rfl

theorem readable_publish {commitId : String} (tag : Option String) (other : tag ≠ some commitId ∨ history.visibility.isPublished commitId = true) :
    readable (history.visibility.publish commitId).isPublished tag = readable history.visibility.isPublished tag := by
  cases tag with
  | none => rfl
  | some name =>
    change (history.visibility.publish commitId).isPublished name = history.visibility.isPublished name
    rw [CommitLedger.isPublished_publish]
    by_cases same : name = commitId
    · subst same
      rw [other.resolve_left (fun apart => apart rfl), Bool.or_true]
    · rw [decide_eq_false same, Bool.false_or]

/-- A publication shows nothing more of a run without hidden rows of the commit. -/
theorem publish_same {commitId : String}
    (known : history.visibility.isPublished commitId = true ∨ ∀ row ∈ history.journal.rows runId, row.commitId ≠ some commitId) :
    (history.serve (.publish commitId)).shown runId = history.shown runId := by
  change (visible _ (history.visibility.publish commitId).isPublished (history.journal.rows runId)).map _ = _
  unfold shown visible
  congr 1
  refine List.filter_congr fun row member => ?_
  exact readable_publish row.commitId (known.symm.imp_left fun none_tagged => none_tagged row member)

/-- Hidden rows of the commit are shown by its publication. -/
theorem publish_more {commitId : String} (hidden : history.visibility.isPublished commitId = false) {row : StoredTransition}
    (member : row ∈ history.journal.rows runId) (tag : row.commitId = some commitId) :
    (history.shown runId).length < ((history.serve (.publish commitId)).shown runId).length := by
  have grown : ∀ other, history.visibility.isPublished other = true → (history.visibility.publish commitId).isPublished other = true := by
    intro other seen
    rw [CommitLedger.isPublished_publish, seen, Bool.or_true]
  have sub := @visible_mono _ _ StoredTransition.commitId _ _ grown (history.journal.rows runId)
  change (List.map _ _).length < (List.map _ (visible StoredTransition.commitId (history.visibility.publish commitId).isPublished
    (history.journal.rows runId))).length
  rw [List.length_map, List.length_map]
  refine Nat.lt_of_le_of_ne sub.length_le fun same => ?_
  have equal := sub.eq_of_length same
  have seen : row ∈ visible StoredTransition.commitId (history.visibility.publish commitId).isPublished (history.journal.rows runId) := by
    rw [mem_visible, tag]
    exact ⟨member, by simp [readable]⟩
  rw [← equal, mem_visible, tag] at seen
  have published : history.visibility.isPublished commitId = true := seen.2
  rw [hidden] at published
  cases published

theorem publish_faithful {commitId : String} (faithful : history.FaithfulAt runId) (clear : history.Clear (.publish commitId)) :
    (history.serve (.publish commitId)).FaithfulAt runId := by
  apply faithful_kept faithful (unlanded rfl) held_publish
  intro held
  have same : (history.serve (.publish commitId)).shown runId = history.shown runId := by
    apply publish_same
    cases hidden : history.visibility.isPublished commitId with
    | true => exact .inl rfl
    | false => exact .inr (clear hidden runId held)
  rw [same]
  exact ⟨List.Sublist.refl _, faithful.2 held⟩

theorem serve_faithful (faithful : ∀ runId, history.FaithfulAt runId) (clear : history.Clear request) :
    ∀ runId, (history.serve request).FaithfulAt runId := by
  intro runId
  cases request with
  | append fence entryId fact => exact append_faithful (faithful runId) clear
  | stageTransitions fence commitId transitions => exact stage_faithful (faithful runId) clear
  | abandon owner commitId => exact abandon_faithful (faithful runId) clear
  | publish commitId => exact publish_faithful (faithful runId) clear

/-- A step that is not clear leaves some run told wrongly. -/
theorem unclear_unfaithful (unclear : ¬ history.Clear request) : ∃ runId, ¬ (history.serve request).FaithfulAt runId := by
  cases request with
  | append fence entryId fact =>
    cases fact with
    | hold entry =>
      obtain ⟨lands, terminal⟩ := Classical.not_imp.mp unclear
      exact ⟨fence.runId, fun faithful => terminal ((hold_lands lands).mp faithful)⟩
    | _ => exact absurd trivial unclear
  | stageTransitions fence commitId transitions =>
    simp only [Clear, Classical.not_imp] at unclear
    obtain ⟨admitted, published, some_transitions, held⟩ := unclear
    refine ⟨fence.runId, unfaithful_more (unlanded rfl) ?_ ?_⟩
    · rw [held_stage admitted]
      simpa using held
    · rw [shown_stage admitted, if_pos published, List.length_append]
      have long := List.length_pos_of_ne_nil some_transitions
      omega
  | abandon runId commitId =>
    obtain ⟨held, terminal⟩ := Classical.not_imp.mp unclear
    refine ⟨runId, fun faithful => terminal ?_⟩
    rw [← shown_abandon]
    exact faithful.2 (held_abandon.trans held)
  | publish commitId =>
    simp only [Clear, Classical.not_imp, not_forall, not_not] at unclear
    obtain ⟨hidden, runId, held, row, member, tag⟩ := unclear
    exact ⟨runId, unfaithful_more (unlanded rfl) (held_publish.trans held) (publish_more hidden member tag)⟩

end Steps

/-- Every state the requests lead through is told faithfully exactly if every one of them is clear. -/
theorem held_faithfully_iff (requests : List JournalRequest) :
    (∀ served, served <+: requests → (after serve ({} : HoldHistory) served).Faithful) ↔ Along serve Clear {} requests := by
  constructor
  · intro faithful
    induction requests using List.reverseRecOn with
    | nil => trivial
    | append_singleton requests request ih =>
      refine Along.concat (ih fun served before => faithful served (before.trans (List.prefix_append _ _))) ?_
      by_contra unclear
      obtain ⟨runId, wrong⟩ := unclear_unfaithful unclear
      have last := faithful _ (List.prefix_refl _)
      rw [after_concat] at last
      exact wrong (faithful_iff.mp last runId)
  · intro clear served before
    obtain ⟨rest, rfl⟩ := before
    have initial : ∀ runId, ({} : HoldHistory).FaithfulAt runId := fun runId => ⟨rfl, nofun⟩
    exact faithful_iff.mpr (invariant_along (fun history => ∀ runId, history.FaithfulAt runId)
      (fun history request faithful clear => serve_faithful faithful clear) initial clear.append.1)

/-- A run is held, its terminal tail is staged, and the tail is published: it is told to be both completed and held. -/
theorem published_and_held :
    let hold : JournaledHold := ⟨.requested, "resolve_profile", "unmet", "t0"⟩
    let tail : TransitionEntry := ⟨"run", .evidenceSealed, .completed, .complete, "sealed", "t1"⟩
    let requests : List JournalRequest :=
      [.append ⟨"run", 1⟩ "run#1" (.hold hold), .stageTransitions ⟨"run", 1⟩ "commit" [tail], .publish "commit"]
    ((after serve ({} : HoldHistory) requests).told "run").map (fun state => (state.state, state.held)) = some (.completed, some hold) ∧
      ¬ ∀ served, served <+: requests → (after serve ({} : HoldHistory) served).Faithful := by
  intro hold tail requests
  have told : ((after serve ({} : HoldHistory) requests).told "run").map (fun state => (state.state, state.held)) = some (.completed, some hold) := by
    decide
  refine ⟨told, fun faithful => ?_⟩
  obtain ⟨state, found, same⟩ := Option.map_eq_some_iff.mp told
  obtain ⟨terminal, held⟩ := Prod.mk.inj same
  have moving := (faithful _ (List.prefix_refl _)).moving "run" state found (by rw [held]; rfl)
  rw [terminal] at moving
  cases moving

end HoldHistory

end SecureHome.RunState
