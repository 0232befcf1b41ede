import Mathlib.Data.List.Nodup
import SecureHome.Lib.Folding
import SecureHome.Adapters.Coding.ClaudeObserve
import SecureHome.Adapters.Coding.CopilotObserve

/-! One provider call and its recorded disposition. A transcript is a list of acts on
tool requests, and the calls it comes to are the joins of those acts by request id. -/

namespace SecureHome.Adapters.Coding
open Contracts Lib Ports

/-- What a transcript says about one tool request. -/
inductive CallAct where
  | requested (id name : String)
  | completed (id : String) (denied : Bool)
  /-- A denial reported apart from the completion, with what it names. -/
  | refused (id tool : Option String)
  deriving DecidableEq, Repr

/-- The part of a reading that the acts on requests make. -/
structure Joined where
  pending : PendingCalls
  calls : List (Attributed AdapterCall)
  marked : List (Attributed NormalizedProviderEvent)

def Joined.act (joined : Joined) : CallAct → Joined
  | .requested id name => { joined with pending := joined.pending.set id name }
  | .completed id denied =>
    match joined.pending.lookup id with
    | none => joined
    | some tool =>
      { joined with
        pending := joined.pending.delete id
        calls := joined.calls ++ [⟨some id, tool, dispositionOf denied⟩] }
  | .refused id tool =>
    match tool with
    | none => joined
    | some tool => { joined with calls := joined.calls ++ [⟨id, tool, .denied⟩] }

theorem Joined.act_marked (joined : Joined) (act : CallAct) : (joined.act act).marked = joined.marked := by
  cases act with
  | requested id name => rfl
  | completed id denied =>
    unfold Joined.act
    dsimp only
    split <;> rfl
  | refused id tool => cases tool <;> rfl

section Requests

variable (id : String)

/-- What an observation records for a request, by the frames it was recorded from. -/
def callsFor (calls : List (Attributed AdapterCall)) : List CallDisposition :=
  (calls.filter (·.request = some id)).map (·.item.disposition)

/-- The dispositions that acts give a request's calls, from whether it is asked for. -/
def answers : Bool → List CallAct → List CallDisposition
  | _, [] => []
  | asked, .requested other _ :: rest => answers (asked || other = id) rest
  | asked, .completed other denied :: rest =>
    if asked ∧ other = id then dispositionOf denied :: answers false rest else answers asked rest
  | asked, .refused other tool :: rest =>
    if other = some id ∧ tool.isSome then .denied :: answers asked rest else answers asked rest

/-- The completions that find the request asked for, by whether they deny. -/
def joins : Bool → List CallAct → List Bool
  | _, [] => []
  | asked, .requested other _ :: rest => joins (asked || other = id) rest
  | asked, .completed other denied :: rest =>
    if asked ∧ other = id then denied :: joins false rest else joins asked rest
  | asked, .refused _ _ :: rest => joins asked rest

/-- Whether the request is asked for once the acts are over. -/
def asking : Bool → List CallAct → Bool
  | asked, [] => asked
  | asked, .requested other _ :: rest => asking (asked || other = id) rest
  | asked, .completed other _ :: rest => asking (asked && other ≠ id) rest
  | asked, .refused _ _ :: rest => asking asked rest

/-- The denials reported for the request that name their tool. -/
def namedRefusals (acts : List CallAct) : List CallAct :=
  acts.filter fun
    | .refused other tool => other = some id ∧ tool.isSome
    | _ => false

/-- A completion answers the request: it stands after a request for it, with no other
completion of it between. -/
def Answered (acts : List CallAct) (denied : Bool) : Prop :=
  ∃ before name between rest, acts = before ++ .requested id name :: (between ++ .completed id denied :: rest) ∧
    ∀ other, .completed id other ∉ between

/-- The request is asked for and answered, and then asked for and answered again. -/
def AnsweredTwice (acts : List CallAct) : Prop :=
  ∃ first second, acts = first ++ second ∧ (∃ denied, Answered id first denied) ∧ ∃ denied, Answered id second denied

/-- The transcript reports the request's denial, with its completion or apart from it. -/
def DenialReported (acts : List CallAct) : Prop :=
  .completed id true ∈ acts ∨ ∃ tool, .refused (some id) tool ∈ acts

/-- What the transcript must be for the record of a request to be true: it is not
answered twice over, and where its denial is reported that is one denial with its tool
and no answer, or one answer that denies and no denial with its tool. -/
def SettledOnce (acts : List CallAct) : Prop :=
  ¬ AnsweredTwice id acts ∧
  (DenialReported id acts →
    (namedRefusals id acts).length = 1 ∧ (∀ denied, ¬ Answered id acts denied) ∨
    namedRefusals id acts = [] ∧ Answered id acts true)

/-- The first completion of the request denies or not. -/
def Leads (acts : List CallAct) (denied : Bool) : Prop :=
  ∃ between rest, acts = between ++ .completed id denied :: rest ∧ ∀ other, .completed id other ∉ between

variable {id}

theorem leads_cons {act : CallAct} {rest : List CallAct} {denied : Bool} :
    Leads id (act :: rest) denied ↔
      act = .completed id denied ∨ (∀ other, act ≠ .completed id other) ∧ Leads id rest denied := by
  constructor
  · rintro ⟨between, after, same, clean⟩
    cases between with
    | nil => exact .inl (List.cons.inj same).1
    | cons head between =>
      obtain ⟨rfl, rfl⟩ := List.cons.inj same
      refine .inr ⟨?_, between, after, rfl, ?_⟩
      · rintro other rfl
        exact clean other List.mem_cons_self
      · intro other member
        exact clean other (List.mem_cons_of_mem _ member)
  · rintro (rfl | ⟨apart, between, after, rfl, clean⟩)
    · exact ⟨[], rest, rfl, fun _ => List.not_mem_nil⟩
    · refine ⟨act :: between, after, rfl, ?_⟩
      intro other member
      rcases List.mem_cons.mp member with same | inside
      · exact apart other same.symm
      · exact clean other inside

theorem answered_cons {act : CallAct} {rest : List CallAct} {denied : Bool} :
    Answered id (act :: rest) denied ↔
      (∃ name, act = .requested id name) ∧ Leads id rest denied ∨ Answered id rest denied := by
  constructor
  · rintro ⟨before, name, between, after, same, clean⟩
    cases before with
    | nil =>
      obtain ⟨rfl, rfl⟩ := List.cons.inj same
      exact .inl ⟨⟨name, rfl⟩, between, after, rfl, clean⟩
    | cons head before =>
      obtain ⟨rfl, rfl⟩ := List.cons.inj same
      exact .inr ⟨before, name, between, after, rfl, clean⟩
  · rintro (⟨⟨name, rfl⟩, between, after, rfl, clean⟩ | ⟨before, name, between, after, rfl, clean⟩)
    · exact ⟨[], name, between, after, rfl, clean⟩
    · exact ⟨act :: before, name, between, after, rfl, clean⟩

/-- A completion is joined just where it answers the request, or is the first of a
request already asked for. -/
theorem mem_joins {acts : List CallAct} {asked denied : Bool} :
    denied ∈ joins id asked acts ↔ Answered id acts denied ∨ asked = true ∧ Leads id acts denied := by
  induction acts generalizing asked with
  | nil =>
    constructor
    · exact fun member => absurd member List.not_mem_nil
    · rintro (⟨before, _, _, _, same, _⟩ | ⟨_, between, _, same, _⟩)
      · cases before <;> cases same
      · cases between <;> cases same
  | cons act rest ih =>
    rw [answered_cons, leads_cons]
    cases act with
    | requested other name =>
      rw [joins, ih]
      by_cases same : other = id
      · simp only [same, decide_true, Bool.or_true, CallAct.requested.injEq, true_and, exists_eq', reduceCtorEq,
          false_or, ne_eq, not_false_eq_true, implies_true]
        tauto
      · simp [same]
    | completed other answer =>
      rw [joins]
      by_cases same : other = id
      · subst same
        cases asked <;> simp [ih, or_comm, eq_comm]
      · have apart : id ≠ other := Ne.symm same
        simp [same, ih]
    | refused other tool =>
      rw [joins, ih]
      simp

theorem joins_append (first second : List CallAct) (asked : Bool) :
    joins id asked (first ++ second) = joins id asked first ++ joins id (asking id asked first) second := by
  induction first generalizing asked with
  | nil => rfl
  | cons act rest ih =>
    cases act with
    | requested other name => exact ih _
    | completed other denied =>
      by_cases same : asked = true ∧ other = id
      · obtain ⟨rfl, rfl⟩ := same
        simp [joins, asking, ih]
      · have still : (asked && decide (other ≠ id)) = asked := by
          by_cases apart : other = id <;> simp_all
        simp only [List.cons_append, joins, asking, if_neg same, ih, still]
    | refused other tool => exact ih _

/-- The first of the joins is made in a part of the acts that ends with it. -/
theorem joins_head {acts : List CallAct} {asked head : Bool} {tail : List Bool}
    (joined : joins id asked acts = head :: tail) :
    ∃ first second, acts = first ++ second ∧ joins id asked first = [head] ∧ joins id false second = tail := by
  induction acts generalizing asked with
  | nil => cases joined
  | cons act rest ih =>
    cases act with
    | requested other name =>
      obtain ⟨first, second, rfl, own, others⟩ := ih joined
      exact ⟨.requested other name :: first, second, rfl, own, others⟩
    | completed other denied =>
      rw [joins] at joined
      split at joined
      next same =>
        obtain ⟨rfl, rfl⟩ := List.cons.inj joined
        exact ⟨[.completed other denied], rest, rfl, by rw [joins, if_pos same]; rfl, rfl⟩
      next apart =>
        obtain ⟨first, second, rfl, own, others⟩ := ih joined
        exact ⟨.completed other denied :: first, second, rfl, by rw [joins, if_neg apart, own], others⟩
    | refused other tool =>
      obtain ⟨first, second, rfl, own, others⟩ := ih joined
      exact ⟨.refused other tool :: first, second, rfl, own, others⟩

theorem answered_iff {acts : List CallAct} {denied : Bool} : Answered id acts denied ↔ denied ∈ joins id false acts := by
  rw [mem_joins]
  simp

theorem answeredTwice_iff {acts : List CallAct} : AnsweredTwice id acts ↔ 2 ≤ (joins id false acts).length := by
  constructor
  · rintro ⟨first, second, rfl, ⟨one, answered⟩, ⟨two, again⟩⟩
    have some := List.length_pos_of_mem (answered_iff.mp answered)
    have more := List.length_pos_of_mem ((@mem_joins id second (asking id false first) two).mpr (.inl again))
    rw [joins_append, List.length_append]
    omega
  · intro twice
    obtain ⟨one, two, more, joined⟩ : ∃ one two more, joins id false acts = one :: two :: more := by
      match joins id false acts, twice with
      | one :: two :: more, _ => exact ⟨one, two, more, rfl⟩
    obtain ⟨first, second, rfl, own, others⟩ := joins_head joined
    refine ⟨first, second, rfl, ⟨one, ?_⟩, ⟨two, ?_⟩⟩
    · rw [answered_iff, own]
      exact List.mem_singleton_self one
    · rw [answered_iff, others]
      exact List.mem_cons_self

/-- A request's dispositions are those of its joined completions and of its named
denials, in some order. -/
theorem answers_perm (acts : List CallAct) (asked : Bool) :
    (answers id asked acts).Perm
      ((joins id asked acts).map dispositionOf ++ (namedRefusals id acts).map fun _ => .denied) := by
  induction acts generalizing asked with
  | nil => exact List.Perm.refl _
  | cons act rest ih =>
    cases act with
    | requested other name => exact ih _
    | completed other denied =>
      rw [answers, joins]
      split
      · exact (ih false).cons _
      · exact ih asked
    | refused other tool =>
      rw [answers, joins]
      by_cases named : other = some id ∧ tool.isSome = true
      · rw [if_pos named, namedRefusals, List.filter_cons_of_pos (by simpa using named), List.map_cons]
        exact ((ih asked).cons _).trans List.perm_middle.symm
      · rw [if_neg named, namedRefusals, List.filter_cons_of_neg (by simpa using named)]
        exact ih asked

/-- The calls of a request are those it had and the answers of the acts. -/
theorem callsFor_acts (acts : List CallAct) (joined : Joined) :
    callsFor id (acts.foldl Joined.act joined).calls =
      callsFor id joined.calls ++ answers id (joined.pending.lookup id).isSome acts := by
  induction acts generalizing joined with
  | nil => simp [answers]
  | cons act rest ih =>
    rw [List.foldl_cons, ih]
    cases act with
    | requested other name => simp only [Joined.act, answers, PendingCalls.asked_set]
    | completed other denied =>
      cases found : joined.pending.lookup other with
      | none =>
        have apart : ¬ ((joined.pending.lookup id).isSome = true ∧ other = id) := by
          rintro ⟨held, rfl⟩
          simp [found] at held
        simp only [Joined.act, answers, found, if_neg apart]
      | some tool =>
        simp only [Joined.act, answers, found, PendingCalls.asked_delete]
        by_cases same : other = id
        · subst same
          simp [callsFor, found]
        · simp [callsFor, same]
    | refused other tool =>
      cases tool with
      | none => simp [Joined.act, answers]
      | some tool =>
        by_cases same : other = some id <;> simp [Joined.act, answers, callsFor, same]

theorem pending_acts (acts : List CallAct) (joined : Joined) :
    ((acts.foldl Joined.act joined).pending.lookup id).isSome = asking id (joined.pending.lookup id).isSome acts := by
  induction acts generalizing joined with
  | nil => rfl
  | cons act rest ih =>
    rw [List.foldl_cons, ih]
    cases act with
    | requested other name => simp only [Joined.act, asking, PendingCalls.asked_set]
    | completed other denied =>
      cases found : joined.pending.lookup other with
      | none =>
        have still : ((joined.pending.lookup id).isSome && decide (other ≠ id)) = (joined.pending.lookup id).isSome := by
          by_cases same : other = id
          · subst same
            simp [found]
          · simp [same]
        simp only [Joined.act, asking, found, still]
      | some tool => simp only [Joined.act, asking, found, PendingCalls.asked_delete]
    | refused other tool => cases tool <;> simp only [Joined.act, asking]

/-- A request that nothing completes is still asked for in the end. -/
theorem asking_uncompleted {acts : List CallAct} (uncompleted : ∀ denied, .completed id denied ∉ acts) (asked : Bool) :
    asking id asked acts = true ↔ asked = true ∨ ∃ name, .requested id name ∈ acts := by
  induction acts generalizing asked with
  | nil => simp [asking]
  | cons act rest ih =>
    have uncompletedRest : ∀ denied, .completed id denied ∉ rest := by
      intro denied member
      exact uncompleted denied (List.mem_cons_of_mem _ member)
    cases act with
    | requested other name =>
      rw [asking, ih uncompletedRest]
      by_cases same : other = id
      · subst same
        simp
      · simp [same, Ne.symm same]
    | completed other denied =>
      have apart : other ≠ id := by
        rintro rfl
        exact uncompleted denied List.mem_cons_self
      rw [asking, ih uncompletedRest]
      simp [apart]
    | refused other tool =>
      rw [asking, ih uncompletedRest]
      simp

theorem pending_nodup (acts : List CallAct) {joined : Joined} (single : joined.pending.ids.Nodup) :
    (acts.foldl Joined.act joined).pending.ids.Nodup := by
  induction acts generalizing joined with
  | nil => exact single
  | cons act rest ih =>
    apply ih
    cases act with
    | requested other name => exact PendingCalls.set_nodup single other name
    | completed other denied =>
      cases found : joined.pending.lookup other with
      | none => simpa only [Joined.act, found] using single
      | some tool => simpa only [Joined.act, found] using PendingCalls.delete_nodup single other
    | refused other tool => cases tool <;> exact single

end Requests

/-- The part of a collector that is about requests. -/
def BudgetedCollector.record (out : BudgetedCollector) :
    List (Attributed AdapterCall) × List (Attributed NormalizedProviderEvent) := (out.calls, out.marked)

def Reading.joined (reading : Reading) : Joined := ⟨reading.pendingCalls, reading.out.calls, reading.out.marked⟩

theorem joined_with {reading : Reading} {out : BudgetedCollector} (same : out.record = reading.out.record) :
    ({ reading with out } : Reading).joined = reading.joined := by
  obtain ⟨calls, marked⟩ := Prod.mk.inj same
  simp only [Reading.joined, calls, marked]

/-- A fold over lines of which only the frames take part joins what the frames say. -/
theorem lines_joined {parse : String → Option Value} {consume : Reading → String → Reading}
    {acts : Record → List CallAct}
    (each : ∀ reading line,
      (consume reading line).joined = (((frameOf parse line).map acts).getD []).foldl Joined.act reading.joined)
    (text : String) (reading : Reading) :
    ((lines text).foldl consume reading).joined =
      ((frames parse text).flatMap acts).foldl Joined.act reading.joined := by
  rw [foldl_traced Reading.joined each]
  congr 1
  unfold frames
  induction lines text with
  | nil => rfl
  | cons line rest ih => cases held : frameOf parse line <;> simp [held, ih]

/-- The events that tell of a request without a disposition. -/
def unresolvedFor (id : String) (events : List (Attributed NormalizedProviderEvent)) :
    List (Attributed NormalizedProviderEvent) :=
  events.filter fun event => event.request = some id ∧ event.item.name = "call.unresolved"

/-- One recorded disposition for a request: at most one call, a denial and no permission
where the denial is reported, and with a budget that lasts one unresolved event and no
call where neither a completion nor a denial is. -/
structure OneDisposition (id : String) (acts : List CallAct) (observation : AdapterObservation) : Prop where
  once : (callsFor id observation.calls).length ≤ 1
  denied : DenialReported id acts →
    .denied ∈ callsFor id observation.calls ∧ .permitted ∉ callsFor id observation.calls
  unresolved : observation.truncated = false → (∀ denied, .completed id denied ∉ acts) → ¬ DenialReported id acts →
    callsFor id observation.calls = [] ∧ (unresolvedFor id observation.events).length = 1

private theorem unresolved_calls (reading : Reading) : reading.unresolved.calls = reading.out.calls :=
  foldl_keeps BudgetedCollector.calls (fun _ _ => BudgetedCollector.event_calls ..) _ _

/-- A budget that lasts to the end records one event for each call left. -/
private theorem unresolved_events (pending : PendingCalls) (out : BudgetedCollector) :
    let done := pending.foldl
      (fun out entry => out.event "call.unresolved" "" [("tool", entry.2)] (some entry.1)) out
    done.truncated = false →
      out.truncated = false ∧ done.events = out.events ++ pending.map fun entry =>
        ⟨some entry.1, "call.unresolved", "", [("tool", entry.2)]⟩ := by
  induction pending generalizing out with
  | nil => simp
  | cons entry rest ih =>
    intro done lasts
    obtain ⟨kept, events⟩ := ih _ lasts
    obtain ⟨whole, recorded⟩ := BudgetedCollector.event_kept kept
    refine ⟨whole, ?_⟩
    rw [recorded, List.append_assoc] at events
    exact events

section Settled

variable {id : String} {acts : List CallAct}

theorem permitted_answers : .permitted ∈ answers id false acts ↔ false ∈ joins id false acts := by
  rw [(answers_perm acts false).mem_iff]
  simp [dispositionOf]

theorem denied_answers : .denied ∈ answers id false acts ↔ true ∈ joins id false acts ∨ namedRefusals id acts ≠ [] := by
  rw [(answers_perm acts false).mem_iff]
  simp [dispositionOf, List.eq_nil_iff_forall_not_mem]

theorem answers_length :
    (answers id false acts).length = (joins id false acts).length + (namedRefusals id acts).length := by
  rw [(answers_perm acts false).length_eq]
  simp

/-- A named denial is a reported one. -/
theorem unreported_refusals (unreported : ¬ DenialReported id acts) : namedRefusals id acts = [] := by
  apply List.filter_eq_nil_iff.mpr
  intro act member
  cases act with
  | requested other name => simp
  | completed other denied => simp
  | refused other tool =>
    simp only [decide_eq_true_iff]
    rintro ⟨rfl, _⟩
    exact unreported (.inr ⟨tool, member⟩)

theorem uncompleted_joins (uncompleted : ∀ denied, .completed id denied ∉ acts) : joins id false acts = [] := by
  apply List.eq_nil_iff_forall_not_mem.mpr
  intro denied member
  obtain ⟨before, name, between, rest, rfl, _⟩ := answered_iff.mpr member
  exact uncompleted denied (by simp)

/-- The answers are one disposition, true to what is reported, just where the transcript
settles the request once. -/
theorem answers_settled :
    ((answers id false acts).length ≤ 1 ∧ (DenialReported id acts →
      .denied ∈ answers id false acts ∧ .permitted ∉ answers id false acts)) ↔ SettledOnce id acts := by
  unfold SettledOnce
  simp only [answeredTwice_iff, answered_iff, answers_length, denied_answers, permitted_answers]
  have unreported := @unreported_refusals id acts
  generalize joins id false acts = joined at *
  generalize namedRefusals id acts = named at *
  constructor
  · rintro ⟨once, denial⟩
    refine ⟨by omega, ?_⟩
    intro reported
    obtain ⟨told, unpermitted⟩ := denial reported
    rcases joined with _ | ⟨answered, others⟩
    · rcases named with _ | ⟨refusal, others⟩
      · simp at told
      · obtain rfl : others = [] := List.eq_nil_of_length_eq_zero (by simp only [List.length_cons, List.length_nil] at once; omega)
        exact .inl ⟨rfl, fun _ => List.not_mem_nil⟩
    · obtain rfl : others = [] := List.eq_nil_of_length_eq_zero (by simp only [List.length_cons] at once; omega)
      obtain rfl : named = [] := List.eq_nil_of_length_eq_zero (by simp only [List.length_cons] at once; omega)
      cases answered with
      | false => exact absurd (List.mem_singleton_self false) unpermitted
      | true => exact .inr ⟨rfl, List.mem_singleton_self true⟩
  · rintro ⟨once, denial⟩
    by_cases reported : DenialReported id acts
    · rcases denial reported with ⟨single, unjoined⟩ | ⟨rfl, answered⟩
      · obtain rfl := List.eq_nil_iff_forall_not_mem.mpr unjoined
        refine ⟨by simp [single], fun _ => ⟨.inr ?_, List.not_mem_nil⟩⟩
        rintro rfl
        cases single
      · obtain rfl : joined = [true] := by
          rcases joined with _ | ⟨first, others⟩
          · cases answered
          · obtain rfl : others = [] := List.eq_nil_of_length_eq_zero (by simp only [List.length_cons] at once; omega)
            rw [List.mem_singleton.mp answered]
        exact ⟨Nat.le_refl 1, fun _ => ⟨.inl (List.mem_singleton_self true), by decide⟩⟩
    · obtain rfl := unreported reported
      exact ⟨by simp only [List.length_nil]; omega, fun told => absurd told reported⟩

/-- With a budget that lasts, a request still asked for is told of by one event. -/
theorem unresolved_once {reading : Reading} (read : reading.joined = acts.foldl Joined.act ⟨[], [], []⟩)
    {name : String} (requested : .requested id name ∈ acts) (uncompleted : ∀ denied, .completed id denied ∉ acts)
    {exitCode : Option Int} {signalled : Option String} (lasts : (reading.observe exitCode signalled).truncated = false) :
    (unresolvedFor id (reading.observe exitCode signalled).events).length = 1 := by
  obtain ⟨_, events⟩ := unresolved_events reading.pendingCalls reading.out lasts
  have marked : reading.out.marked = [] := by
    calc reading.out.marked
      _ = (acts.foldl Joined.act ⟨[], [], []⟩).marked := congrArg Joined.marked read
      _ = [] := foldl_keeps Joined.marked Joined.act_marked acts _
  have pending : reading.pendingCalls = (acts.foldl Joined.act ⟨[], [], []⟩).pending := congrArg Joined.pending read
  have asked : id ∈ reading.pendingCalls.ids := by
    rw [← PendingCalls.lookup_isSome, pending, pending_acts, asking_uncompleted uncompleted]
    exact .inr ⟨name, requested⟩
  have single : reading.pendingCalls.ids.Nodup := by
    rw [pending]
    exact pending_nodup acts List.nodup_nil
  have before : unresolvedFor id reading.out.events = [] := by
    apply List.filter_eq_nil_iff.mpr
    intro event member
    have unmarked := List.filter_eq_nil_iff.mp marked event member
    simp only [decide_eq_true_iff]
    rintro ⟨own, _⟩
    exact unmarked (by simp [own])
  calc (unresolvedFor id (reading.observe exitCode signalled).events).length
    _ = (unresolvedFor id (reading.pendingCalls.map fun entry =>
          ⟨some entry.1, "call.unresolved", "", [("tool", entry.2)]⟩)).length := by
      change (unresolvedFor id reading.unresolved.events).length = _
      unfold Reading.unresolved
      rw [events, unresolvedFor, List.filter_append]
      change (unresolvedFor id reading.out.events ++ _).length = _
      rw [before]
      rfl
    _ = reading.pendingCalls.ids.count id := by
      rw [unresolvedFor, ← List.countP_eq_length_filter, List.countP_map, PendingCalls.ids, List.count, List.countP_map]
      congr 1
      funext entry
      simp [beq_eq_decide]
    _ = 1 := List.count_eq_one_of_mem single asked

/-- What an observation records for a request is one disposition just where the
transcript settles the request once. -/
theorem one_disposition_iff {reading : Reading} (read : reading.joined = acts.foldl Joined.act ⟨[], [], []⟩)
    {name : String} (requested : .requested id name ∈ acts) (exitCode : Option Int) (signalled : Option String) :
    OneDisposition id acts (reading.observe exitCode signalled) ↔ SettledOnce id acts := by
  have recorded : callsFor id (reading.observe exitCode signalled).calls = answers id false acts := by
    have calls : (reading.observe exitCode signalled).calls = (acts.foldl Joined.act ⟨[], [], []⟩).calls :=
      (unresolved_calls reading).trans (congrArg Joined.calls read)
    rw [calls, callsFor_acts]
    rfl
  rw [← answers_settled, ← recorded]
  constructor
  · intro disposed
    exact ⟨disposed.once, disposed.denied⟩
  · rintro ⟨once, denied⟩
    refine ⟨once, denied, ?_⟩
    intro lasts uncompleted unreported
    refine ⟨?_, unresolved_once read requested uncompleted lasts⟩
    rw [recorded]
    apply List.eq_nil_of_length_eq_zero
    rw [answers_length, uncompleted_joins uncompleted, unreported_refusals unreported]
    rfl

end Settled

namespace Claude

def blockActs (block : Value) : List CallAct :=
  match block.record? with
  | none => []
  | some block =>
    match asString (block.lookup "type") with
    | some "tool_use" =>
      match asString (block.lookup "id"), asString (block.lookup "name") with
      | some id, some name => [.requested id name]
      | _, _ => []
    | some "tool_result" => ((asString (block.lookup "tool_use_id")).map fun id => .completed id false).toList
    | _ => []

def denialActs (denial : Value) : List CallAct :=
  match denial.record? with
  | none => []
  | some denial => [.refused (asString (denial.lookup "tool_use_id")) (asString (denial.lookup "tool_name"))]

def frameActs (frame : Record) : List CallAct :=
  match asString (frame.lookup "type") with
  | some "assistant" => ((messageContent frame).getD []).flatMap blockActs
  | some "user" => ((messageContent frame).getD []).flatMap blockActs
  | some "result" => ((asArray (frame.lookup "permission_denials")).getD []).flatMap denialActs
  | _ => []

/-- The acts of a run's transcript. -/
def callActs (parse : String → Option Value) (captured : CapturedRun) : List CallAct :=
  (frames parse captured.stdout).flatMap frameActs

private theorem consumeBlock_joined (reading : Reading) (block : Value) :
    (consumeBlock reading block).joined = (blockActs block).foldl Joined.act reading.joined := by
  unfold consumeBlock blockActs
  cases block.record? with
  | none => rfl
  | some block =>
    dsimp only
    split
    next type =>
      simp only [type]
      cases asString (block.lookup "text") <;> simp [Reading.joined]
    next type =>
      simp only [type]
      cases asString (block.lookup "id") <;> cases asString (block.lookup "name") <;> rfl
    next type =>
      simp only [type]
      cases asString (block.lookup "tool_use_id") with
      | none => rfl
      | some id =>
        cases pending : reading.pendingCalls.lookup id <;>
          simp [Joined.act, Reading.joined, dispositionOf, pending]
    next text use result =>
      split
      next type => exact absurd type use
      next type => exact absurd type result
      next => rfl

private theorem consumeDenial_joined (reading : Reading) (denial : Value) :
    (consumeDenial reading denial).joined = (denialActs denial).foldl Joined.act reading.joined := by
  unfold consumeDenial denialActs
  cases denial.record? with
  | none => rfl
  | some denial =>
    dsimp only
    simp only [List.foldl_cons, List.foldl_nil, Joined.act]
    cases asString (denial.lookup "tool_name") <;> rfl

private theorem consumeUsage_record (out : BudgetedCollector) (frame : Record) :
    (consumeUsage out frame).record = out.record := by
  unfold consumeUsage
  cases asNumber (frame.lookup "num_turns") with
  | none =>
    cases asRecord (frame.lookup "usage") with
    | none => rfl
    | some usage =>
      refine foldl_keeps BudgetedCollector.record (fun out unit => ?_) usageUnits out
      cases asNumber (usage.lookup unit) <;> simp [BudgetedCollector.record]
  | some turns =>
    cases asRecord (frame.lookup "usage") with
    | none => simp [BudgetedCollector.record]
    | some usage =>
      have measured (out : BudgetedCollector) : (out.measure "turns" turns).record = out.record := by
        simp [BudgetedCollector.record]
      refine (measured _).trans (foldl_keeps BudgetedCollector.record (fun out unit => ?_) usageUnits out)
      cases asNumber (usage.lookup unit) <;> simp [BudgetedCollector.record]

private theorem consumeResult_joined (reading : Reading) (frame : Record) :
    (consumeResult reading frame).joined =
      (((asArray (frame.lookup "permission_denials")).getD []).flatMap denialActs).foldl Joined.act
        reading.joined := by
  have denials : ∀ reading, (consumeDenials reading frame).joined =
      (((asArray (frame.lookup "permission_denials")).getD []).flatMap denialActs).foldl Joined.act
        reading.joined := by
    intro reading
    unfold consumeDenials
    cases asArray (frame.lookup "permission_denials") with
    | none => rfl
    | some denials => exact foldl_traced Reading.joined consumeDenial_joined denials reading
  have claimed (out : BudgetedCollector) (result : String) :
      (if result = "" then out else out.claim result).record = out.record := by
    split
    · rfl
    · simp [BudgetedCollector.record]
  unfold consumeResult
  cases asString (frame.lookup "result") with
  | none => exact (joined_with (consumeUsage_record _ frame)).trans (denials _)
  | some result => exact (joined_with ((claimed _ result).trans (consumeUsage_record _ frame))).trans (denials _)

private theorem consumeMessage_joined (reading : Reading) (frame : Record) (time : String) :
    (consumeMessage reading frame time).joined =
      (((messageContent frame).getD []).flatMap blockActs).foldl Joined.act reading.joined := by
  unfold consumeMessage
  cases messageContent frame with
  | none => simp [Reading.joined]
  | some content => exact foldl_traced Reading.joined consumeBlock_joined content reading

private theorem consumeFrame_joined (reading : Reading) (frame : Record) :
    (consumeFrame reading frame).joined = (frameActs frame).foldl Joined.act reading.joined := by
  unfold consumeFrame frameActs
  split
  next type => simp [type, Reading.joined]
  next type => simp only [type, consumeMessage_joined]
  next type => simp only [type, consumeMessage_joined]
  next type => simp only [type, consumeResult_joined]
  next system assistant user result =>
    split
    next type => exact absurd type assistant
    next type => exact absurd type user
    next type => exact absurd type result
    next => simp [Reading.joined]

theorem consumeLine_joined (parse : String → Option Value) (reading : Reading) (line : String) :
    (consumeLine parse reading line).joined =
      (((frameOf parse line).map frameActs).getD []).foldl Joined.act reading.joined := by
  unfold consumeLine frameOf
  split
  · rfl
  · cases parse line with
    | none => simp [Reading.joined]
    | some value =>
      cases held : value.record? with
      | none => simp [held, Reading.joined]
      | some frame => simpa [held] using consumeFrame_joined reading frame

private theorem consumed_joined (parse : String → Option Value) (captured : CapturedRun) (budget : Numeral) :
    ((lines captured.stdout).foldl (consumeLine parse) { out := { budget } }).joined =
      (callActs parse captured).foldl Joined.act ⟨[], [], []⟩ :=
  lines_joined (consumeLine_joined parse) captured.stdout _

theorem disposition_iff (parse : String → Option Value) (captured : CapturedRun) (budget : Numeral) {id name : String}
    (requested : .requested id name ∈ callActs parse captured) :
    OneDisposition id (callActs parse captured) (observeRun parse captured budget) ↔
      SettledOnce id (callActs parse captured) :=
  one_disposition_iff (consumed_joined parse captured budget) requested captured.exitCode captured.signalled

end Claude

namespace Copilot

def requestActs (request : Value) : List CallAct :=
  match request.record? with
  | none => []
  | some request =>
    match asString (request.lookup "toolCallId"), requestName request with
    | some id, some name => [.requested id name]
    | _, _ => []

def frameActs (frame : Record) : List CallAct :=
  match frameType frame with
  | some "assistant.message" => ((asArray (frame.lookup "toolRequests")).getD []).flatMap requestActs
  | some "tool.execution_complete" =>
    ((asString (frame.lookup "toolCallId")).map fun id => .completed id (completionDenied frame)).toList
  | some "permission.completed" =>
    if permissionDenied frame then [.refused (asString (frame.lookup "toolCallId")) (permissionTool frame)] else []
  | _ => []

/-- The acts of a run's transcript, over both surfaces in turn. -/
def callActs (parse : String → Option Value) (captured : CapturedRun) : List CallAct :=
  (bothSurfaces parse captured).flatMap frameActs

private theorem consumeUsage_record (usage : Record) (out : BudgetedCollector) :
    (consumeUsage usage out).record = out.record := by
  unfold consumeUsage
  apply foldl_keeps BudgetedCollector.record
  rintro out ⟨key, value⟩
  dsimp only
  split
  · rfl
  · split
    · simp [BudgetedCollector.record]
    · apply foldl_keeps BudgetedCollector.record
      rintro out ⟨inner, value⟩
      dsimp only
      split
      · rfl
      · split
        · simp [BudgetedCollector.record]
        · rfl
    · rfl

private theorem consumeRequest_joined (reading : Reading) (request : Value) :
    (consumeRequest reading request).joined = (requestActs request).foldl Joined.act reading.joined := by
  unfold consumeRequest requestActs
  cases request.record? with
  | none => rfl
  | some request =>
    dsimp only
    cases asString (request.lookup "toolCallId") <;> cases requestName request <;> rfl

private theorem consumeContent_joined (reading : Reading) (frame : Record) :
    (consumeContent reading frame).joined = reading.joined := by
  unfold consumeContent
  split
  · split
    · rfl
    · simp [Reading.joined]
  · rfl

private theorem consumeMessage_joined (reading : Reading) (frame : Record) :
    (consumeMessage reading frame).joined =
      (((asArray (frame.lookup "toolRequests")).getD []).flatMap requestActs).foldl Joined.act reading.joined := by
  unfold consumeMessage
  rw [← consumeContent_joined reading frame]
  cases asArray (frame.lookup "toolRequests") with
  | none => rfl
  | some requests => exact foldl_traced Reading.joined consumeRequest_joined requests _

private theorem consumeCompletion_joined (surface : Surface) (reading : Reading) (frame : Record) (time : String) :
    (consumeCompletion surface reading frame time).joined =
      ((asString (frame.lookup "toolCallId")).map fun id =>
        CallAct.completed id (completionDenied frame)).toList.foldl Joined.act reading.joined := by
  unfold consumeCompletion
  cases asString (frame.lookup "toolCallId") with
  | none => simp [Reading.joined]
  | some id =>
    cases pending : reading.pendingCalls.lookup id <;>
      simp [Joined.act, Reading.joined, pending]

private theorem consumePermission_joined (surface : Surface) (reading : Reading) (frame : Record) (time : String) :
    (consumePermission surface reading frame time).joined =
      (if permissionDenied frame then
        [CallAct.refused (asString (frame.lookup "toolCallId")) (permissionTool frame)] else []).foldl Joined.act
        reading.joined := by
  unfold consumePermission
  cases permissionTool frame <;> cases permissionDenied frame <;>
    simp [Joined.act, Reading.joined]

private theorem consumeOther_joined (surface : Surface) (reading : Reading) (frame : Record) (type time : String) :
    (consumeOther surface reading frame type time).joined = reading.joined := by
  unfold consumeOther
  cases frameExit frame with
  | none =>
    dsimp only
    split <;> simp [Reading.joined]
  | some exitCode =>
    cases frameUsage frame with
    | none => rfl
    | some usage => exact joined_with (consumeUsage_record usage reading.out)

private theorem consumeFrame_joined (surface : Surface) (reading : Reading) (frame : Record) :
    (consumeFrame surface reading frame).joined = (frameActs frame).foldl Joined.act reading.joined := by
  unfold consumeFrame frameActs
  split
  next type => simp [type, Reading.joined]
  next type => simp only [type, consumeMessage_joined]
  next type => simp only [type, consumeCompletion_joined]
  next type => simp only [type, consumePermission_joined]
  next type => simp [type, Reading.joined]
  next type message completion permission _ held =>
    rw [consumeOther_joined, held]
    split
    next same => exact absurd (Option.some.inj same) message
    next same => exact absurd (Option.some.inj same) completion
    next same => exact absurd (Option.some.inj same) permission
    next => rfl

theorem consumeLine_joined (parse : String → Option Value) (surface : Surface) (reading : Reading)
    (line : String) :
    (consumeLine parse surface reading line).joined =
      (((frameOf parse line).map frameActs).getD []).foldl Joined.act reading.joined := by
  unfold consumeLine frameOf
  split
  · rfl
  · cases parse line with
    | none => simp [Reading.joined]
    | some value =>
      cases held : value.record? with
      | none => simp [held, Reading.joined]
      | some frame => simpa [held] using consumeFrame_joined surface reading frame

theorem consumeSurface_joined (parse : String → Option Value) (surface : Surface) (bytes : String)
    (reading : Reading) :
    (consumeSurface parse bytes surface reading).joined =
      ((frames parse bytes).flatMap frameActs).foldl Joined.act reading.joined :=
  lines_joined (consumeLine_joined parse surface) bytes reading

theorem disposition_iff (parse : String → Option Value) (captured : CapturedRun) (budget : Numeral) {id name : String}
    (requested : .requested id name ∈ callActs parse captured) :
    OneDisposition id (callActs parse captured) (observeRun parse captured budget) ↔
      SettledOnce id (callActs parse captured) := by
  have stdout := consumeSurface_joined parse .stdout captured.stdout { out := { budget } }
  apply one_disposition_iff _ requested
  unfold callActs bothSurfaces
  cases captured.eventsJsonl with
  | none =>
    rw [Option.map_none, Option.getD_none, List.append_nil]
    refine Eq.trans ?_ stdout
    simp [Reading.joined]
  | some bytes =>
    rw [consumeSurface_joined, stdout, Option.map_some, Option.getD_some, List.flatMap_append, List.foldl_append]
    rfl

end Copilot

/-- Each adapter records one disposition for every request of a transcript if and only
if the transcript settles every request once. -/
theorem dispositions_iff (parse : String → Option Value) (budget : Numeral) :
    (∀ captured : Claude.CapturedRun, let acts := Claude.callActs parse captured
      (∀ id name, .requested id name ∈ acts → OneDisposition id acts (Claude.observeRun parse captured budget)) ↔
        ∀ id name, .requested id name ∈ acts → SettledOnce id acts) ∧
    ∀ captured : Copilot.CapturedRun, let acts := Copilot.callActs parse captured
      (∀ id name, .requested id name ∈ acts → OneDisposition id acts (Copilot.observeRun parse captured budget)) ↔
        ∀ id name, .requested id name ∈ acts → SettledOnce id acts := by
  refine ⟨?_, ?_⟩
  · intro captured
    exact forall₃_congr fun id name requested => Claude.disposition_iff parse captured budget requested
  · intro captured
    exact forall₃_congr fun id name requested => Copilot.disposition_iff parse captured budget requested

/-- A call that came back with an error result and is listed as denied at the end. -/
def deniedTranscript : List (String × Value) :=
  [("\x7b\"type\":\"assistant\",\"message\":\x7b\"content\":[\x7b\"type\":\"tool_use\",\"id\":\"t1\",\"name\":\"Bash\"\x7d]\x7d\x7d",
      .object [("type", .text "assistant"), ("message", .object [("content", .array [.object
        [("type", .text "tool_use"), ("id", .text "t1"), ("name", .text "Bash")]])])]),
    ("\x7b\"type\":\"user\",\"message\":\x7b\"content\":[\x7b\"type\":\"tool_result\",\"tool_use_id\":\"t1\"\x7d]\x7d\x7d",
      .object [("type", .text "user"), ("message", .object [("content", .array [.object
        [("type", .text "tool_result"), ("tool_use_id", .text "t1")]])])]),
    ("\x7b\"type\":\"result\",\"permission_denials\":[\x7b\"tool_name\":\"Bash\",\"tool_use_id\":\"t1\"\x7d]\x7d",
      .object [("type", .text "result"), ("permission_denials", .array [.object
        [("tool_name", .text "Bash"), ("tool_use_id", .text "t1")]])])]

/-- One completed call, as each surface tells of it. -/
def completedTranscript : List (String × Value) :=
  [("\x7b\"type\":\"assistant.message\",\"toolRequests\":[\x7b\"toolCallId\":\"c1\",\"name\":\"bash\"\x7d]\x7d",
      .object [("type", .text "assistant.message"), ("toolRequests", .array [.object
        [("toolCallId", .text "c1"), ("name", .text "bash")]])]),
    ("\x7b\"type\":\"tool.execution_complete\",\"toolCallId\":\"c1\"\x7d",
      .object [("type", .text "tool.execution_complete"), ("toolCallId", .text "c1")])]

/-- The text of a transcript, and what each of its lines parses to. -/
def textOf (transcript : List (String × Value)) : String := String.intercalate "\n" (transcript.map Prod.fst)

def parseOf (transcript : List (String × Value)) (line : String) : Option Value := transcript.lookup line

theorem toList_spelt {text : String} {letters : List Char} (spelt : text = String.ofList letters) :
    text.toList = letters := by
  rw [spelt, String.toList_ofList]

private theorem spelt_apart {text other : String} {letters others : List Char} (spelt : text = String.ofList letters)
    (spelled : other = String.ofList others) (apart : letters ≠ others) : text ≠ other := by
  rintro rfl
  exact apart ((toList_spelt spelt).symm.trans (toList_spelt spelled))

/-- One line of text that is not blank. -/
def Plain (line : String) : Prop := '\n' ∉ line.toList ∧ isBlank line = false

theorem plain_spelt {line : String} {letters : List Char} (spelt : line = String.ofList letters)
    (single : '\n' ∉ letters) (shown : letters.all isWhiteSpace = false) : Plain line := by
  unfold Plain isBlank
  rw [toList_spelt spelt]
  exact ⟨single, shown⟩

private theorem lookup_own {transcript : List (String × Value)}
    (apart : transcript.Pairwise fun line later => later.1 ≠ line.1) :
    ∀ line ∈ transcript, transcript.lookup line.1 = some line.2 := by
  induction apart with
  | nil => exact fun _ member => absurd member List.not_mem_nil
  | cons others _ ih =>
    intro line member
    rcases List.mem_cons.mp member with rfl | inside
    · exact List.lookup_cons_self
    · rw [List.lookup_cons, beq_false_of_ne (others line inside)]
      exact ih line inside

/-- The frames of a written transcript are those written. -/
private theorem frames_written {transcript : List (String × Value)} (filled : transcript ≠ [])
    (plain : ∀ line ∈ transcript, Plain line.1)
    (apart : transcript.Pairwise fun line later => later.1 ≠ line.1) :
    frames (parseOf transcript) (textOf transcript) = transcript.filterMap fun line => line.2.record? := by
  have single : ∀ letters ∈ (transcript.map Prod.fst).map String.toList, '\n' ∉ letters := by
    intro letters member
    obtain ⟨text, inside, rfl⟩ := List.mem_map.mp member
    obtain ⟨line, listed, rfl⟩ := List.mem_map.mp inside
    exact (plain line listed).1
  have read : lines (textOf transcript) = transcript.map Prod.fst := by
    unfold lines textOf
    rw [String.toList_intercalate, toList_spelt (show "\n" = String.ofList ['\n'] from rfl),
      List.splitOn_intercalate _ single (by simpa using filled), List.map_map]
    exact (List.map_congr_left fun _ _ => String.ofList_toList).trans (List.map_id _)
  unfold frames
  rw [read, List.filterMap_map]
  apply List.filterMap_congr
  intro line member
  have shown := (plain line member).2
  simp [frameOf, parseOf, shown, lookup_own apart line member]

private theorem denied_frames :
    frames (parseOf deniedTranscript) (textOf deniedTranscript) = deniedTranscript.filterMap (·.2.record?) := by
  apply frames_written (List.cons_ne_nil _ _)
  · intro line member
    simp only [List.mem_cons, List.not_mem_nil, or_false] at member
    rcases member with rfl | rfl | rfl <;> exact plain_spelt rfl (by decide) (by decide)
  · refine .cons ?_ (.cons ?_ (List.pairwise_singleton _ _))
    all_goals
      intro line member
      simp only [List.mem_cons, List.not_mem_nil, or_false] at member
    · rcases member with rfl | rfl <;> exact spelt_apart rfl rfl (by decide)
    · subst member
      exact spelt_apart rfl rfl (by decide)

private theorem completed_frames :
    frames (parseOf completedTranscript) (textOf completedTranscript) = completedTranscript.filterMap (·.2.record?) := by
  apply frames_written (List.cons_ne_nil _ _)
  · intro line member
    simp only [List.mem_cons, List.not_mem_nil, or_false] at member
    rcases member with rfl | rfl <;> exact plain_spelt rfl (by decide) (by decide)
  · refine .cons ?_ (List.pairwise_singleton _ _)
    intro line member
    rw [List.mem_singleton.mp member]
    exact spelt_apart rfl rfl (by decide)

def deniedRun : Claude.CapturedRun := ⟨textOf deniedTranscript, some 0, none⟩

def mirroredRun : Copilot.CapturedRun := ⟨textOf completedTranscript, some (textOf completedTranscript), some 0, none⟩

private theorem denied_acts :
    Claude.callActs (parseOf deniedTranscript) deniedRun =
      [.requested "t1" "Bash", .completed "t1" false, .refused (some "t1") (some "Bash")] := by
  unfold Claude.callActs deniedRun
  rw [denied_frames]
  rfl

private theorem mirrored_acts :
    Copilot.callActs (parseOf completedTranscript) mirroredRun =
      [.requested "c1" "bash", .completed "c1" false, .requested "c1" "bash", .completed "c1" false] := by
  unfold Copilot.callActs Copilot.bothSurfaces mirroredRun
  rw [Option.map_some, Option.getD_some, completed_frames]
  rfl

/-- A denied call is recorded permitted and denied, and a call that both surfaces tell of
is recorded twice. -/
theorem one_call_two_dispositions :
    ¬ OneDisposition "t1" (Claude.callActs (parseOf deniedTranscript) deniedRun)
        (Claude.observeRun (parseOf deniedTranscript) deniedRun (.decimal 65536 0)) ∧
    ¬ OneDisposition "c1" (Copilot.callActs (parseOf completedTranscript) mirroredRun)
        (Copilot.observeRun (parseOf completedTranscript) mirroredRun (.decimal 65536 0)) := by
  refine ⟨?_, ?_⟩
  · rw [Claude.disposition_iff _ _ _ (denied_acts ▸ List.mem_cons_self), denied_acts, ← answers_settled]
    rintro ⟨once, _⟩
    exact absurd once (by decide)
  · rw [Copilot.disposition_iff _ _ _ (mirrored_acts ▸ List.mem_cons_self), mirrored_acts, ← answers_settled]
    rintro ⟨once, _⟩
    exact absurd once (by decide)

end SecureHome.Adapters.Coding
