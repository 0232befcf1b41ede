import SecureHome.Adapters.Coding.Value
import SecureHome.Ports.Calls

/-! The collector of an observation and the map of calls that wait for their
disposition, which both adapters have in the same words. -/

namespace SecureHome.Adapters.Coding
open Contracts Core Ports

/-- An item with the request whose frame it was recorded for. The source keeps the
item alone. -/
structure Attributed (Item : Type) where
  request : Option String
  item : Item
  deriving DecidableEq, Repr

structure NormalizedProviderEvent where
  name : String
  time : String
  data : List (String × String)
  deriving DecidableEq, Repr

structure UsageMeasure where
  unit : String
  amount : Numeral
  deriving DecidableEq, Repr

/-- Every claim either adapter makes is of the kind `text`. -/
structure BudgetedCollector where
  budget : Numeral
  calls : List (Attributed AdapterCall) := []
  claims : List String := []
  events : List (Attributed NormalizedProviderEvent) := []
  usage : List UsageMeasure := []
  spent : Nat := 0
  truncated : Bool := false
  deriving DecidableEq, Repr

namespace BudgetedCollector

/-- Spend bytes on what is then recorded. The one event that goes past the budget is
the event of its end. -/
def charge (out : BudgetedCollector) (bytes : Nat) (record : BudgetedCollector → BudgetedCollector) :
    BudgetedCollector :=
  if out.truncated then out
  else if out.budget.atLeast (out.spent + bytes) then record { out with spent := out.spent + bytes }
  else
    { out with
      truncated := true
      events := out.events ++ [⟨none, "transcript.truncated", "", [("budget_bytes", out.budget.text)]⟩] }

def claim (out : BudgetedCollector) (content : String) : BudgetedCollector :=
  out.charge content.utf8ByteSize fun out => { out with claims := out.claims ++ [content] }

def eventSize (event : NormalizedProviderEvent) : Nat :=
  event.data.foldl (fun size entry => size + entry.1.utf8ByteSize + entry.2.utf8ByteSize) event.name.utf8ByteSize

def event (out : BudgetedCollector) (name time : String) (data : List (String × String))
    (request : Option String := none) : BudgetedCollector :=
  out.charge (eventSize ⟨name, time, data⟩) fun out =>
    { out with events := out.events ++ [⟨request, name, time, data⟩] }

/-- A call is recorded whatever the budget. -/
def call (out : BudgetedCollector) (tool : String) (disposition : CallDisposition) (request : Option String) :
    BudgetedCollector :=
  { out with calls := out.calls ++ [⟨request, tool, disposition⟩] }

def measure (out : BudgetedCollector) (unit : String) (amount : Numeral) : BudgetedCollector :=
  if amount.isFinite then { out with usage := out.usage ++ [⟨unit, amount⟩] } else out

@[simp] theorem charge_calls {record : BudgetedCollector → BudgetedCollector}
    (keeps : ∀ out, (record out).calls = out.calls) (out : BudgetedCollector) (bytes : Nat) :
    (out.charge bytes record).calls = out.calls := by
  unfold charge
  split_ifs
  · rfl
  · exact keeps _
  · rfl

@[simp] theorem event_calls (out : BudgetedCollector) (name time : String) (data : List (String × String))
    (request : Option String) : (out.event name time data request).calls = out.calls := by
  unfold event
  apply charge_calls
  intro _
  rfl

@[simp] theorem claim_calls (out : BudgetedCollector) (content : String) : (out.claim content).calls = out.calls := by
  unfold claim
  apply charge_calls
  intro _
  rfl

@[simp] theorem measure_calls (out : BudgetedCollector) (unit : String) (amount : Numeral) :
    (out.measure unit amount).calls = out.calls := by
  unfold measure
  split <;> rfl

/-- The events recorded for some request. -/
def marked (out : BudgetedCollector) : List (Attributed NormalizedProviderEvent) :=
  out.events.filter (·.request.isSome)

theorem charge_marked {record : BudgetedCollector → BudgetedCollector}
    (keeps : ∀ out, (record out).marked = out.marked) (out : BudgetedCollector) (bytes : Nat) :
    (out.charge bytes record).marked = out.marked := by
  unfold charge
  split_ifs
  · rfl
  · exact keeps _
  · simp [marked]

@[simp] theorem event_marked (out : BudgetedCollector) (name time : String) (data : List (String × String)) :
    (out.event name time data).marked = out.marked :=
  charge_marked (fun out => by simp [marked]) out _

@[simp] theorem claim_marked (out : BudgetedCollector) (content : String) : (out.claim content).marked = out.marked := by
  unfold claim
  apply charge_marked
  intro _
  rfl

@[simp] theorem call_calls (out : BudgetedCollector) (tool : String) (disposition : CallDisposition)
    (request : Option String) :
    (out.call tool disposition request).calls = out.calls ++ [⟨request, tool, disposition⟩] := rfl

@[simp] theorem call_marked (out : BudgetedCollector) (tool : String) (disposition : CallDisposition)
    (request : Option String) : (out.call tool disposition request).marked = out.marked := rfl

@[simp] theorem measure_marked (out : BudgetedCollector) (unit : String) (amount : Numeral) :
    (out.measure unit amount).marked = out.marked := by
  unfold measure
  split <;> rfl

/-- An event of a budget that lasts was recorded. -/
theorem event_kept {out : BudgetedCollector} {name time : String} {data : List (String × String)}
    {request : Option String} (lasts : (out.event name time data request).truncated = false) :
    out.truncated = false ∧
      (out.event name time data request).events = out.events ++ [⟨request, name, time, data⟩] := by
  revert lasts
  unfold event charge
  split_ifs with truncated
  · exact fun lasts => absurd (truncated.symm.trans lasts) (by decide)
  · exact fun _ => ⟨Bool.eq_false_iff.mpr truncated, rfl⟩
  · exact fun lasts => nomatch lasts

end BudgetedCollector

def dispositionOf (denied : Bool) : CallDisposition := if denied then .denied else .permitted

/-- The tool of each call without a disposition, by the id of its request. -/
abbrev PendingCalls := List (String × String)

namespace PendingCalls

def set (pending : PendingCalls) (id tool : String) : PendingCalls :=
  if (pending.lookup id).isSome then pending.map fun entry => if entry.1 = id then (id, tool) else entry
  else pending ++ [(id, tool)]

def delete (pending : PendingCalls) (id : String) : PendingCalls := pending.filter (·.1 ≠ id)

def ids (pending : PendingCalls) : List String := pending.map Prod.fst

theorem lookup_isSome {pending : PendingCalls} {id : String} :
    (pending.lookup id).isSome = true ↔ id ∈ pending.ids := by
  induction pending with
  | nil => simp [ids]
  | cons entry rest ih =>
    obtain ⟨key, tool⟩ := entry
    by_cases same : id = key
    · simp [ids, same]
    · have other : (id == key) = false := beq_false_of_ne same
      rw [List.lookup_cons, other]
      simp [ids, same, ih]

theorem ids_set (pending : PendingCalls) (id tool : String) :
    (pending.set id tool).ids = if id ∈ pending.ids then pending.ids else pending.ids ++ [id] := by
  unfold set
  by_cases held : id ∈ pending.ids
  · rw [if_pos (lookup_isSome.mpr held), if_pos held]
    unfold ids
    rw [List.map_map]
    apply List.map_congr_left
    intro entry _
    by_cases same : entry.1 = id <;> simp [same]
  · rw [if_neg (mt lookup_isSome.mp held), if_neg held]
    simp [ids]

theorem ids_delete (pending : PendingCalls) (id : String) : (pending.delete id).ids = pending.ids.filter (· ≠ id) := by
  simp [delete, ids, List.filter_map, Function.comp_def]

theorem asked_set (pending : PendingCalls) (other tool id : String) :
    ((pending.set other tool).lookup id).isSome = ((pending.lookup id).isSome || decide (other = id)) := by
  rw [Bool.eq_iff_iff, Bool.or_eq_true, decide_eq_true_iff, lookup_isSome, lookup_isSome, ids_set]
  split
  next held =>
    constructor
    · exact .inl
    · rintro (own | rfl)
      · exact own
      · exact held
  next =>
    rw [List.mem_append, List.mem_singleton]
    exact or_congr_right eq_comm

theorem asked_delete (pending : PendingCalls) (other id : String) :
    ((pending.delete other).lookup id).isSome = ((pending.lookup id).isSome && decide (other ≠ id)) := by
  rw [Bool.eq_iff_iff, Bool.and_eq_true, decide_eq_true_iff, lookup_isSome, lookup_isSome, ids_delete, List.mem_filter,
    decide_eq_true_iff]
  exact and_congr_right fun _ => ne_comm

theorem set_nodup {pending : PendingCalls} (single : pending.ids.Nodup) (id tool : String) :
    (pending.set id tool).ids.Nodup := by
  rw [ids_set]
  split
  · exact single
  next fresh =>
    apply List.nodup_append.mpr
    refine ⟨single, List.pairwise_singleton _ id, ?_⟩
    intro held member other same
    rw [List.mem_singleton.mp same]
    rintro rfl
    exact fresh member

theorem delete_nodup {pending : PendingCalls} (single : pending.ids.Nodup) (id : String) :
    (pending.delete id).ids.Nodup := by
  rw [ids_delete]
  exact single.filter _

end PendingCalls

structure TerminalScratch where
  reportedOutcome : Option String := none
  transcriptTerminal : Option String := none
  deriving DecidableEq, Repr

/-- What reading a transcript has come to. -/
structure Reading where
  out : BudgetedCollector
  pendingCalls : PendingCalls := []
  terminal : TerminalScratch := {}
  deriving DecidableEq, Repr

structure AdapterObservation where
  calls : List (Attributed AdapterCall)
  claims : List String
  events : List (Attributed NormalizedProviderEvent)
  terminal : TerminalObservations
  usage : List UsageMeasure
  /-- Whether the budget was exhausted, which the source tells by an event. -/
  truncated : Bool
  deriving DecidableEq, Repr

/-- The calls that no disposition ever arrived for become events. -/
def Reading.unresolved (reading : Reading) : BudgetedCollector :=
  reading.pendingCalls.foldl
    (fun out entry => out.event "call.unresolved" "" [("tool", entry.2)] (some entry.1)) reading.out

/-- The observation a finished reading and the process's end make. -/
def Reading.observe (reading : Reading) (exitCode : Option Int) (signalled : Option String) : AdapterObservation :=
  let out := reading.unresolved
  { calls := out.calls
    claims := out.claims
    events := out.events
    terminal := ⟨exitCode, reading.terminal.reportedOutcome, reading.terminal.transcriptTerminal, signalled⟩
    usage := out.usage
    truncated := out.truncated }

theorem Reading.observe_terminal (reading : Reading) (exitCode : Option Int) (signalled : Option String) :
    (reading.observe exitCode signalled).terminal =
      ⟨exitCode, reading.terminal.reportedOutcome, reading.terminal.transcriptTerminal, signalled⟩ := rfl

end SecureHome.Adapters.Coding
