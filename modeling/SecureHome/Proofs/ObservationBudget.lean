import SecureHome.Proofs.CallRecords

/-! The budget of an observation. A transcript asks for texts to be recorded, and what is
recorded are the first of them. -/

namespace SecureHome.Adapters.Coding
open Contracts Lib Ports

/-- A text that a transcript asks to have recorded. -/
inductive Recording where
  | claim (content : String)
  | event (told : Attributed NormalizedProviderEvent)
  deriving DecidableEq, Repr

namespace Recording

/-- The bytes the budget is charged. -/
def charged : Recording → Nat
  | claim content => content.utf8ByteSize
  | event told => BudgetedCollector.eventSize told.item

/-- The bytes that are recorded, those of the time of an event among them. -/
def carried : Recording → Nat
  | claim content => content.utf8ByteSize
  | event told => BudgetedCollector.eventSize told.item + told.item.time.utf8ByteSize

def content? : Recording → Option String
  | claim content => some content
  | event _ => none

def event? : Recording → Option (Attributed NormalizedProviderEvent)
  | claim _ => none
  | event told => some told

def charges (recordings : List Recording) : Nat := (recordings.map charged).sum

def carries (recordings : List Recording) : Nat := (recordings.map carried).sum

def claims (recordings : List Recording) : List String := recordings.filterMap content?

def events (recordings : List Recording) : List (Attributed NormalizedProviderEvent) := recordings.filterMap event?

/-- The leading recordings whose charges fit beside what is spent. -/
def fitting (budget : Numeral) : Nat → List Recording → List Recording
  | _, [] => []
  | spent, recording :: rest =>
    if budget.atLeast (spent + recording.charged) then recording :: fitting budget (spent + recording.charged) rest else []

end Recording

/-- Wherever the names, the data and the claims fit the budget, the times fit it as well. -/
def TimesFit (budget : Numeral) (recordings : List Recording) : Prop :=
  ∀ told, told <+: recordings → budget.atLeast (Recording.charges told) = true → budget.atLeast (Recording.carries told) = true

section Observations

def unlimited : Numeral := .infinite false

def isMarker (event : Attributed NormalizedProviderEvent) : Bool := event.item.name = "transcript.truncated"

/-- The events of an observation but that of the budget's end. -/
def others (observation : AdapterObservation) : List (Attributed NormalizedProviderEvent) :=
  observation.events.filter fun event => !isMarker event

def observedBytes (observation : AdapterObservation) : Nat :=
  (observation.claims.map String.utf8ByteSize).sum +
    ((others observation).map fun event => BudgetedCollector.eventSize event.item + event.item.time.utf8ByteSize).sum

/-- The budget bounds all that is recorded, its end is told once where something is dropped, what is recorded leads what would be
without a bound, and nothing else depends on it. -/
structure WithinBudget (budget : Numeral) (observe : Numeral → AdapterObservation) : Prop where
  bytes : budget.atLeast (observedBytes (observe budget)) = true
  once : ((observe budget).events.filter isMarker).length ≤ 1
  told : (∃ event ∈ (observe budget).events, isMarker event = true) ↔
    (observe budget).claims ≠ (observe unlimited).claims ∨ others (observe budget) ≠ others (observe unlimited)
  claims : (observe budget).claims <+: (observe unlimited).claims
  events : others (observe budget) <+: others (observe unlimited)
  calls : ∀ other, (observe budget).calls = (observe other).calls
  usage : ∀ other, (observe budget).usage = (observe other).usage
  terminal : ∀ other, (observe budget).terminal = (observe other).terminal

end Observations

section Fitting

open Recording

variable {budget : Numeral} {recordings told : List Recording} {spent : Nat}

theorem Numeral.atLeast_mono {least most : Int} (enough : budget.atLeast most = true) (below : least ≤ most) : budget.atLeast least = true := by
  cases budget with
  | infinite negative => exact enough
  | decimal digits exponent =>
    simp only [Numeral.atLeast, decide_eq_true_eq] at enough ⊢
    have power : (0 : Int) ≤ 10 ^ (-exponent).toNat := Int.pow_nonneg (by decide)
    exact (Int.mul_le_mul_of_nonneg_right below power).trans enough

theorem fitting_leads : fitting budget spent recordings <+: recordings := by
  induction recordings generalizing spent with
  | nil => exact List.prefix_rfl
  | cons recording rest ih =>
    rw [fitting]
    split
    · exact List.prefix_cons_inj recording |>.mpr ih
    · exact List.nil_prefix

theorem fitting_unlimited : fitting unlimited spent recordings = recordings := by
  induction recordings generalizing spent with
  | nil => rfl
  | cons recording rest ih =>
    have lasts : unlimited.atLeast (spent + recording.charged) = true := rfl
    rw [fitting, if_pos lasts, ih]

theorem charges_fitting (enough : budget.atLeast spent = true) :
    budget.atLeast ((spent + charges (fitting budget spent recordings) : Nat) : Int) = true := by
  induction recordings generalizing spent with
  | nil => simpa [fitting, charges] using enough
  | cons recording rest ih =>
    rw [fitting]
    split
    next fits =>
      have later := @ih (spent + recording.charged) (by simpa using fits)
      simpa [charges, Nat.add_assoc] using later
    next => simpa [charges] using enough

/-- What fits is among the first that fit. -/
theorem prefix_fitting (leads : told <+: recordings) (fits : budget.atLeast ((spent + charges told : Nat) : Int) = true) :
    told <+: fitting budget spent recordings := by
  induction recordings generalizing spent told with
  | nil => exact leads
  | cons recording rest ih =>
    cases told with
    | nil => exact List.nil_prefix
    | cons first others =>
      obtain ⟨rfl, later⟩ := List.cons_prefix_cons.mp leads
      have here : budget.atLeast ((spent : Int) + first.charged) = true := by
        apply Numeral.atLeast_mono fits
        simp only [charges, List.map_cons, List.sum_cons]
        omega
      rw [fitting, if_pos here]
      apply List.cons_prefix_cons.mpr
      refine ⟨rfl, ih later ?_⟩
      simpa [charges, Nat.add_assoc] using fits

theorem carries_within (leads : told <+: recordings) : carries told ≤ carries recordings := by
  obtain ⟨later, rfl⟩ := leads
  simp [carries]

/-- The times fit exactly if they do beside all that is recorded. -/
theorem timesFit_iff (nonneg : budget.atLeast 0 = true) :
    TimesFit budget recordings ↔ budget.atLeast (carries (fitting budget 0 recordings)) = true := by
  constructor
  · intro fit
    apply fit _ fitting_leads
    simpa using @charges_fitting budget recordings 0 nonneg
  · intro fits told leads charged
    have among : told <+: fitting budget 0 recordings := prefix_fitting leads (by simpa using charged)
    exact Numeral.atLeast_mono fits (Int.ofNat_le.mpr (carries_within among))

theorem carries_parts : carries recordings = ((claims recordings).map String.utf8ByteSize).sum +
    ((events recordings).map fun event => BudgetedCollector.eventSize event.item + event.item.time.utf8ByteSize).sum := by
  induction recordings with
  | nil => rfl
  | cons recording rest ih =>
    cases recording with
    | claim content =>
      simp only [carries, claims, events, List.map_cons, List.sum_cons, content?, event?, List.filterMap_cons, carried] at ih ⊢
      omega
    | event told =>
      simp only [carries, claims, events, List.map_cons, List.sum_cons, content?, event?, List.filterMap_cons, carried] at ih ⊢
      omega

theorem length_parts : recordings.length = (claims recordings).length + (events recordings).length := by
  induction recordings with
  | nil => rfl
  | cons recording rest ih =>
    cases recording with
    | claim content =>
      simp only [claims, events, List.filterMap_cons, content?, event?, List.length_cons] at ih ⊢
      omega
    | event told =>
      simp only [claims, events, List.filterMap_cons, content?, event?, List.length_cons] at ih ⊢
      omega

end Fitting

section Replay

open Recording

variable {recordings : List Recording}

def BudgetedCollector.enter (out : BudgetedCollector) : Recording → BudgetedCollector
  | .claim content => out.claim content
  | .event told => out.event told.item.name told.item.time told.item.data told.request

def marker (budget : Numeral) : Attributed NormalizedProviderEvent := ⟨none, "transcript.truncated", "", [("budget_bytes", budget.text)]⟩

def BudgetedCollector.record? (out : BudgetedCollector) (recording : Recording) : BudgetedCollector :=
  { out with claims := out.claims ++ recording.content?.toList, events := out.events ++ recording.event?.toList }

theorem enter_charge (out : BudgetedCollector) (recording : Recording) :
    out.enter recording = out.charge recording.charged (·.record? recording) := by
  cases recording with
  | claim content =>
    simp only [BudgetedCollector.enter, BudgetedCollector.claim, BudgetedCollector.record?, content?, event?, charged, Option.toList_some,
      Option.toList_none, List.append_nil]
  | event told =>
    simp only [BudgetedCollector.enter, BudgetedCollector.event, BudgetedCollector.record?, content?, event?, charged, Option.toList_some,
      Option.toList_none, List.append_nil]

theorem claims_cons {recording : Recording} : claims (recording :: recordings) = recording.content?.toList ++ claims recordings := by
  cases recording <;> rfl

theorem events_cons {recording : Recording} : events (recording :: recordings) = recording.event?.toList ++ events recordings := by
  cases recording <;> rfl

theorem enter_truncated {out : BudgetedCollector} (ended : out.truncated = true) : recordings.foldl .enter out = out := by
  induction recordings with
  | nil => rfl
  | cons recording rest ih =>
    have still : out.enter recording = out := by
      rw [enter_charge, BudgetedCollector.charge, if_pos ended]
    rw [List.foldl_cons, still, ih]

/-- What a collector holds once recordings are entered, as far as its budget goes. -/
theorem enter_fitting {out : BudgetedCollector} (lasts : out.truncated = false) :
    (recordings.foldl .enter out).claims = out.claims ++ claims (fitting out.budget out.spent recordings) ∧
      (recordings.foldl .enter out).events = out.events ++ events (fitting out.budget out.spent recordings) ++
        if fitting out.budget out.spent recordings = recordings then [] else [marker out.budget] := by
  induction recordings generalizing out with
  | nil => simp [fitting, claims, events]
  | cons recording rest ih =>
    rw [List.foldl_cons, fitting, enter_charge, BudgetedCollector.charge, if_neg (by simp [lasts])]
    by_cases fits : out.budget.atLeast (out.spent + recording.charged) = true
    · rw [if_pos fits, if_pos fits]
      have next : (({ out with spent := out.spent + recording.charged } : BudgetedCollector).record? recording).truncated = false := lasts
      obtain ⟨claimed, recorded⟩ := ih next
      rw [claimed, recorded, claims_cons, events_cons]
      by_cases whole : fitting out.budget (out.spent + recording.charged) rest = rest <;> simp [BudgetedCollector.record?, whole]
    · rw [if_neg fits, if_neg fits, enter_truncated rfl]
      simp [claims, events, marker]

end Replay

section Observed

open Recording

/-- An observation under a budget is the recordings that fit it, and the budget's end where some do not. -/
structure Observed (observe : Numeral → AdapterObservation) (recordings : List Recording) : Prop where
  claims : ∀ budget, (observe budget).claims = Recording.claims (fitting budget 0 recordings)
  events : ∀ budget, (observe budget).events = Recording.events (fitting budget 0 recordings) ++
    if fitting budget 0 recordings = recordings then [] else [marker budget]
  unmarked : ∀ told, .event told ∈ recordings → isMarker told = false
  calls : ∀ budget other, (observe budget).calls = (observe other).calls
  usage : ∀ budget other, (observe budget).usage = (observe other).usage
  terminal : ∀ budget other, (observe budget).terminal = (observe other).terminal

variable {observe : Numeral → AdapterObservation} {recordings : List Recording} (observed : Observed observe recordings) {budget : Numeral}
include observed

theorem Observed.unmarked_fitting {told : Attributed NormalizedProviderEvent} (member : told ∈ Recording.events (fitting budget 0 recordings)) :
    isMarker told = false := by
  obtain ⟨recording, kept, event⟩ := List.mem_filterMap.mp member
  cases recording with
  | claim content => cases event
  | event other =>
    cases event
    exact observed.unmarked told (fitting_leads.subset kept)

theorem Observed.others_eq : others (observe budget) = Recording.events (fitting budget 0 recordings) := by
  have kept : (Recording.events (fitting budget 0 recordings)).filter (fun event => !isMarker event) = Recording.events (fitting budget 0 recordings) :=
    List.filter_eq_self.mpr fun told member => by simp [observed.unmarked_fitting member]
  rw [others, observed.events, List.filter_append, kept]
  split <;> simp [marker, isMarker]

theorem Observed.markers : (observe budget).events.filter isMarker = if fitting budget 0 recordings = recordings then [] else [marker budget] := by
  have none_kept : (Recording.events (fitting budget 0 recordings)).filter isMarker = [] :=
    List.filter_eq_nil_iff.mpr fun told member => by simp [observed.unmarked_fitting member]
  rw [observed.events, List.filter_append, none_kept]
  split <;> simp [marker, isMarker]

theorem Observed.bytes_eq : observedBytes (observe budget) = carries (fitting budget 0 recordings) := by
  rw [observedBytes, observed.others_eq, observed.claims, carries_parts]

/-- Nothing is dropped exactly if everything fits. -/
theorem Observed.whole_iff : fitting budget 0 recordings = recordings ↔
    (observe budget).claims = (observe unlimited).claims ∧ others (observe budget) = others (observe unlimited) := by
  rw [observed.others_eq, observed.others_eq, observed.claims, observed.claims, fitting_unlimited]
  constructor
  · intro whole
    rw [whole]
    exact ⟨rfl, rfl⟩
  · rintro ⟨claimed, recorded⟩
    apply fitting_leads.eq_of_length
    rw [length_parts, claimed, recorded, ← length_parts]

/-- An observation is within its budget exactly if the times fit it. -/
theorem Observed.within_iff (nonneg : budget.atLeast 0 = true) : WithinBudget budget observe ↔ TimesFit budget recordings := by
  rw [timesFit_iff nonneg]
  constructor
  · intro within
    rw [← observed.bytes_eq]
    exact within.bytes
  · intro fits
    have whole := @Observed.whole_iff _ _ observed budget
    constructor
    · rw [observed.bytes_eq]
      exact fits
    · rw [observed.markers]
      split <;> simp
    · have marked : (∃ event ∈ (observe budget).events, isMarker event = true) ↔ fitting budget 0 recordings ≠ recordings := by
        have some : (∃ event ∈ (observe budget).events, isMarker event = true) ↔ (observe budget).events.filter isMarker ≠ [] := by
          simp [List.filter_eq_nil_iff]
        rw [some, observed.markers]
        split
        next all => simp [all]
        next dropped => simp [dropped]
      rw [marked, ne_eq, whole, not_and_or]
    · rw [observed.claims, observed.claims, fitting_unlimited]
      exact fitting_leads.filterMap content?
    · rw [observed.others_eq, observed.others_eq, fitting_unlimited]
      exact fitting_leads.filterMap event?
    · exact observed.calls budget
    · exact observed.usage budget
    · exact observed.terminal budget

end Observed

section Reading

/-- What of a collector the budget is about. -/
def BudgetedCollector.texts (out : BudgetedCollector) : BudgetedCollector := { out with calls := [], usage := [] }

/-- What of a reading it is not about. -/
def Reading.untold (reading : Reading) : (List (Attributed AdapterCall) × List UsageMeasure) × PendingCalls × TerminalScratch :=
  ((reading.out.calls, reading.out.usage), reading.pendingCalls, reading.terminal)

@[simp] theorem charge_usage {out : BudgetedCollector} {bytes : Nat} {record : BudgetedCollector → BudgetedCollector}
    (keeps : ∀ out, (record out).usage = out.usage) : (out.charge bytes record).usage = out.usage := by
  unfold BudgetedCollector.charge
  split_ifs
  · rfl
  · exact keeps _
  · rfl

@[simp] theorem claim_usage {out : BudgetedCollector} {content : String} : (out.claim content).usage = out.usage := by
  unfold BudgetedCollector.claim
  apply charge_usage
  intro _
  rfl

@[simp] theorem event_usage {out : BudgetedCollector} {name time : String} {data : List (String × String)} {request : Option String} :
    (out.event name time data request).usage = out.usage := by
  unfold BudgetedCollector.event
  apply charge_usage
  intro _
  rfl

theorem charge_texts {out : BudgetedCollector} {bytes : Nat} {record : BudgetedCollector → BudgetedCollector}
    (keeps : ∀ out, (record out).texts = record out.texts) : (out.charge bytes record).texts = out.texts.charge bytes record := by
  have ended : out.texts.truncated = out.truncated := rfl
  have left : out.texts.budget.atLeast (out.texts.spent + bytes) = out.budget.atLeast (out.spent + bytes) := rfl
  unfold BudgetedCollector.charge
  rw [ended, left]
  split_ifs
  · rfl
  · exact keeps _
  · rfl

@[simp] theorem claim_texts {out : BudgetedCollector} {content : String} : (out.claim content).texts = out.texts.claim content :=
  charge_texts fun _ => rfl

@[simp] theorem event_texts {out : BudgetedCollector} {name time : String} {data : List (String × String)} {request : Option String} :
    (out.event name time data request).texts = out.texts.event name time data request :=
  charge_texts fun _ => rfl

@[simp] theorem call_texts {out : BudgetedCollector} {tool : String} {disposition : CallDisposition} {request : Option String} :
    (out.call tool disposition request).texts = out.texts := rfl

@[simp] theorem measure_texts {out : BudgetedCollector} {unit : String} {amount : Numeral} : (out.measure unit amount).texts = out.texts := by
  unfold BudgetedCollector.measure
  split <;> rfl

theorem enter_texts {recordings : List Recording} {out : BudgetedCollector} :
    (recordings.foldl .enter out).texts = recordings.foldl .enter out.texts := by
  induction recordings generalizing out with
  | nil => rfl
  | cons recording rest ih =>
    rw [List.foldl_cons, List.foldl_cons, ih]
    cases recording <;> simp [BudgetedCollector.enter]

/-- A step of a reading asks for texts by the calls that wait, and what else it does is the same under every budget. -/
def Asks (step : Reading → Reading) (asked : PendingCalls → List Recording) : Prop :=
  ∀ one other, one.untold = other.untold →
    (step one).out.texts = (asked one.pendingCalls).foldl .enter one.out.texts ∧ (step one).untold = (step other).untold

theorem untold_iff {one other : Reading} : one.untold = other.untold ↔
    one.out.calls = other.out.calls ∧ one.out.usage = other.out.usage ∧ one.pendingCalls = other.pendingCalls ∧ one.terminal = other.terminal := by
  simp [Reading.untold, and_assoc]

variable {step next : Reading → Reading} {first second : List Recording}

theorem Asks.texts {asked : PendingCalls → List Recording} (asks : Asks step asked) (reading : Reading) :
    (step reading).out.texts = (asked reading.pendingCalls).foldl .enter reading.out.texts := (asks reading reading rfl).1

theorem Asks.of_collector {record : BudgetedCollector → BudgetedCollector} (texts : ∀ out, (record out).texts = first.foldl .enter out.texts)
    (kept : ∀ out, (record out).calls = out.calls ∧ (record out).usage = out.usage) :
    Asks (fun reading => { reading with out := record reading.out }) fun _ => first := by
  intro one other same
  refine ⟨texts one.out, ?_⟩
  rw [untold_iff] at same ⊢
  simpa only [kept] using same

theorem Asks.claim (content : String) : Asks (fun reading => { reading with out := reading.out.claim content }) fun _ => [.claim content] :=
  .of_collector (fun _ => claim_texts) fun _ => ⟨BudgetedCollector.claim_calls _ _, claim_usage⟩

theorem Asks.event (name time : String) (data : List (String × String)) (request : Option String := none) :
    Asks (fun reading => { reading with out := reading.out.event name time data request }) fun _ => [.event ⟨request, name, time, data⟩] :=
  .of_collector (fun _ => event_texts) fun _ => ⟨BudgetedCollector.event_calls _ _ _ _ _, event_usage⟩

theorem Asks.idle : Asks (fun reading => reading) fun _ => [] := fun _ _ same => ⟨rfl, same⟩

theorem Asks.call (tool : String) (disposition : CallDisposition) (request : Option String) :
    Asks (fun reading => { reading with out := reading.out.call tool disposition request }) fun _ => [] := by
  intro one other same
  refine ⟨rfl, ?_⟩
  rw [untold_iff] at same ⊢
  simpa [BudgetedCollector.call] using same

theorem Asks.ends (terminal : TerminalScratch) : Asks (fun reading => { reading with terminal }) fun _ => [] := by
  intro one other same
  obtain ⟨calls, usage, pending, _⟩ := untold_iff.mp same
  exact ⟨rfl, untold_iff.mpr ⟨calls, usage, pending, rfl⟩⟩

theorem Asks.request (id tool : String) : Asks (fun reading => { reading with pendingCalls := reading.pendingCalls.set id tool }) fun _ => [] := by
  intro one other same
  obtain ⟨calls, usage, pending, terminal⟩ := untold_iff.mp same
  exact ⟨rfl, untold_iff.mpr ⟨calls, usage, congrArg (·.set id tool) pending, terminal⟩⟩

/-- A disposition that arrives for a call that waits is a call. -/
theorem Asks.completion (id : String) (disposition : CallDisposition) (otherwise : Asks step fun _ => first) :
    Asks (fun reading => match reading.pendingCalls.lookup id with
      | none => step reading
      | some tool =>
        { reading with
          pendingCalls := reading.pendingCalls.delete id
          out := reading.out.call tool disposition (some id) })
      fun pending => if (pending.lookup id).isSome then [] else first := by
  intro one other same
  obtain ⟨calls, usage, pending, terminal⟩ := untold_iff.mp same
  dsimp only
  rw [← pending]
  cases one.pendingCalls.lookup id with
  | none => exact otherwise one other same
  | some tool =>
    refine ⟨rfl, untold_iff.mpr ⟨?_, usage, rfl, terminal⟩⟩
    simp [calls]

theorem Asks.comp {step next : Reading → Reading} {first second : List Recording} (asks : Asks step fun _ => first)
    (later : Asks next fun _ => second) : Asks (fun reading => next (step reading)) fun _ => first ++ second := by
  intro one other same
  obtain ⟨texts, alike⟩ := asks one other same
  obtain ⟨texts', alike'⟩ := later (step one) (step other) alike
  exact ⟨by rw [texts', texts, List.foldl_append], alike'⟩

theorem Asks.foldl {Item : Type} {step : Reading → Item → Reading} {asked : Item → List Recording}
    (each : ∀ item, Asks (fun reading => step reading item) fun _ => asked item) (items : List Item) :
    Asks (fun reading => items.foldl step reading) fun _ => items.flatMap asked := by
  induction items with
  | nil => exact .idle
  | cons item rest ih => exact (each item).comp ih

theorem Asks.silent {Item : Type} {step : Reading → Item → Reading} (each : ∀ item, Asks (fun reading => step reading item) fun _ => [])
    (items : List Item) : Asks (fun reading => items.foldl step reading) fun _ => [] := by
  have asks := Asks.foldl each items
  rwa [show (items.flatMap fun _ => ([] : List Recording)) = [] by simp] at asks

/-- The calls that wait once acts are over. -/
def PendingCalls.after (pending : PendingCalls) (acts : List CallAct) : PendingCalls := (acts.foldl Joined.act ⟨pending, [], []⟩).pending

theorem pending_after (acts : List CallAct) (joined : Joined) : (acts.foldl Joined.act joined).pending = joined.pending.after acts := by
  have alone (acts : List CallAct) (one other : Joined) (same : one.pending = other.pending) :
      (acts.foldl Joined.act one).pending = (acts.foldl Joined.act other).pending := by
    induction acts generalizing one other with
    | nil => exact same
    | cons act rest ih =>
      apply ih
      cases act with
      | requested id name => exact congrArg (·.set id name) same
      | completed id denied =>
        unfold Joined.act
        dsimp only
        rw [← same]
        cases one.pending.lookup id with
        | none => exact same
        | some tool => rfl
      | refused id tool => cases tool <;> exact same
  exact alone acts _ _ rfl

theorem after_of_joined {reading later : Reading} {acts : List CallAct} (joined : later.joined = acts.foldl Joined.act reading.joined) :
    later.pendingCalls = reading.pendingCalls.after acts :=
  (congrArg Joined.pending joined).trans (pending_after acts reading.joined)

/-- What a second step asks for follows the calls the first leaves waiting. -/
theorem Asks.follow {step next : Reading → Reading} {asked later : PendingCalls → List Recording} {acts : List CallAct}
    (asks : Asks step asked) (follows : Asks next later) (leaves : ∀ reading, (step reading).pendingCalls = reading.pendingCalls.after acts) :
    Asks (fun reading => next (step reading)) fun pending => asked pending ++ later (pending.after acts) := by
  intro one other same
  obtain ⟨texts, alike⟩ := asks one other same
  obtain ⟨texts', alike'⟩ := follows (step one) (step other) alike
  exact ⟨by rw [texts', texts, leaves, List.foldl_append], alike'⟩

/-- The calls left waiting are told of in the end. -/
def unresolvedTexts (pending : PendingCalls) : List Recording :=
  pending.map fun entry => .event ⟨some entry.1, "call.unresolved", "", [("tool", entry.2)]⟩

theorem unresolved_asks : Asks (fun reading => { reading with out := reading.unresolved }) unresolvedTexts := by
  intro one other same
  obtain ⟨calls, usage, pending, terminal⟩ := untold_iff.mp same
  have told (pending : PendingCalls) (out : BudgetedCollector) :
      (pending.foldl (fun out entry => out.event "call.unresolved" "" [("tool", entry.2)] (some entry.1)) out).texts =
        (unresolvedTexts pending).foldl .enter out.texts := by
    induction pending generalizing out with
    | nil => rfl
    | cons entry rest ih =>
      rw [List.foldl_cons, ih, event_texts]
      rfl
  have kept (reading : Reading) : reading.unresolved.calls = reading.out.calls ∧ reading.unresolved.usage = reading.out.usage :=
    ⟨foldl_keeps BudgetedCollector.calls (fun _ _ => BudgetedCollector.event_calls ..) _ _,
      foldl_keeps BudgetedCollector.usage (fun _ _ => event_usage) _ _⟩
  refine ⟨told _ _, untold_iff.mpr ⟨?_, ?_, pending, terminal⟩⟩
  · rw [(kept one).1, (kept other).1, calls]
  · rw [(kept one).2, (kept other).2, usage]

def Unmarked (recordings : List Recording) : Prop := ∀ told, .event told ∈ recordings → isMarker told = false

theorem Unmarked.append {recordings later : List Recording} (unmarked : Unmarked recordings) (unmarked' : Unmarked later) :
    Unmarked (recordings ++ later) := by
  intro told member
  rcases List.mem_append.mp member with first | second
  · exact unmarked told first
  · exact unmarked' told second

theorem Unmarked.flatMap {Item : Type} {asked : Item → List Recording} {items : List Item} (each : ∀ item, Unmarked (asked item)) :
    Unmarked (items.flatMap asked) := by
  intro told member
  obtain ⟨item, _, among⟩ := List.mem_flatMap.mp member
  exact each item told among

theorem unresolved_unmarked (pending : PendingCalls) : Unmarked (unresolvedTexts pending) := by
  intro told member
  obtain ⟨entry, _, same⟩ := List.mem_map.mp member
  cases same
  simp [isMarker]

/-- What a finished reading and the end of the process come to. -/
def Reading.observation (reading : Reading) (exitCode : Option Int) (signalled : Option String) : AdapterObservation :=
  { calls := reading.out.calls
    claims := reading.out.claims
    events := reading.out.events
    terminal := ⟨exitCode, reading.terminal.reportedOutcome, reading.terminal.transcriptTerminal, signalled⟩
    usage := reading.out.usage
    truncated := reading.out.truncated }

/-- A run that asks for recordings is observed as those that fit. -/
theorem Asks.observed {asked : PendingCalls → List Recording} (asks : Asks step asked) (unmarked : Unmarked (asked []))
    (exitCode : Option Int) (signalled : Option String) :
    Observed (fun budget => (step { out := { budget } }).observation exitCode signalled) (asked []) := by
  have entered (budget : Numeral) :
      (step { out := { budget } }).out.texts = (asked []).foldl .enter { budget } := asks.texts { out := { budget } }
  have alike (budget other : Numeral) : (step { out := { budget } }).untold = (step { out := { budget := other } }).untold :=
    (asks { out := { budget } } { out := { budget := other } } rfl).2
  constructor
  · intro budget
    have claims := (@enter_fitting (asked []) { budget } rfl).1
    rw [← entered] at claims
    exact claims
  · intro budget
    have events := (@enter_fitting (asked []) { budget } rfl).2
    rw [← entered] at events
    exact events
  · exact unmarked
  · exact fun budget other => (untold_iff.mp (alike budget other)).1
  · exact fun budget other => (untold_iff.mp (alike budget other)).2.1
  · intro budget other
    have terminal := (untold_iff.mp (alike budget other)).2.2.2
    simp only [Reading.observation, terminal]

/-- A collector only measures: it records no text and no call, and its measures are the same under every budget. -/
def Measures (record : BudgetedCollector → BudgetedCollector) : Prop :=
  ∀ one other : BudgetedCollector, one.usage = other.usage →
    (record one).texts = one.texts ∧ (record one).calls = one.calls ∧ (record one).usage = (record other).usage

theorem Measures.idle : Measures fun out => out := fun _ _ same => ⟨rfl, rfl, same⟩

theorem Measures.measure (unit : String) (amount : Numeral) : Measures fun out => out.measure unit amount := by
  intro one other same
  refine ⟨measure_texts, BudgetedCollector.measure_calls _ _ _, ?_⟩
  unfold BudgetedCollector.measure
  split
  · exact congrArg (· ++ [⟨unit, amount⟩]) same
  · exact same

theorem Measures.comp {record next : BudgetedCollector → BudgetedCollector} (measures : Measures record) (later : Measures next) :
    Measures fun out => next (record out) := by
  intro one other same
  obtain ⟨texts, calls, usage⟩ := measures one other same
  obtain ⟨texts', calls', usage'⟩ := later (record one) (record other) usage
  exact ⟨texts'.trans texts, calls'.trans calls, usage'⟩

theorem Measures.foldl {Item : Type} {record : BudgetedCollector → Item → BudgetedCollector}
    (each : ∀ item, Measures fun out => record out item) (items : List Item) : Measures fun out => items.foldl record out := by
  induction items with
  | nil => exact .idle
  | cons item rest ih => exact (each item).comp ih

theorem Measures.asks {record : BudgetedCollector → BudgetedCollector} (measures : Measures record) :
    Asks (fun reading => { reading with out := record reading.out }) fun _ => [] := by
  intro one other same
  obtain ⟨calls, usage, pending, terminal⟩ := untold_iff.mp same
  obtain ⟨texts, kept, measured⟩ := measures one.out other.out usage
  have kept' := (measures other.out other.out rfl).2.1
  exact ⟨texts, untold_iff.mpr ⟨kept.trans (calls.trans kept'.symm), measured, pending, terminal⟩⟩

end Reading

namespace Claude

def blockTexts (block : Value) : List Recording :=
  match block.record? with
  | none => []
  | some block =>
    match asString (block.lookup "type") with
    | some "text" => ((asString (block.lookup "text")).map Recording.claim).toList
    | _ => []

def messageTexts (frame : Record) (time : String) : List Recording :=
  match messageContent frame with
  | none => [.event ⟨none, "transcript.malformed", time, [("reason", "message frame without content array")]⟩]
  | some content => content.flatMap blockTexts

def resultTexts (frame : Record) : List Recording :=
  match asString (frame.lookup "result") with
  | none => []
  | some result => if result = "" then [] else [.claim result]

def frameTexts (frame : Record) : List Recording :=
  let time := (asString (frame.lookup "timestamp")).getD ""
  match asString (frame.lookup "type") with
  | some "system" => [.event ⟨none, "session.system", time, systemData frame⟩]
  | some "assistant" => messageTexts frame time
  | some "user" => messageTexts frame time
  | some "result" => resultTexts frame
  | type => [.event ⟨none, "transcript.unrecognized", time, [("frame_type", type.getD "absent")]⟩]

def lineTexts (parse : String → Option Value) (line : String) : List Recording :=
  if isBlank line then []
  else
    match parse line with
    | none => [.event ⟨none, "transcript.malformed", "", [("reason", "unparseable line"), ("line", describe line)]⟩]
    | some value =>
      match value.record? with
      | none => [.event ⟨none, "transcript.malformed", "", [("reason", "frame is not an object")]⟩]
      | some frame => frameTexts frame

theorem consumeBlock_asks (block : Value) : Asks (fun reading => consumeBlock reading block) fun _ => blockTexts block := by
  intro one other same
  unfold consumeBlock blockTexts
  cases block.record? with
  | none => exact Asks.idle one other same
  | some block =>
    dsimp only
    generalize asString (block.lookup "type") = type
    split
    · cases asString (block.lookup "text") with
      | none => exact Asks.idle one other same
      | some text => exact Asks.claim text one other same
    · split
      · exact Asks.request _ _ one other same
      · exact Asks.idle one other same
    · cases asString (block.lookup "tool_use_id") with
      | none => exact Asks.idle one other same
      | some id =>
        have completed := Asks.completion id .permitted Asks.idle one other same
        simp only [ite_self] at completed
        exact completed
    next text use result =>
      split
      next => exact absurd rfl text
      next => exact Asks.idle one other same

theorem consumeDenial_asks (denial : Value) : Asks (fun reading => consumeDenial reading denial) fun _ => [] := by
  unfold consumeDenial
  cases denial.record? with
  | none => exact .idle
  | some denial =>
    dsimp only
    cases asString (denial.lookup "tool_name") with
    | none => exact .idle
    | some tool => exact .call tool .denied _

theorem consumeDenials_asks (frame : Record) : Asks (fun reading => consumeDenials reading frame) fun _ => [] := by
  unfold consumeDenials
  cases asArray (frame.lookup "permission_denials") with
  | none => exact .idle
  | some denials => exact .silent consumeDenial_asks denials

theorem consumeUsage_measures (frame : Record) : Measures fun out => consumeUsage out frame := by
  unfold consumeUsage
  have turned {units : BudgetedCollector → BudgetedCollector} (measures : Measures units) (turns : Numeral) :
      Measures fun out => (units out).measure "turns" turns := measures.comp (.measure "turns" turns)
  cases asRecord (frame.lookup "usage") with
  | none =>
    cases asNumber (frame.lookup "num_turns") with
    | none => exact .idle
    | some turns => exact turned .idle turns
  | some usage =>
    cases asNumber (frame.lookup "num_turns") with
    | none =>
      refine .foldl (fun unit => ?_) usageUnits
      cases asNumber (usage.lookup unit) with
      | none => exact .idle
      | some amount => exact .measure unit amount
    | some turns =>
      refine turned (.foldl (fun unit => ?_) usageUnits) turns
      cases asNumber (usage.lookup unit) with
      | none => exact .idle
      | some amount => exact .measure unit amount

theorem consumeResult_asks (frame : Record) : Asks (fun reading => consumeResult reading frame) fun _ => resultTexts frame := by
  have before := ((Asks.ends ⟨some (reportedOutcome frame), some "result"⟩).comp (consumeDenials_asks frame)).comp
    (consumeUsage_measures frame).asks
  unfold consumeResult resultTexts
  cases asString (frame.lookup "result") with
  | none => exact before
  | some result =>
    dsimp only
    split
    · exact before
    · exact before.comp (.claim result)

theorem consumeMessage_asks (frame : Record) (time : String) :
    Asks (fun reading => consumeMessage reading frame time) fun _ => messageTexts frame time := by
  unfold consumeMessage messageTexts
  cases messageContent frame with
  | none => exact .event _ _ _
  | some content => exact .foldl consumeBlock_asks content

theorem consumeFrame_asks (frame : Record) : Asks (fun reading => consumeFrame reading frame) fun _ => frameTexts frame := by
  intro one other same
  unfold consumeFrame frameTexts
  dsimp only
  generalize asString (frame.lookup "type") = type
  split
  · exact Asks.event _ _ _ none one other same
  · exact consumeMessage_asks frame _ one other same
  · exact consumeMessage_asks frame _ one other same
  · exact consumeResult_asks frame one other same
  next system assistant user result =>
    -- the frame's type is left to match on the side of the texts alone, or on neither
    first
    | exact Asks.event _ _ _ none one other same
    | split
      next => exact absurd rfl system
      next => exact absurd rfl assistant
      next => exact absurd rfl user
      next => exact absurd rfl result
      next => exact Asks.event _ _ _ none one other same

theorem consumeLine_asks (parse : String → Option Value) (line : String) :
    Asks (fun reading => consumeLine parse reading line) fun _ => lineTexts parse line := by
  unfold consumeLine lineTexts
  cases isBlank line with
  | true => exact .idle
  | false =>
    cases parse line with
    | none => exact .event _ _ _
    | some value =>
      dsimp only
      cases value.record? with
      | none => exact .event _ _ _
      | some frame => exact consumeFrame_asks frame

/-- All that the transcript of a run asks to have recorded. -/
def recordings (parse : String → Option Value) (captured : CapturedRun) : List Recording :=
  (lines captured.stdout).flatMap (lineTexts parse) ++ unresolvedTexts (PendingCalls.after [] (callActs parse captured))

theorem frameTexts_unmarked (frame : Record) : Unmarked (frameTexts frame) := by
  have block (block : Value) : Unmarked (blockTexts block) := by
    intro told member
    unfold blockTexts at member
    split at member
    · cases member
    · split at member
      · simp at member
      · cases member
  have message (time : String) : Unmarked (messageTexts frame time) := by
    unfold messageTexts
    split
    · simp [Unmarked, isMarker]
    · exact .flatMap block
  unfold frameTexts
  dsimp only
  split
  · simp [Unmarked, isMarker]
  · exact message _
  · exact message _
  · unfold resultTexts
    split
    · simp [Unmarked]
    · split <;> simp [Unmarked]
  · simp [Unmarked, isMarker]

theorem lineTexts_unmarked (parse : String → Option Value) (line : String) : Unmarked (lineTexts parse line) := by
  unfold lineTexts
  split
  · simp [Unmarked]
  · split
    · simp [Unmarked, isMarker]
    · split
      · simp [Unmarked, isMarker]
      · exact frameTexts_unmarked _

theorem observeRun_observed (parse : String → Option Value) (captured : CapturedRun) :
    Observed (observeRun parse captured) (recordings parse captured) := by
  have lines := Asks.foldl (consumeLine_asks parse) (lines captured.stdout)
  have leaves (reading : Reading) : ((Coding.lines captured.stdout).foldl (consumeLine parse) reading).pendingCalls =
      reading.pendingCalls.after (callActs parse captured) := after_of_joined (lines_joined (consumeLine_joined parse) captured.stdout reading)
  apply (lines.follow unresolved_asks leaves).observed
  exact (Unmarked.flatMap (lineTexts_unmarked parse)).append (unresolved_unmarked _)

end Claude

namespace Copilot

def contentTexts (frame : Record) : List Recording :=
  match (asString (frame.lookup "content")).orElse fun _ => asString (frame.lookup "text") with
  | some text => if text = "" then [] else [.claim text]
  | none => []

def completionTexts (surface : Surface) (pending : PendingCalls) (frame : Record) (time : String) : List Recording :=
  let uncorrelated : List Recording := [.event ⟨none, "call.uncorrelated", time,
    [("surface", surface.label), ("disposition", if completionDenied frame then "denied" else "permitted")]⟩]
  match asString (frame.lookup "toolCallId") with
  | none => uncorrelated
  | some id => if (pending.lookup id).isSome then [] else uncorrelated

def permissionData (surface : Surface) (frame : Record) : List (String × String) :=
  [("surface", surface.label)] ++ (if permissionKind frame = "" then [] else [("kind", permissionKind frame)]) ++
    ((permissionTool frame).map fun tool => ("tool", tool)).toList

def otherTexts (surface : Surface) (frame : Record) (type time : String) : List Recording :=
  match frameExit frame with
  | some _ => []
  | none =>
    if type = "tool.execution_start" ∨ type = "permission.requested" then [.event ⟨none, type, time, [("surface", surface.label)]⟩]
    else [.event ⟨none, "transcript.unrecognized", time, [("frame_type", describe type), ("surface", surface.label)]⟩]

def frameTexts (surface : Surface) (pending : PendingCalls) (frame : Record) : List Recording :=
  let time := (asString (frame.lookup "timestamp")).getD ""
  match frameType frame with
  | none => [.event ⟨none, "transcript.malformed", time, [("reason", "frame without a type"), ("surface", surface.label)]⟩]
  | some "assistant.message" => contentTexts frame
  | some "tool.execution_complete" => completionTexts surface pending frame time
  | some "permission.completed" => [.event ⟨none, "permission.completed", time, permissionData surface frame⟩]
  | some "session.shutdown" => [.event ⟨none, "session.shutdown", time, [("surface", surface.label)] ++
      ((asString (frame.lookup "reason")).map fun reason => ("reason", reason)).toList⟩]
  | some type => otherTexts surface frame type time

def lineTexts (parse : String → Option Value) (surface : Surface) (pending : PendingCalls) (line : String) : List Recording :=
  if isBlank line then []
  else
    match parse line with
    | none => [.event ⟨none, "transcript.malformed", "",
        [("reason", "unparseable line"), ("line", describe line), ("surface", surface.label)]⟩]
    | some value =>
      match value.record? with
      | none => [.event ⟨none, "transcript.malformed", "", [("reason", "frame is not an object"), ("surface", surface.label)]⟩]
      | some frame => frameTexts surface pending frame

def lineActs (parse : String → Option Value) (line : String) : List CallAct := ((frameOf parse line).map frameActs).getD []

def linesTexts (parse : String → Option Value) (surface : Surface) : PendingCalls → List String → List Recording
  | _, [] => []
  | pending, line :: rest =>
    lineTexts parse surface pending line ++ linesTexts parse surface (pending.after (lineActs parse line)) rest

theorem consumeUsage_measures (usage : Record) : Measures fun out => consumeUsage usage out := by
  unfold consumeUsage
  apply Measures.foldl
  rintro ⟨key, value⟩
  dsimp only
  split
  · exact .idle
  · cases value with
    | number amount => exact .measure key amount
    | object entries =>
      apply Measures.foldl
      rintro ⟨inner, value⟩
      dsimp only
      split
      · exact .idle
      · cases value with
        | number amount => exact .measure _ amount
        | null | boolean _ | text _ | array _ | object _ => exact .idle
    | null | boolean _ | text _ | array _ => exact .idle

theorem consumeRequest_asks (request : Value) : Asks (fun reading => consumeRequest reading request) fun _ => [] := by
  unfold consumeRequest
  cases request.record? with
  | none => exact .idle
  | some request =>
    dsimp only
    cases asString (request.lookup "toolCallId") with
    | none => exact .idle
    | some id =>
      cases requestName request with
      | none => exact .idle
      | some name => exact .request id name

theorem consumeMessage_asks (frame : Record) : Asks (fun reading => consumeMessage reading frame) fun _ => contentTexts frame := by
  have content : Asks (fun reading => consumeContent reading frame) fun _ => contentTexts frame := by
    unfold consumeContent contentTexts
    cases (asString (frame.lookup "content")).orElse fun _ => asString (frame.lookup "text") with
    | none => exact .idle
    | some text =>
      dsimp only
      split
      · exact .idle
      · exact .claim text
  unfold consumeMessage
  cases asArray (frame.lookup "toolRequests") with
  | none => exact content
  | some requests =>
    have asked := content.comp (.silent consumeRequest_asks requests)
    rwa [List.append_nil] at asked

theorem consumeCompletion_asks (surface : Surface) (frame : Record) (time : String) :
    Asks (fun reading => consumeCompletion surface reading frame time) fun pending => completionTexts surface pending frame time := by
  unfold consumeCompletion completionTexts
  cases asString (frame.lookup "toolCallId") with
  | none => exact .event _ _ _
  | some id => exact .completion id _ (.event _ _ _)

theorem consumePermission_asks (surface : Surface) (frame : Record) (time : String) :
    Asks (fun reading => consumePermission surface reading frame time)
      fun _ => [.event ⟨none, "permission.completed", time, permissionData surface frame⟩] := by
  unfold consumePermission permissionData
  cases permissionTool frame with
  | none => exact .event _ _ _
  | some tool =>
    cases permissionDenied frame with
    | false => exact .event _ _ _
    | true => exact (Asks.call tool .denied _).comp (.event _ _ _)

theorem consumeOther_asks (surface : Surface) (frame : Record) (type time : String) :
    Asks (fun reading => consumeOther surface reading frame type time) fun _ => otherTexts surface frame type time := by
  unfold consumeOther otherTexts
  cases frameExit frame with
  | none =>
    dsimp only
    split
    · exact .event _ _ _
    · exact .event _ _ _
  | some exitCode =>
    cases frameUsage frame with
    | none => exact .ends _
    | some usage => exact (consumeUsage_measures usage).asks.comp (.ends _)

theorem consumeFrame_asks (surface : Surface) (frame : Record) :
    Asks (fun reading => consumeFrame surface reading frame) fun pending => frameTexts surface pending frame := by
  intro one other same
  unfold consumeFrame frameTexts
  dsimp only
  generalize frameType frame = type
  split
  · exact Asks.event _ _ _ none one other same
  · exact consumeMessage_asks frame one other same
  · exact consumeCompletion_asks surface frame _ one other same
  · exact consumePermission_asks surface frame _ one other same
  · exact Asks.event _ _ _ none one other same
  next message completion permission shutdown =>
    first
    | exact consumeOther_asks surface frame _ _ one other same
    | split
      next same => cases same
      next same => exact absurd (Option.some.inj same) message
      next same => exact absurd (Option.some.inj same) completion
      next same => exact absurd (Option.some.inj same) permission
      next same => exact absurd (Option.some.inj same) shutdown
      next same =>
        cases same
        exact consumeOther_asks surface frame _ _ one other ‹_›

theorem consumeLine_asks (parse : String → Option Value) (surface : Surface) (line : String) :
    Asks (fun reading => consumeLine parse surface reading line) fun pending => lineTexts parse surface pending line := by
  unfold consumeLine lineTexts
  cases isBlank line with
  | true => exact .idle
  | false =>
    cases parse line with
    | none => exact .event _ _ _
    | some value =>
      dsimp only
      cases value.record? with
      | none => exact .event _ _ _
      | some frame => exact consumeFrame_asks surface frame

theorem consumeSurface_asks (parse : String → Option Value) (surface : Surface) (bytes : String) :
    Asks (fun reading => consumeSurface parse bytes surface reading) fun pending => linesTexts parse surface pending (lines bytes) := by
  unfold consumeSurface
  induction lines bytes with
  | nil => exact .idle
  | cons line rest ih =>
    exact (consumeLine_asks parse surface line).follow ih fun reading => after_of_joined (consumeLine_joined parse surface reading line)

/-- All that the transcript of a run asks to have recorded, over both surfaces. -/
def recordings (parse : String → Option Value) (captured : CapturedRun) : List Recording :=
  let pending := PendingCalls.after [] ((frames parse captured.stdout).flatMap frameActs)
  linesTexts parse .stdout [] (lines captured.stdout) ++
    match captured.eventsJsonl with
    | some bytes => linesTexts parse .events pending (lines bytes) ++ unresolvedTexts (pending.after ((frames parse bytes).flatMap frameActs))
    | none => .event ⟨none, "transcript.surface_missing", "", [("surface", "events")]⟩ :: unresolvedTexts pending

theorem frameTexts_unmarked (surface : Surface) (pending : PendingCalls) (frame : Record) : Unmarked (frameTexts surface pending frame) := by
  unfold frameTexts
  dsimp only
  split
  · simp [Unmarked, isMarker]
  · unfold contentTexts
    split
    · split <;> simp [Unmarked]
    · simp [Unmarked]
  · unfold completionTexts
    dsimp only
    split
    · simp [Unmarked, isMarker]
    · split <;> simp [Unmarked, isMarker]
  · simp [Unmarked, isMarker]
  · simp [Unmarked, isMarker]
  · unfold otherTexts
    split
    · simp [Unmarked]
    · split
      next named => rcases named with rfl | rfl <;> simp [Unmarked, isMarker]
      next => simp [Unmarked, isMarker]

theorem linesTexts_unmarked (parse : String → Option Value) (surface : Surface) (pending : PendingCalls) (lines : List String) :
    Unmarked (linesTexts parse surface pending lines) := by
  induction lines generalizing pending with
  | nil => simp [Unmarked, linesTexts]
  | cons line rest ih =>
    apply Unmarked.append _ (ih _)
    unfold lineTexts
    split
    · simp [Unmarked]
    · split
      · simp [Unmarked, isMarker]
      · split
        · simp [Unmarked, isMarker]
        · exact frameTexts_unmarked _ _ _

theorem observeRun_observed (parse : String → Option Value) (captured : CapturedRun) :
    Observed (observeRun parse captured) (recordings parse captured) := by
  have stdout := consumeSurface_asks parse .stdout captured.stdout
  have leaves (surface : Surface) (bytes : String) (reading : Reading) : (consumeSurface parse bytes surface reading).pendingCalls =
      reading.pendingCalls.after ((frames parse bytes).flatMap frameActs) := after_of_joined (consumeSurface_joined parse surface bytes reading)
  unfold observeRun recordings
  cases captured.eventsJsonl with
  | none =>
    have missing := @Asks.follow _ _ _ _ [] (Asks.event "transcript.surface_missing" "" [("surface", "events")]) unresolved_asks fun _ => rfl
    apply (stdout.follow missing (leaves _ _)).observed
    apply (linesTexts_unmarked parse _ _ _).append
    apply Unmarked.append _ (unresolved_unmarked _)
    simp [Unmarked, isMarker]
  | some bytes =>
    have events := (consumeSurface_asks parse .events bytes).follow unresolved_asks (leaves _ _)
    apply (stdout.follow events (leaves _ _)).observed
    exact (linesTexts_unmarked parse _ _ _).append ((linesTexts_unmarked parse _ _ _).append (unresolved_unmarked _))

end Copilot

/-- A transcript of one event, which tells its time. -/
def timedLine : String := "\x7b\"type\":\"system\",\"timestamp\":\"2026-07-01T00:00:00Z\"\x7d"

def timedParse (line : String) : Option Value :=
  if line = timedLine then some (.object [("type", .text "system"), ("timestamp", .text "2026-07-01T00:00:00Z")]) else none

def timedRun : Claude.CapturedRun := ⟨timedLine, some 0, none⟩

def timedEvent : NormalizedProviderEvent := ⟨"session.system", "2026-07-01T00:00:00Z", []⟩

theorem timed_recordings : Claude.recordings timedParse timedRun = [.event ⟨none, timedEvent⟩] := by
  have plain : Plain timedLine := plain_spelt rfl (by decide) (by decide)
  have single : lines timedLine = [timedLine] := by
    unfold lines
    rw [List.splitOn_eq_singleton plain.1]
    simp
  have parsed : timedParse timedLine = some (.object [("type", .text "system"), ("timestamp", .text "2026-07-01T00:00:00Z")]) := if_pos rfl
  have texts : Claude.lineTexts timedParse timedLine = [.event ⟨none, timedEvent⟩] := by
    rw [Claude.lineTexts, if_neg (by simp [plain.2]), parsed]
    rfl
  have acts : Claude.callActs timedParse timedRun = [] := by
    unfold Claude.callActs frames timedRun
    rw [single, List.filterMap_cons_some (b := [("type", .text "system"), ("timestamp", .text "2026-07-01T00:00:00Z")])]
    · rfl
    · rw [frameOf, if_neg (by simp [plain.2]), parsed]
      rfl
  rw [Claude.recordings, acts]
  simp [timedRun, single, texts, unresolvedTexts, PendingCalls.after]

/-- The budget bounds what either adapter records if and only if the times of the events fit it wherever the rest does. -/
theorem observation_budget_iff (parse : String → Option Value) (budget : Numeral) (nonneg : budget.atLeast 0 = true) :
    (∀ captured : Claude.CapturedRun, WithinBudget budget (Claude.observeRun parse captured) ↔
      TimesFit budget (Claude.recordings parse captured)) ∧
    ∀ captured : Copilot.CapturedRun, WithinBudget budget (Copilot.observeRun parse captured) ↔
      TimesFit budget (Copilot.recordings parse captured) := by
  constructor
  · exact fun captured => (Claude.observeRun_observed parse captured).within_iff nonneg
  · exact fun captured => (Copilot.observeRun_observed parse captured).within_iff nonneg

theorem timed_within_budget : WithinBudget (.decimal 34 0) (Claude.observeRun timedParse timedRun) := by
  rw [(observation_budget_iff timedParse (.decimal 34 0) (by decide)).1, timed_recordings, timesFit_iff (by decide)]
  decide +kernel

/-- The name of an event fills a budget, and its time comes on top. -/
theorem time_exceeds_budget : ¬ WithinBudget (.decimal 14 0) (Claude.observeRun timedParse timedRun) := by
  rw [(Claude.observeRun_observed timedParse timedRun).within_iff (by decide), timed_recordings]
  intro fit
  exact absurd (fit _ List.prefix_rfl (by decide +kernel)) (by decide +kernel)

end SecureHome.Adapters.Coding
