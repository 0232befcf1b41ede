import SecureHome.Proofs.RunRule

/-! What a run has gathered is what it has heard: the calls of its provider, the reports
of its gates, the change set of its workspace. -/

namespace SecureHome.Orchestration
open Relation Lib Lifecycle Ports RunState Contracts Core Adapters

variable {World Value : Type} {outside : Surroundings World} {env : RunEnvironment World} {start : Attempt World}

/-- Whether an event records a provider's call. -/
def ofCall : EventBody → Bool
  | .callAttempted .. | .callDisposition .. => true
  | _ => false

/-- The calls of the observations an attempt heard from its adapter. -/
def receivedCalls (log : List Happening) : List AdapterCall :=
  log.flatMap fun happening => match happening with
    | .answered (.invoke _) (.observed observation) => observation.calls
    | _ => []

/-- The events of provider calls an attempt heard were recorded. -/
def acknowledgements (log : List Happening) : Nat :=
  log.countP fun happening => match happening with
    | .answered (.emit _ event) .ok => ofCall event.body
    | _ => false

/-- The gate reports an attempt heard that have a disposition, by gate. -/
def reportedGates (log : List Happening) : GateResults :=
  log.filterMap fun happening => match happening with
    | .answered (.runGate _ gateId _ _) report => (toDisposition report).map (gateId, ·)
    | _ => none

/-- The change sets the core accepted from the workspace observer. -/
def acceptedChanges (core : TrustedCore) (log : List Happening) : List AuthoritativeChangeSet :=
  log.filterMap fun happening => match happening with
    | .answered (.observe _ _) observation =>
      match core.deriveAuthoritativeChangeSet observation with
      | .proceed observed => some observed
      | _ => none
    | _ => none

/-- Each call as the operation it is recorded as, with its disposition. -/
def numbered (calls : List AdapterCall) : List (EvidenceOperation × CallDisposition) :=
  calls.mapIdx fun index call => (⟨callId index, call.tool⟩, call.disposition)

/-- The operations of the first calls, some of them disposed of. -/
def operationsOf (calls : List AdapterCall) (attempted disposed : Nat) : EvidenceOperations :=
  let under (disposition : CallDisposition) : List EvidenceOperation :=
    (((numbered calls).take disposed).filter (·.2 = disposition)).map (·.1)
  { attempted := ((numbered calls).take attempted).map (·.1)
    permitted := under .permitted
    denied := under .denied }

/-- The operations an evidence lists under a disposition. -/
def disposedOf (operations : EvidenceOperations) : CallDisposition → List EvidenceOperation
  | .permitted => operations.permitted
  | .denied => operations.denied

/-- The operation of a call event is among the operations. -/
def Accounted (operations : EvidenceOperations) : EventBody → Prop
  | .callAttempted callId name => ⟨callId, name⟩ ∈ operations.attempted
  | .callDisposition callId disposition =>
    ∃ name, ⟨callId, name⟩ ∈ operations.attempted ∧ ⟨callId, name⟩ ∈ disposedOf operations disposition
  | _ => True

/-- Evidence leaves out nothing of what the log established. The calls received are all
there, or cut off after the one event whose recording was never heard of. -/
structure Recounts (core : TrustedCore) (log : List Happening) (operations : EvidenceOperations)
    (gateResults : GateResults) (observed : List FileChange) : Prop where
  announced : ∀ fence event lost ending, .issued (.emit fence event) lost ending ∈ log → Accounted operations event.body
  received : ∃ attempted disposed, operations = operationsOf (receivedCalls log) attempted disposed ∧
    disposed ≤ attempted ∧ attempted ≤ disposed + 1 ∧ attempted ≤ (receivedCalls log).length ∧
    (disposed = (receivedCalls log).length ∨ attempted + disposed = acknowledgements log + 1)
  gates : gateResults = reportedGates log
  changes : observed = (((acceptedChanges core log).getLast?.getD {}).changes.map fun change => ⟨change.path, change.kind⟩)

/-- The calls that establish nothing a bundle lists. -/
def Aside : Call → Prop
  | .invoke .. | .runGate .. | .observe .. => False
  | .emit _ event => ofCall event.body = false
  | _ => True

theorem Closing.aside {seen : Observations} {ends : LifecycleState → Prop} {call : Call} (closing : Closing seen ends call) :
    Aside call := by
  cases call <;> trivial

theorem Housekeeping.aside {call : Call} (keeping : Housekeeping call) : Aside call := by
  cases call <;> trivial

/-- A happening that establishes nothing a bundle lists. A call in flight does not
until it is heard; only an event may land unheard. -/
def Silent : Happening → Prop
  | .issued call _ _ => ∀ fence event, call = .emit fence event → ofCall event.body = false
  | .answered call _ => Aside call
  | _ => True

theorem Within.silent {happening : Happening} (within : Within Aside happening) : Silent happening := by
  cases happening with
  | issued call lost ending =>
    rintro fence event rfl
    exact within
  | answered call answer => exact within
  | barred | entered | gated | incomplete => trivial

section Silence

variable {core : TrustedCore} {log more : List Happening}

theorem silent_calls (silent : ∀ happening ∈ more, Silent happening) : receivedCalls more = [] := by
  unfold receivedCalls
  rw [List.flatMap_eq_nil_iff]
  intro happening listed
  have quiet := silent happening listed
  split
  · exact quiet.elim
  · rfl

theorem silent_acknowledgements (silent : ∀ happening ∈ more, Silent happening) : acknowledgements more = 0 := by
  unfold acknowledgements
  rw [List.countP_eq_zero]
  intro happening listed
  have quiet := silent happening listed
  split
  next fence event =>
    have other : ofCall event.body = false := quiet
    simp [other]
  · simp

theorem silent_gates (silent : ∀ happening ∈ more, Silent happening) : reportedGates more = [] := by
  unfold reportedGates
  rw [List.filterMap_eq_nil_iff]
  intro happening listed
  have quiet := silent happening listed
  split
  · exact quiet.elim
  · rfl

theorem silent_changes (silent : ∀ happening ∈ more, Silent happening) : acceptedChanges core more = [] := by
  unfold acceptedChanges
  rw [List.filterMap_eq_nil_iff]
  intro happening listed
  have quiet := silent happening listed
  split
  · exact quiet.elim
  · rfl

theorem receivedCalls_append : receivedCalls (log ++ more) = receivedCalls log ++ receivedCalls more := List.flatMap_append

theorem acknowledgements_append : acknowledgements (log ++ more) = acknowledgements log + acknowledgements more :=
  List.countP_append

theorem reportedGates_append : reportedGates (log ++ more) = reportedGates log ++ reportedGates more :=
  List.filterMap_append

theorem acceptedChanges_append : acceptedChanges core (log ++ more) = acceptedChanges core log ++ acceptedChanges core more :=
  List.filterMap_append

theorem Recounts.grows {operations : EvidenceOperations} {gateResults : GateResults} {observed : List FileChange}
    (recounts : Recounts core log operations gateResults observed) (silent : ∀ happening ∈ more, Silent happening) :
    Recounts core (log ++ more) operations gateResults observed where
  announced fence event lost ending listed := by
    rcases List.mem_append.mp listed with earlier | later
    · exact recounts.announced fence event lost ending earlier
    · have other : ofCall event.body = false := silent _ later fence event rfl
      cases named : event.body <;> rw [named] at other <;> trivial
  received := by
    rw [receivedCalls_append, silent_calls silent, List.append_nil, acknowledgements_append,
      silent_acknowledgements silent, Nat.add_zero]
    exact recounts.received
  gates := by rw [reportedGates_append, silent_gates silent, List.append_nil]; exact recounts.gates
  changes := by rw [acceptedChanges_append, silent_changes silent, List.append_nil]; exact recounts.changes

/-- What an answer establishes besides calls is what it reports of a gate or of the workspace. -/
theorem Recounts.hears {operations : EvidenceOperations} {gateResults : GateResults} {observed : List FileChange}
    (recounts : Recounts core log operations gateResults observed) {call : Call} {answer : Answer call} {lost : Bool}
    {ending : Ending (Answer call)} (other : ∀ fence event, call ≠ .emit fence event)
    (calls : receivedCalls [.answered call answer] = []) :
    Recounts core (log ++ [.issued call lost ending, .answered call answer]) operations
      (gateResults ++ reportedGates [.answered call answer])
      (((acceptedChanges core [.answered call answer]).getLast?.map fun accepted =>
        accepted.changes.map fun change => ⟨change.path, change.kind⟩).getD observed) := by
  have issued := @Recounts.grows _ _ [.issued call lost ending] _ _ _ recounts fun happening only => by
    rw [List.mem_singleton.mp only]
    exact fun fence event same => absurd same (other fence event)
  have unrecorded : acknowledgements [.answered call answer] = 0 := by
    unfold acknowledgements
    rw [List.countP_eq_zero]
    intro happening only
    rw [List.mem_singleton.mp only]
    split
    next fence event same =>
      cases same
      exact absurd rfl (other fence event)
    · simp
  rw [show log ++ [.issued call lost ending, .answered call answer] =
    (log ++ [.issued call lost ending]) ++ [.answered call answer] by simp]
  refine ⟨fun fence event lost' ending' listed => ?_, ?_, ?_, ?_⟩
  · refine issued.announced fence event lost' ending' ((List.mem_append.mp listed).resolve_right fun only => ?_)
    cases List.mem_singleton.mp only
  · rw [receivedCalls_append, calls, List.append_nil, acknowledgements_append, unrecorded, Nat.add_zero]
    exact issued.received
  · rw [reportedGates_append, ← issued.gates]
  · rw [acceptedChanges_append, List.getLast?_append, issued.changes]
    cases (acceptedChanges core [.answered call answer]).getLast? <;> rfl

end Silence

/-- What the log says is in the running evidence, every bundle asked for was made of
it, and so is whatever a settlement would still record. -/
structure Evidenced (core : TrustedCore) (attempt : Attempt World) : Prop where
  recounts : Recounts core attempt.log attempt.scope.terminalEvidence.operations
    attempt.scope.terminalEvidence.gateResults
    (attempt.scope.terminalEvidence.observed.changes.map fun change => ⟨change.path, change.kind⟩)
  bundled : ∀ commit signal lost ending, .issued (.commit commit signal) lost ending ∈ attempt.log →
    Bundled attempt.scope.terminalEvidence commit.intent.bundle
  heeds : Heeds attempt.scope.terminalEvidence attempt

/-- The run goes on having seen just this, and nothing is sealed. -/
structure Gathered (core : TrustedCore) (seen : Observations) (attempt : Attempt World) : Prop where
  seen : attempt.scope.terminalEvidence = seen
  evidenced : Evidenced core attempt
  unsealed : ∀ commit signal lost ending, .issued (.commit commit signal) lost ending ∉ attempt.log

/-- The run is still to observe what happened: a settlement would record the running evidence. -/
structure Gathering (core : TrustedCore) (seen : Observations) (attempt : Attempt World) : Prop where
  gathered : Gathered core seen attempt
  unobserved : ∀ authority seen, attempt.scope.established ≠ .observed authority seen

/-- The provider has not been asked for anything yet. -/
structure Unasked (core : TrustedCore) (attempt : Attempt World) : Prop where
  gathering : Gathering core {} attempt
  silent : ∀ happening ∈ attempt.log, Within Aside happening

/-- The calls that neither establish nor record. -/
def Plain (call : Call) : Prop := Aside call ∧ ∀ commit signal, call ≠ .commit commit signal

section Gathering

variable {core : TrustedCore} {seen : Observations} {before after : Attempt World} {calls : Call → Prop}

/-- A run that is ending adds at most bundles of what it had gathered. -/
theorem Evidenced.closes {ends : LifecycleState → Prop} (evidenced : Evidenced core before)
    (keeps : Keeps (Closing before.scope.terminalEvidence ends) before after) : Evidenced core after := by
  obtain ⟨more, grew, within⟩ := keeps.log
  refine ⟨?_, fun commit signal lost ending listed => ?_, ?_⟩
  · rw [keeps.gathered, grew]
    exact evidenced.recounts.grows fun happening listed =>
      ((within happening listed).mono fun _ closing => closing.aside).silent
  · rw [keeps.gathered]
    rcases keeps.gained listed with earlier | closing
    · exact evidenced.bundled commit signal lost ending earlier
    · exact closing.2
  · rw [keeps.gathered]
    exact evidenced.heeds.keeps keeps

theorem Evidenced.plain (evidenced : Evidenced core before) (keeps : Keeps Plain before after) : Evidenced core after := by
  obtain ⟨more, grew, within⟩ := keeps.log
  refine ⟨?_, fun commit signal lost ending listed => ?_, ?_⟩
  · rw [keeps.gathered, grew]
    exact evidenced.recounts.grows fun happening listed =>
      ((within happening listed).mono fun _ plain => plain.1).silent
  · rw [keeps.gathered]
    rcases keeps.gained listed with earlier | plain
    · exact evidenced.bundled commit signal lost ending earlier
    · exact absurd rfl (plain.2 commit signal)
  · rw [keeps.gathered]
    exact evidenced.heeds.keeps keeps

theorem Gathered.plain (gathered : Gathered core seen before) (keeps : Keeps Plain before after) : Gathered core seen after := by
  refine ⟨keeps.gathered.trans gathered.seen, gathered.evidenced.plain keeps, fun commit signal lost ending listed => ?_⟩
  rcases keeps.gained listed with earlier | plain
  · exact gathered.unsealed commit signal lost ending earlier
  · exact absurd rfl (plain.2 commit signal)

theorem Gathering.plain (gathering : Gathering core seen before) (keeps : Keeps Plain before after) : Gathering core seen after :=
  ⟨gathering.gathered.plain keeps, by rw [keeps.established]; exact gathering.unobserved⟩

theorem Unasked.plain (unasked : Unasked core before) (keeps : Keeps Plain before after) : Unasked core after := by
  refine ⟨unasked.gathering.plain keeps, fun happening listed => ?_⟩
  rcases keeps.gained listed with earlier | plain
  · exact unasked.silent happening earlier
  · exact plain.mono fun _ plain => plain.1

theorem Unasked.gathered (unasked : Unasked core before) : Gathered core {} before := unasked.gathering.gathered

theorem Housekeeping.plain {call : Call} (keeping : Housekeeping call) : Plain call :=
  ⟨keeping.aside, fun _ _ same => by rw [same] at keeping; exact keeping⟩

/-- Nothing sealed and nothing established but the running evidence: that is what was gathered. -/
theorem Recounts.gathering (recounts : Recounts core before.log seen.operations seen.gateResults
      (seen.observed.changes.map fun change => ⟨change.path, change.kind⟩)) (same : before.scope.terminalEvidence = seen)
    (unobserved : ∀ authority seen, before.scope.established ≠ .observed authority seen)
    (unsealed : ∀ commit signal lost ending, .issued (.commit commit signal) lost ending ∉ before.log) :
    Gathering core seen before := by
  refine ⟨⟨same, ⟨by rw [same]; exact recounts, fun commit signal lost ending listed =>
    absurd listed (unsealed commit signal lost ending), fun authority found known => ?_⟩, unsealed⟩, unobserved⟩
  unfold seenBy at known
  split at known
  · cases known
  · cases known
    rfl
  next observed => exact absurd observed (unobserved _ _)

/-- A run that has been told nothing has nothing to record. -/
theorem unasked_of_silent (silent : ∀ happening ∈ before.log, Within Plain happening)
    (nothing : before.scope.terminalEvidence = {})
    (unobserved : ∀ authority seen, before.scope.established ≠ .observed authority seen) : Unasked core before := by
  have quiet : ∀ happening ∈ before.log, Within Aside happening :=
    fun happening listed => (silent happening listed).mono fun _ plain => plain.1
  have blank : Recounts core [] {} [] [] :=
    ⟨(fun _ _ _ _ absent => nomatch absent), ⟨0, 0, rfl, Nat.le_refl _, by omega, Nat.le_refl _, .inl rfl⟩, rfl, rfl⟩
  exact ⟨Recounts.gathering (blank.grows fun happening listed => (quiet happening listed).silent) nothing unobserved
    fun commit signal lost ending listed => absurd rfl ((silent _ listed).2 commit signal), quiet⟩

/-- A call in flight establishes nothing, unless it is an event. -/
theorem Gathering.crossing (gathering : Gathering core seen start) (boundary : Boundary) (call : Call)
    (other : ∀ fence event, call ≠ .emit fence event) (unsealing : ∀ commit signal, call ≠ .commit commit signal) :
    Runs (fun _ _ => True) (cross outside boundary call) start
      (fun answer state => state.scope = start.scope ∧ ∃ lost,
        state.log = start.log ++ [.issued call lost (.settled answer), .answered call answer])
      fun _ => Evidenced core := by
  refine (cross_ends boundary call).weaken (fun _ _ _ crossed => ⟨crossed.1, _, crossed.2⟩) fun _ state _ stopped => ?_
  obtain ⟨same, said⟩ := stopped
  have grown : ∃ happening, state.log = start.log ++ [happening] ∧ Silent happening ∧
      ∀ commit signal lost ending, happening ≠ .issued (.commit commit signal) lost ending := by
    rcases said with barred | ⟨ending, unheard⟩
    · exact ⟨_, barred, trivial, fun _ _ _ _ same => nomatch same⟩
    · refine ⟨_, unheard, fun fence event named => absurd named (other fence event), fun commit signal _ _ made => ?_⟩
      cases made
      exact unsealing commit signal rfl
  obtain ⟨happening, grew, silent, unsealed⟩ := grown
  have recounts := gathering.gathered.evidenced.recounts
  rw [gathering.gathered.seen] at recounts
  refine (@Recounts.gathering _ _ seen _ ?_ (by rw [same]; exact gathering.gathered.seen)
    (by rw [same]; exact gathering.unobserved) fun commit signal lost ending listed => ?_).gathered.evidenced
  · rw [grew]
    exact recounts.grows fun _ only => List.mem_singleton.mp only ▸ silent
  · rw [grew, List.mem_append, List.mem_singleton] at listed
    rcases listed with earlier | made
    · exact gathering.gathered.unsealed commit signal lost ending earlier
    · exact unsealed commit signal lost ending made.symm

/-- What an answer adds to the evidence, once the running evidence has it too. -/
theorem Gathering.hearing (gathering : Gathering core seen before) {call : Call} {answer : Answer call} {lost : Bool}
    {found : Observations} (unsealing : ∀ commit signal, call ≠ .commit commit signal)
    (log : after.log = before.log ++ [.issued call lost (.settled answer), .answered call answer])
    (recounts : Recounts core after.log found.operations found.gateResults
      (found.observed.changes.map fun change => ⟨change.path, change.kind⟩))
    (same : after.scope.terminalEvidence = found) (established : after.scope.established = before.scope.established) :
    Gathering core found after := by
  refine recounts.gathering same (by rw [established]; exact gathering.unobserved) fun commit signal lost ending listed => ?_
  rw [log, List.mem_append] at listed
  rcases listed with earlier | now
  · exact gathering.gathered.unsealed commit signal lost ending earlier
  · simp only [List.mem_cons, List.not_mem_nil, or_false] at now
    rcases now with made | heard
    · cases made
      exact unsealing commit signal rfl
    · cases heard

/-- An answer that established nothing leaves what was gathered. -/
theorem Gathering.hears (gathering : Gathering core seen before) {call : Call} {answer : Answer call} {lost : Bool}
    (other : ∀ fence event, call ≠ .emit fence event) (unsealing : ∀ commit signal, call ≠ .commit commit signal)
    (log : after.log = before.log ++ [.issued call lost (.settled answer), .answered call answer])
    (scope : after.scope = before.scope) (calls : receivedCalls [.answered call answer] = [])
    (gates : reportedGates [.answered call answer] = []) (changes : acceptedChanges core [.answered call answer] = []) :
    Gathering core seen after := by
  have recounts := gathering.gathered.evidenced.recounts
  rw [gathering.gathered.seen] at recounts
  have heard := @Recounts.hears _ _ _ _ _ recounts call answer lost (.settled answer) other calls
  rw [gates, changes, List.append_nil] at heard
  exact gathering.hearing unsealing log (by rw [log]; exact heard) (by rw [scope]; exact gathering.gathered.seen)
    (by rw [scope])

end Gathering

section Recording

variable {core : TrustedCore} {calls : List AdapterCall} {attempted disposed : Nat} {before after : Attempt World}

/-- The calls that emit one body. -/
def Emits (body : EventBody) (call : Call) : Prop := ∃ fence event, call = .emit fence event ∧ event.body = body

/-- Provider calls are being recorded: these are received, so many are in the running
evidence, and every event asked for says one of them. -/
structure Recording (core : TrustedCore) (calls : List AdapterCall) (attempted disposed : Nat)
    (attempt : Attempt World) : Prop where
  seen : attempt.scope.terminalEvidence = { operations := operationsOf calls attempted disposed }
  unobserved : ∀ authority seen, attempt.scope.established ≠ .observed authority seen
  unsealed : ∀ commit signal lost ending, .issued (.commit commit signal) lost ending ∉ attempt.log
  received : receivedCalls attempt.log = calls
  announced : ∀ fence event lost ending, .issued (.emit fence event) lost ending ∈ attempt.log →
    Accounted (operationsOf calls attempted disposed) event.body
  ungated : reportedGates attempt.log = []
  unchanged : acceptedChanges core attempt.log = []

theorem Emits.aside {body : EventBody} {happening : Happening} (emits : Within (Emits body) happening) :
    receivedCalls [happening] = [] ∧ reportedGates [happening] = [] ∧ acceptedChanges core [happening] = [] := by
  cases happening with
  | answered call answer =>
    obtain ⟨fence, event, rfl, _⟩ := emits
    exact ⟨rfl, rfl, rfl⟩
  | issued | barred | entered | gated | incomplete => exact ⟨rfl, rfl, rfl⟩

theorem emits_aside {body : EventBody} {more : List Happening} (emits : ∀ happening ∈ more, Within (Emits body) happening) :
    receivedCalls more = [] ∧ reportedGates more = [] ∧ acceptedChanges core more = [] := by
  induction more with
  | nil => exact ⟨rfl, rfl, rfl⟩
  | cons happening rest ih =>
    obtain ⟨calls, gates, changes⟩ := @Emits.aside core _ _ (emits happening (List.mem_cons_self ..))
    obtain ⟨others, ungated, unchanged⟩ := ih fun other listed => emits other (List.mem_cons_of_mem _ listed)
    rw [← List.singleton_append, receivedCalls_append, reportedGates_append, acceptedChanges_append, calls, gates, changes]
    exact ⟨others, ungated, unchanged⟩

/-- An accounted call may be announced. -/
theorem Recording.emits {body : EventBody} (recording : Recording core calls attempted disposed before)
    (accounted : Accounted (operationsOf calls attempted disposed) body) (keeps : Keeps (Emits body) before after) :
    Recording core calls attempted disposed after := by
  obtain ⟨more, grew, within⟩ := keeps.log
  obtain ⟨others, ungated, unchanged⟩ := @emits_aside core _ _ within
  refine ⟨keeps.gathered.trans recording.seen, by rw [keeps.established]; exact recording.unobserved,
    fun commit signal lost ending listed => ?_, ?_, fun fence event lost ending listed => ?_, ?_, ?_⟩
  · rcases keeps.gained listed with earlier | ⟨_, _, same, _⟩
    · exact recording.unsealed commit signal lost ending earlier
    · cases same
  · rw [grew, receivedCalls_append, others, List.append_nil]
    exact recording.received
  · rcases keeps.gained listed with earlier | ⟨_, _, same, said⟩
    · exact recording.announced fence event lost ending earlier
    · cases same
      rw [said]
      exact accounted
  · rw [grew, reportedGates_append, ungated, List.append_nil]
    exact recording.ungated
  · rw [grew, acceptedChanges_append, unchanged, List.append_nil]
    exact recording.unchanged

/-- What is recorded so far is evidence, where at most one event is still unheard of. -/
theorem Recording.gathering (recording : Recording core calls attempted disposed before)
    (bounds : disposed ≤ attempted ∧ attempted ≤ disposed + 1 ∧ attempted ≤ calls.length)
    (cut : disposed = calls.length ∨ attempted + disposed = acknowledgements before.log + 1) :
    Gathering core { operations := operationsOf calls attempted disposed } before := by
  refine Recounts.gathering ⟨recording.announced, ⟨attempted, disposed, ?_⟩, recording.ungated.symm, ?_⟩ recording.seen
    recording.unobserved recording.unsealed
  · rw [recording.received]
    exact ⟨rfl, bounds.1, bounds.2.1, bounds.2.2, cut⟩
  · rw [recording.unchanged]
    rfl

theorem operationsOf_attempt {index : Nat} {call : AdapterCall} (next : calls[index]? = some call) :
    (operationsOf calls index disposed).attempt ⟨callId index, call.tool⟩ = operationsOf calls (index + 1) disposed := by
  have named : (numbered calls)[index]? = some (⟨callId index, call.tool⟩, call.disposition) := by
    simp [numbered, List.getElem?_mapIdx, next]
  simp only [operationsOf, EvidenceOperations.attempt, EvidenceOperations.mk.injEq, and_self, and_true]
  rw [List.take_add_one, named]
  simp

theorem operationsOf_dispose {index : Nat} {call : AdapterCall} (next : calls[index]? = some call) :
    (operationsOf calls attempted index).dispose ⟨callId index, call.tool⟩ call.disposition =
      operationsOf calls attempted (index + 1) := by
  have named : (numbered calls)[index]? = some (⟨callId index, call.tool⟩, call.disposition) := by
    simp [numbered, List.getElem?_mapIdx, next]
  cases disposed : call.disposition <;>
    simp [operationsOf, EvidenceOperations.dispose, List.take_add_one, named, disposed]

theorem Accounted.attempt {operations : EvidenceOperations} {operation : EvidenceOperation} {body : EventBody}
    (accounted : Accounted operations body) : Accounted (operations.attempt operation) body := by
  cases body with
  | callAttempted callId name => exact List.mem_append_left _ accounted
  | callDisposition callId disposition =>
    obtain ⟨name, attempted, disposed⟩ := accounted
    exact ⟨name, List.mem_append_left _ attempted, by cases disposition <;> exact disposed⟩
  | _ => trivial

theorem Accounted.dispose {operations : EvidenceOperations} {operation : EvidenceOperation} {body : EventBody}
    {disposition : CallDisposition} (accounted : Accounted operations body) :
    Accounted (operations.dispose operation disposition) body := by
  cases body with
  | callAttempted callId name => cases disposition <;> exact accounted
  | callDisposition callId said =>
    obtain ⟨name, attempted, disposed⟩ := accounted
    refine ⟨name, by cases disposition <;> exact attempted, ?_⟩
    cases disposition <;> cases said <;> first | exact disposed | exact List.mem_append_left _ disposed
  | _ => trivial

/-- A call is accounted before its event is asked for. -/
theorem Recording.accounts (recording : Recording core calls attempted disposed before) (attempted' disposed' : Nat)
    (grows : ∀ body, Accounted (operationsOf calls attempted disposed) body →
      Accounted (operationsOf calls attempted' disposed') body) :
    Runs (fun _ _ => True) (account (operationsOf calls attempted' disposed')) before
      (fun _ last => Recording core calls attempted' disposed' last ∧ last.log = before.log) fun _ _ => False := by
  refine Runs.modify trivial ⟨⟨?_, recording.unobserved, recording.unsealed, recording.received,
    fun fence event lost ending listed => grows _ (recording.announced fence event lost ending listed), recording.ungated,
    recording.unchanged⟩, rfl⟩
  dsimp only
  rw [recording.seen]

theorem acknowledgements_answered {log : List Happening} {fence : RunFence} {event : RunEvent} {lost : Bool}
    {answer : FenceOutcome} (ofCalls : ofCall event.body = true) :
    acknowledgements (log ++ [.issued (.emit fence event) lost (.settled answer), .answered (.emit fence event) answer]) =
      acknowledgements log + if answer = .ok then 1 else 0 := by
  rw [acknowledgements_append]
  cases answer <;> simp [acknowledgements, ofCalls]

theorem acknowledgements_unanswered {log : List Happening} {call : Call} {lost : Bool} {ending : Ending (Answer call)} :
    acknowledgements (log ++ [.issued call lost ending]) = acknowledgements log := by
  rw [acknowledgements_append]
  simp [acknowledgements]

/-- What an emission's outcome adds to the acknowledgements of call events. -/
def heard : EmitOutcome → Nat
  | .ok _ => 1
  | .refused _ _ => 0

/-- Emitting a call's event is acknowledged once if it succeeds, and never otherwise. -/
theorem emitFrom_acknowledged {emitter : RunEventEmitter} {body : EventBody} (ofCalls : ofCall body = true)
    (patience : Nat) :
    Runs (fun _ _ => True) (emitFrom env emitter body patience) start
      (fun outcome last => acknowledgements last.log = acknowledgements start.log + heard outcome)
      fun _ last => acknowledgements last.log = acknowledgements start.log := by
  induction patience generalizing start with
  | zero =>
    refine Runs.midway (fun _ state => state.log = start.log) (Runs.modifyGet (.single trivial)
      (expire_passes emitter.ports [] start).log) fun _ _ _ same => Runs.throw (by rw [same])
  | succ patience ih =>
    refine Runs.bind (((clockNow_idles _).runs fun _ => trivial).loosen fun _ _ thrown => by rw [thrown.2.log])
      fun timestamp clocked _ passed => Runs.get ?_
    dsimp only
    split
    · exact Runs.pure (by simp [passed.log, heard])
    · refine Runs.midway (fun _ state => state.log = start.log) (Runs.modify trivial passed.log) fun _ counted _ same => ?_
      refine Runs.midway (fun emitted state => acknowledgements state.log = acknowledgements start.log +
            if emitted = .ok .ok then 1 else 0)
          (Runs.rescued (fun _ state => acknowledgements state.log = acknowledgements start.log)
            (Runs.map ((cross_ends emitter.ports _).weaken (fun answer _ _ crossed => ?_) fun _ _ _ stopped => ?_))
            fun failure state _ kept => ?_) fun emitted state _ counts => ?_
      · rw [crossed.2, same, acknowledgements_answered ofCalls]
        simp
      · rcases stopped.2 with barred | ⟨_, unheard⟩
        · rw [barred, same, acknowledgements_append]
          simp [acknowledgements]
        · rw [unheard, same, acknowledgements_unanswered]
      · split
        · exact Runs.throw kept
        · exact Runs.pure (by simpa using kept)
      · split
        · exact Runs.pure (by simpa [heard] using counts)
        · exact Runs.pure (by simpa [heard] using counts)
        · have kept : acknowledgements state.log = acknowledgements start.log := by simpa using counts
          exact ih.weaken (fun _ _ _ counts => by rw [counts, kept]) fun _ _ _ same => by rw [same, kept]
        · refine Runs.midway (fun _ last => acknowledgements last.log = acknowledgements start.log)
            (Runs.modify trivial (by simpa using counts)) fun _ _ _ kept => Runs.pure (by simpa [heard] using kept)

theorem emit_acknowledged {authority : Authority} {body : EventBody} (ofCalls : ofCall body = true) :
    Runs (fun _ _ => True) (emit env authority body) start
      (fun outcome last => Keeps (Emits body) start last ∧
        acknowledgements last.log = acknowledgements start.log + heard outcome)
      fun _ last => Keeps (Emits body) start last ∧ acknowledgements last.log = acknowledgements start.log := by
  have takes : Takes (Keeps (Emits body)) (emit env authority body) := emit_takes fun fence event same => ⟨fence, event, rfl, same⟩
  have counts : Runs (fun _ _ => True) (emit env authority body) start
      (fun outcome last => acknowledgements last.log = acknowledgements start.log + heard outcome)
      fun _ last => acknowledgements last.log = acknowledgements start.log := by
    refine Runs.midway (fun _ state => state.log = start.log) (Runs.modify trivial rfl) fun _ opened _ same => ?_
    refine Runs.concludes (fun outcome last => acknowledgements last.log = acknowledgements start.log + heard outcome)
      (fun _ last => acknowledgements last.log = acknowledgements start.log)
      (Runs.bind ((emitFrom_acknowledged ofCalls _).loosen ?_) ?_) ?_ ?_
    · exact fun _ _ kept => by rw [kept, same]
    · intro outcome state _ counts
      rw [same] at counts
      have returned (told : Procedure World Unit)
          (tells : Runs (fun _ _ => True) told state (fun _ last => last.log = state.log) fun _ _ => False) :
          Runs (fun _ _ => True) (do told; return outcome) state
            (fun outcome last => acknowledgements last.log = acknowledgements start.log + heard outcome)
            fun _ last => acknowledgements last.log = acknowledgements start.log :=
        Runs.bind (tells.loosen fun _ _ never => never.elim) fun _ _ _ still => Runs.pure (by rw [still]; exact counts)
      split
      · exact returned _ (modifyScope_runs trivial rfl)
      · exact returned (pure ()) (Runs.pure rfl)
    · exact fun _ _ _ held => Runs.modify trivial held
    · exact fun _ _ _ held => Runs.modify trivial held
  exact ((takes start).traced.both counts).weaken (fun _ _ _ held => ⟨Keeps.reached held.1.1, held.2.2⟩)
    fun _ _ _ held => ⟨Keeps.reached held.1.1, held.2.2⟩

/-- Recording the calls received: wherever it stops, what it asked for is accounted, and
at most one event it asked for is unheard of. -/
theorem recordCalls_recorded {authority : Authority} (rest : List AdapterCall) (index : Nat)
    (recording : Recording core calls index index start) (left : calls.drop index = rest)
    (counts : acknowledgements start.log = 2 * index) (inside : index ≤ calls.length) :
    Runs (fun _ _ => True) (recordCalls env authority index (operationsOf calls index index) rest) start
      (fun recorded state => Gathering core { operations := recorded.2 } state) fun _ => Evidenced core := by
  induction rest generalizing index start with
  | nil =>
    have whole : index = calls.length := Nat.le_antisymm inside (List.drop_eq_nil_iff.mp left)
    exact Runs.pure (recording.gathering ⟨Nat.le_refl _, by omega, inside⟩ (.inl whole))
  | cons call rest ih =>
    have next : calls[index]? = some call := by
      have first := congrArg List.head? left
      rwa [List.head?_drop, List.head?_cons] at first
    have more : index + 1 ≤ calls.length := (List.getElem?_eq_some_iff.mp next).1
    have onward : calls.drop (index + 1) = rest := by
      rw [← List.tail_drop, left, List.tail_cons]
    unfold recordCalls
    dsimp only
    rw [operationsOf_attempt next, operationsOf_dispose next]
    have named : ⟨callId index, call.tool⟩ ∈ (operationsOf calls (index + 1) index).attempted := by
      rw [← operationsOf_attempt next]
      exact List.mem_append_right _ (.head _)
    have announces : Accounted (operationsOf calls (index + 1) index) (.callAttempted (callId index) call.tool) := named
    -- One event of the next call is asked for and unheard of.
    refine Runs.bind ((recording.accounts (index + 1) index fun body accounted => ?_).loosen
      fun _ _ never => never.elim) fun _ accounted _ kept => ?_
    · rw [← operationsOf_attempt next]
      exact accounted.attempt
    obtain ⟨recording, log⟩ := kept
    have gathering {state : Attempt World} (recording : Recording core calls (index + 1) index state)
        (same : acknowledgements state.log = acknowledgements accounted.log) :
        Gathering core { operations := operationsOf calls (index + 1) index } state :=
      recording.gathering ⟨by omega, Nat.le_refl _, more⟩ (.inr (by rw [same, log, counts]; omega))
    refine Runs.bind ((emit_acknowledged rfl).weaken (fun _ _ _ held => held) fun _ _ _ held => ?_) fun outcome announced _ held => ?_
    · exact (gathering (recording.emits announces held.1) held.2).gathered.evidenced
    have recording := recording.emits announces held.1
    split
    next reason detail => exact Runs.pure (gathering recording held.2)
    next event =>
      have heard : acknowledgements announced.log = 2 * index + 1 := by rw [held.2, log, counts]; rfl
      refine Runs.bind ((recording.accounts (index + 1) (index + 1) fun body accounted => ?_).loosen
        fun _ _ never => never.elim) fun _ accounted _ kept => ?_
      · rw [← operationsOf_dispose next]
        exact accounted.dispose
      obtain ⟨recording, log⟩ := kept
      have under : ⟨callId index, call.tool⟩ ∈ disposedOf (operationsOf calls (index + 1) (index + 1)) call.disposition := by
        rw [← operationsOf_dispose next]
        cases call.disposition <;> exact List.mem_append_right _ (.head _)
      have said : Accounted (operationsOf calls (index + 1) (index + 1)) (.callDisposition (callId index) call.disposition) :=
        ⟨call.tool, by rw [← operationsOf_dispose next]; cases call.disposition <;> exact named, under⟩
      have gathering {state : Attempt World} (recording : Recording core calls (index + 1) (index + 1) state)
          (same : acknowledgements state.log = acknowledgements accounted.log) :
          Gathering core { operations := operationsOf calls (index + 1) (index + 1) } state :=
        recording.gathering ⟨Nat.le_refl _, by omega, more⟩ (.inr (by rw [same, log, heard]; omega))
      refine Runs.bind ((emit_acknowledged rfl).weaken (fun _ _ _ held => held) fun _ _ _ held => ?_) fun outcome disposed _ held => ?_
      · exact (gathering (recording.emits said held.1) held.2).gathered.evidenced
      have recording := recording.emits said held.1
      split
      next reason detail => exact Runs.pure (gathering recording held.2)
      next event =>
        have heard : acknowledgements disposed.log = 2 * (index + 1) := by rw [held.2, log, heard]; rfl
        exact ih (index + 1) recording onward heard more

end Recording

section Gates

variable {core : TrustedCore} {seen : Observations} {authority : Authority}

/-- A plan runs the requested gates, in the order asked for. -/
theorem buildPlan_names {registry : GateRegistry} {requested : List String} {plan : List (String × GateEntry)}
    (planned : buildPlan registry requested = .ok plan) : plan.map (·.1) = requested := by
  unfold buildPlan at planned
  dsimp only at planned
  split at planned
  next known =>
    cases planned
    have found : ∀ gate ∈ requested, (registry.read gate).isSome = true := by
      simpa [List.isEmpty_iff, List.filter_eq_nil_iff, Option.isSome_iff_ne_none] using known
    clear known
    induction requested with
    | nil => rfl
    | cons gate rest ih =>
      obtain ⟨entry, read⟩ := Option.isSome_iff_exists.mp (found gate (List.mem_cons_self ..))
      simp only [List.filterMap_cons, read, Option.map_some, List.map_cons]
      rw [ih fun other listed => found other (List.mem_cons_of_mem _ listed)]
  · cases planned

/-- Every report with a disposition is recorded under its gate, and only those are. -/
theorem runPlan_gathering {operations : EvidenceOperations} (sessionRef : String) (recorder : DispositionRecorder)
    (plan : List (String × GateEntry))
    (gathering : Gathering core { operations, gateResults := recorder.results } start)
    (distinct : (plan.map (·.1)).Nodup)
    (open' : ∀ gate ∈ plan.map (·.1), gate ∈ recorder.scheduled ∧ recorder.results.lookup gate = none) :
    Runs (fun _ _ => True) (runPlan env sessionRef recorder plan) start
      (fun ran state => match ran with
        | .passed gateResults | .faulted _ gateResults => Gathering core { operations, gateResults } state
        | .staleFence _ => ∃ gateResults, Gathering core { operations, gateResults } state
        | .unknownGates _ => False)
      fun _ => Evidenced core := by
  induction plan generalizing recorder start with
  | nil => exact Runs.pure gathering
  | cons scheduled rest ih =>
    obtain ⟨gateId, spec⟩ := scheduled
    obtain ⟨fresh, distinct⟩ := List.nodup_cons.mp distinct
    obtain ⟨listed, free⟩ := open' gateId (List.mem_cons_self ..)
    refine Runs.get <| Runs.bind (gathering.crossing env.ports (.runGate start.scope.fence gateId spec sessionRef)
      (by intro _ _ same; cases same) (by intro _ _ same; cases same)) fun report state _ crossed => ?_
    obtain ⟨scope, lost, log⟩ := crossed
    have unrecorded (none : toDisposition report = none) : Gathering core { operations, gateResults := recorder.results } state :=
      gathering.hears (by intro _ _ same; cases same) (by intro _ _ same; cases same) log scope rfl
        (by simp [reportedGates, none]) rfl
    split
    next => exact Runs.pure ⟨recorder.results, unrecorded rfl⟩
    next =>
      split
      next none => exact Runs.pure (unrecorded none)
      next disposition disposed =>
        have recorded : recorder.record gateId disposition =
            .ok { recorder with results := recorder.results ++ [(gateId, disposition)] } := by
          simp [DispositionRecorder.record, listed, free]
        rw [recorded]
        dsimp only
        have recounts := gathering.gathered.evidenced.recounts
        rw [gathering.gathered.seen] at recounts
        have heard := @Recounts.hears _ _ _ _ _ recounts _ report lost (.settled report) (by intro _ _ same; cases same) rfl
        have reported : reportedGates [.answered (.runGate start.scope.fence gateId spec sessionRef) report] =
            [(gateId, disposition)] := by
          simp [reportedGates, disposed]
        rw [reported, ← log] at heard
        refine Runs.midway (fun _ last => Gathering core
            { operations, gateResults := recorder.results ++ [(gateId, disposition)] } last)
          (modifyScope_runs trivial ?_) fun _ last _ gathering => ?_
        · refine gathering.hearing (by intro _ _ same; cases same) log heard ?_ (by rw [scope])
          dsimp only
          rw [scope, gathering.gathered.seen]
        · refine ih _ gathering distinct fun gate later => ?_
          obtain ⟨scheduled, free⟩ := open' gate (List.mem_cons_of_mem _ later)
          refine ⟨scheduled, ?_⟩
          have apart : gate ≠ gateId := fun same => fresh (same ▸ later)
          simp [List.lookup_append, free, List.lookup_cons, beq_false_of_ne apart]

theorem runGates_gathering {operations : EvidenceOperations} {registry : GateRegistry} (sessionRef : String)
    (gathering : Gathering core { operations } start) (distinct : env.request.gates.Nodup) :
    Runs (fun _ _ => True) (runGates env registry sessionRef) start
      (fun ran state => match ran with
        | .passed gateResults | .faulted _ gateResults => Gathering core { operations, gateResults } state
        | .staleFence _ => ∃ gateResults, Gathering core { operations, gateResults } state
        | .unknownGates _ => Gathering core { operations } state)
      fun _ => Evidenced core := by
  unfold runGates
  split
  next => exact Runs.pure gathering
  next plan planned =>
    have named : plan.map (·.1) = env.request.gates := buildPlan_names planned
    refine (runPlan_gathering sessionRef ⟨plan.map (·.1), []⟩ plan gathering (named ▸ distinct)
      fun gate listed => ⟨listed, rfl⟩).weaken (fun ran _ _ held => ?_) fun _ _ _ evidenced => evidenced
    cases ran with
    | unknownGates => exact held.elim
    | passed | faulted | staleFence => exact held

end Gates

end SecureHome.Orchestration
