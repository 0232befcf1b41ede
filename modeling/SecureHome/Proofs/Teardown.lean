import SecureHome.Orchestration.Fixtures
import SecureHome.Proofs.AfterLoss

/-! What an attempt acquires it resolves: a workspace or a session that was asked for
and not refused is held, or the call that lets it go has been made or barred. -/

namespace SecureHome.Orchestration
open Relation Lib Lifecycle Ports RunState Contracts Core Adapters

variable {World : Type} {outside : Surroundings World} {env : RunEnvironment World} {before after : Attempt World}

/-- The two resources a run acquires. -/
inductive Resource where
  | workspace
  | session
  deriving DecidableEq, Repr

namespace Resource

/-- The identity a call asks for the resource under. -/
def asked : Resource → Call → Option String
  | workspace, .provision _ workspaceRef _ => some workspaceRef
  | session, .prepare _ sessionRef _ _ => some sessionRef
  | _, _ => none

/-- The name a port's answer gives what it created; none for a refusal. -/
def created : Resource → (call : Call) → Answer call → Option String
  | workspace, .provision .., .ok handle => some handle.workspaceRef
  | session, .prepare .., .ok handle => some handle.sessionRef
  | _, _, _ => none

/-- The call that lets the resource go. -/
def teardown : Resource → RunFence → String → Call
  | workspace => .discard
  | session => .close

def nameIn : Resource → RunScope → Option String
  | workspace => RunScope.workspaceRef
  | session => RunScope.sessionRef

variable (resource : Resource)

/-- Whether a happening is an acquisition of the resource, or its answer. -/
def concerns : Happening → Bool
  | .issued call .. | .answered call _ => (resource.asked call).isSome
  | _ => false

/-- A port's definitive refusal, heard: nothing was created. -/
def Refused (log : List Happening) (call : Call) : Prop :=
  ∃ answer, .answered call answer ∈ log ∧ resource.created call answer = none

/-- What the resource goes by: the identity it was asked under, or the name its port gave. -/
def Names (log : List Happening) (call : Call) (name : String) : Prop :=
  resource.asked call = some name ∨ ∃ answer, .answered call answer ∈ log ∧ resource.created call answer = some name

end Resource

/-- One call was made after another. -/
def Followed (log : List Happening) (call next : Call) : Prop :=
  ∃ front back lost ending, log = front ++ .issued call lost ending :: back ∧ ∃ known last, .issued next known last ∈ back

theorem Followed.mono {log more : List Happening} {call next : Call} (followed : Followed log call next)
    (grown : log <+: more) : Followed more call next := by
  obtain ⟨front, back, lost, ending, rfl, known, last, made⟩ := followed
  obtain ⟨added, rfl⟩ := grown
  exact ⟨front, back ++ added, lost, ending, by simp, known, last, List.mem_append_left _ made⟩

/-- A call on record, then one made since. -/
theorem Followed.since {log more : List Happening} {call next : Call} {lost known : Bool} {ending : Ending (Answer call)}
    {last : Ending (Answer next)} (earlier : .issued call lost ending ∈ log) (made : .issued next known last ∈ more) :
    Followed (log ++ more) call next := by
  obtain ⟨front, back, rfl⟩ := List.append_of_mem earlier
  exact ⟨front, back ++ more, lost, ending, by simp, known, last, List.mem_append_right _ made⟩

/-- Where an acquisition stands: refused, held, or let go. -/
def Owed (resource : Resource) (attempt : Attempt World) (call : Call) : Prop :=
  resource.Refused attempt.log call ∨ ∃ name, resource.Names attempt.log call name ∧
    (resource.nameIn attempt.scope = some name ∨ .barred (resource.teardown attempt.scope.fence name) ∈ attempt.log ∨
      Followed attempt.log call (resource.teardown attempt.scope.fence name))

/-- Every acquisition made is accounted for, and it was made once. -/
structure Accounts (resource : Resource) (attempt : Attempt World) : Prop where
  once : ∀ first second lost known ending last, (resource.asked first).isSome = true →
    (resource.asked second).isSome = true → .issued first lost ending ∈ attempt.log →
    .issued second known last ∈ attempt.log → first = second
  heard : ∀ call answer, (resource.asked call).isSome = true → .answered call answer ∈ attempt.log →
    ∃ lost, .issued call lost (.settled answer) ∈ attempt.log
  owed : ∀ call lost ending, (resource.asked call).isSome = true → .issued call lost ending ∈ attempt.log →
    Owed resource attempt call

variable {resource : Resource}

theorem Resource.Names.mono {log more : List Happening} {call : Call} {name : String} (names : resource.Names log call name)
    (grown : log <+: more) : resource.Names more call name :=
  names.imp id fun ⟨answer, answered, named⟩ => ⟨answer, grown.subset answered, named⟩

theorem Owed.still {call : Call} (owed : Owed resource before call)
    (name : resource.nameIn after.scope = resource.nameIn before.scope) (fence : after.scope.fence = before.scope.fence)
    (grown : before.log <+: after.log) : Owed resource after call := by
  rcases owed with ⟨answer, answered, nothing⟩ | ⟨called, names, stands⟩
  · exact .inl ⟨answer, grown.subset answered, nothing⟩
  · refine .inr ⟨called, names.mono grown, ?_⟩
    rw [name, fence]
    exact stands.imp id (Or.imp (fun barred => grown.subset barred) fun followed => followed.mono grown)

/-- An account goes on where nothing more is acquired and what was owed is still. -/
theorem Accounts.onward (accounts : Accounts resource before) (grown : before.log <+: after.log)
    (issued : ∀ call lost ending, (resource.asked call).isSome = true → .issued call lost ending ∈ after.log →
      .issued call lost ending ∈ before.log)
    (heard : ∀ call answer, (resource.asked call).isSome = true → .answered call answer ∈ after.log →
      .answered call answer ∈ before.log ∨ ∃ lost, .issued call lost (.settled answer) ∈ after.log)
    (owed : ∀ call lost ending, (resource.asked call).isSome = true → .issued call lost ending ∈ before.log →
      Owed resource before call → Owed resource after call) : Accounts resource after := by
  refine ⟨fun first second lost known ending last one other made again => ?_, fun call answer asking answered => ?_,
    fun call lost ending asking made => ?_⟩
  · exact accounts.once first second lost known ending last one other (issued _ _ _ one made) (issued _ _ _ other again)
  · rcases heard call answer asking answered with earlier | made
    · exact (accounts.heard call answer asking earlier).imp fun _ made => grown.subset made
    · exact made
  · have earlier := issued call lost ending asking made
    exact owed call lost ending asking earlier (accounts.owed call lost ending asking earlier)

/-- Traffic that acquires nothing keeps the account. -/
theorem Accounts.traffic {permitted : Attempt World → Call → Prop} (accounts : Accounts resource before)
    (step : Traffic outside permitted before after)
    (nothing : ∀ call lost ending, (resource.asked call).isSome = true → .issued call lost ending ∈ after.log →
      .issued call lost ending ∈ before.log) : Accounts resource after :=
  accounts.onward step.log nothing (fun _ _ _ => Traffic.heards (.single step)) fun _ _ _ _ _ owed =>
    owed.still (by rw [step.scope]) (by rw [step.scope]) step.log

theorem Accounts.traffics {permitted : Attempt World → Call → Prop} (accounts : Accounts resource before)
    (steps : ReflTransGen (Traffic outside permitted) before after)
    (other : ∀ ready call, permitted ready call → resource.asked call = none) : Accounts resource after := by
  induction steps with
  | refl => exact accounts
  | tail _ step ih =>
    refine ih.traffic step fun call lost ending asking made => (step.issued made).resolve_right fun allowed => ?_
    rw [other _ call allowed] at asking
    cases asking

/-- The one acquisition, made under the identity the scope already holds. -/
theorem Accounts.asks {call : Call} (accounts : Accounts resource before)
    (fresh : ∀ other lost ending, (resource.asked other).isSome = true → .issued other lost ending ∉ before.log)
    (held : resource.asked call = resource.nameIn before.scope) : Accounts resource (before.issue outside call) := by
  have only {other : Call} {lost : Bool} {ending : Ending (Answer other)} (asking : (resource.asked other).isSome = true)
      (made : .issued other lost ending ∈ (before.issue outside call).log) : other = call := by
    simp only [Attempt.issue, List.mem_append, List.mem_singleton] at made
    rcases made with earlier | same
    · exact absurd earlier (fresh other lost ending asking)
    · cases same
      rfl
  refine ⟨fun first second _ _ _ _ one other made again => (only one made).trans (only other again).symm,
    fun other answer asking answered => ?_, fun other lost ending asking made => ?_⟩
  · simp only [Attempt.issue, List.mem_append, List.mem_singleton] at answered
    have earlier := answered.resolve_right fun same => by cases same
    obtain ⟨lost, made⟩ := accounts.heard other answer asking earlier
    exact absurd made (fresh other lost _ asking)
  · obtain rfl := only asking made
    obtain ⟨name, named⟩ := Option.isSome_iff_exists.mp asking
    exact .inr ⟨name, .inl named, .inl (by rw [← named, held]; rfl)⟩

theorem Ordinary.acquiresNothing {call : Call} (ordinary : Ordinary before call) : resource.asked call = none := by
  cases call <;> cases resource <;> first | rfl | exact ordinary.elim

/-- An acquisition is made where none was, and what it asks for is what the scope names. -/
theorem Accounts.acquiring (accounts : Accounts resource before) (step : Traffic outside Acquiring before after) :
    Accounts resource after := by
  by_cases nothing : ∀ call lost ending, (resource.asked call).isSome = true → .issued call lost ending ∈ after.log →
      .issued call lost ending ∈ before.log
  · exact accounts.traffic step nothing
  · cases step with
    | passes passed => exact absurd (fun _ _ _ _ made => passed.log ▸ made) nothing
    | bars | hears =>
      refine absurd (fun call lost ending _ made => ?_) nothing
      simp only [List.mem_append, List.mem_singleton] at made
      exact made.resolve_right fun same => by cases same
    | @issues call allowed =>
      cases asking : resource.asked call with
      | none =>
        refine absurd (fun other lost ending wanted made => ?_) nothing
        simp only [Attempt.issue, List.mem_append, List.mem_singleton] at made
        refine made.resolve_right fun same => ?_
        cases same
        rw [asking] at wanted
        cases wanted
      | some name =>
        refine accounts.asks (fun other lost ending wanted made => ?_) ?_
        · cases resource <;> cases call <;> cases asking <;> cases other <;> cases wanted
          · exact allowed.2.2.2 _ _ _ _ _ made
          · exact allowed.2.2.2 _ _ _ _ _ _ made
        · cases resource <;> cases call <;> cases asking
          · simp [Resource.asked, Resource.nameIn, RunScope.workspaceRef, allowed.2.1, allowed.2.2.1]
          · simp [Resource.asked, Resource.nameIn, RunScope.sessionRef, allowed.2.1, allowed.2.2.1]

/-- An answer that is heard settles its acquisition: nothing was created, or the scope
names what was. -/
theorem Accounts.settles {call : Call} {answer : Answer call} (accounts : Accounts resource before)
    (asking : (resource.asked call).isSome = true) (answered : .answered call answer ∈ before.log) (log : after.log = before.log)
    (named : resource.created call answer = none ∨ resource.nameIn after.scope = resource.created call answer) :
    Accounts resource after := by
  refine accounts.onward (log ▸ List.prefix_rfl) (fun _ _ _ _ made => log ▸ made) (fun _ _ _ heard => .inl (log ▸ heard))
    fun other lost ending wanted made _ => ?_
  obtain ⟨known, asked⟩ := accounts.heard call answer asking answered
  obtain rfl := accounts.once other call lost known ending _ wanted asking made asked
  cases created : resource.created other answer with
  | none => exact .inl ⟨answer, log ▸ answered, created⟩
  | some name =>
    refine .inr ⟨name, .inr ⟨answer, log ▸ answered, created⟩, .inl ?_⟩
    rcases named with nothing | named
    · rw [created] at nothing
      cases nothing
    · exact named.trans created

/-- Writes of the scope settle what was heard, and name nothing else anew. -/
theorem Accounts.alters {scope : RunScope} (accounts : Accounts resource before)
    (change : Alters before.log before.scope scope) (owned : scope.fenceLost = none) :
    Accounts resource { before with scope } := by
  have kept (name : resource.nameIn scope = resource.nameIn before.scope) : Accounts resource { before with scope } :=
    accounts.onward List.prefix_rfl (fun _ _ _ _ made => made) (fun _ _ _ heard => .inl heard)
      fun _ _ _ _ _ owed => owed.still name change.frame.1 List.prefix_rfl
  have unnamed (free : resource.nameIn before.scope = none) : Accounts resource { before with scope } := by
    refine accounts.onward List.prefix_rfl (fun _ _ _ _ made => made) (fun _ _ _ heard => .inl heard)
      fun _ _ _ _ _ owed => owed.imp id fun ⟨name, names, stands⟩ => ⟨name, names, ?_⟩
    rw [free] at stands
    rw [change.frame.1]
    exact .inr (stands.resolve_left fun held => by cases held)
  cases change with
  | waits | establishes | keeps | recordsEarly | recordsBundle => exact kept (by cases resource <;> rfl)
  | asksWorkspace workspaceRef free =>
    cases resource with
    | session => exact kept rfl
    | workspace => exact unnamed free
  | asksSession sessionRef free =>
    cases resource with
    | workspace => exact kept rfl
    | session => exact unnamed free
  | gainsWorkspace asked answered =>
    cases resource with
    | session => exact kept rfl
    | workspace => exact accounts.settles rfl answered rfl (.inr rfl)
  | gainsSession asked answered =>
    cases resource with
    | workspace => exact kept rfl
    | session => exact accounts.settles rfl answered rfl (.inr rfl)
  | lacksWorkspace asked answered =>
    cases resource with
    | session => exact kept rfl
    | workspace => exact accounts.settles rfl answered rfl (.inl rfl)
  | lacksSession asked answered =>
    cases resource with
    | workspace => exact kept rfl
    | session => exact accounts.settles rfl answered rfl (.inl rfl)
  | letsGo lost =>
    have still : before.scope.fenceLost = none := owned
    rw [still] at lost
    cases lost

theorem teardown_mem_cleanup {scope : RunScope} {name : String} (named : resource.nameIn scope = some name) :
    resource.teardown scope.fence name ∈ scope.cleanup := by
  cases resource with
  | workspace =>
    rw [Resource.nameIn] at named
    simp [RunScope.cleanup, named, Resource.teardown]
  | session =>
    rw [Resource.nameIn] at named
    simp [RunScope.cleanup, named, Resource.teardown]

theorem cleanup_acquires_nothing {scope : RunScope} {call : Call} (cleans : call ∈ scope.cleanup) :
    resource.asked call = none := by
  simp only [RunScope.cleanup, List.mem_append, Option.mem_toList, Option.map_eq_some_iff] at cleans
  rcases cleans with ⟨_, _, rfl⟩ | ⟨_, _, rfl⟩ <;> cases resource <;> rfl

/-- The teardown attends to all that was held. -/
theorem Accounts.tearsDown (accounts : Accounts resource before)
    (calls : ReflTransGen (Traffic outside fun _ call => call ∈ before.scope.cleanup)
      { before with scope := before.scope.letGo } after)
    (done : ∃ more, after.log = before.log ++ more ∧ ∀ call ∈ before.scope.cleanup, Attended call more) :
    Accounts resource after := by
  have grown : before.log <+: after.log := by
    have logs := Traffic.logs calls
    exact logs
  have fence : after.scope.fence = before.scope.fence := by
    rw [Traffic.scopes calls]
    rfl
  refine accounts.onward grown (fun call lost ending asking made => ?_) (fun _ _ _ => Traffic.heards calls)
    fun call lost ending asking made owed => ?_
  · refine (Traffic.issueds calls made).resolve_right fun ⟨_, cleans⟩ => ?_
    rw [cleanup_acquires_nothing cleans] at asking
    cases asking
  · rcases owed with ⟨answer, answered, nothing⟩ | ⟨name, names, held | barred | followed⟩
    · exact .inl ⟨answer, grown.subset answered, nothing⟩
    · obtain ⟨more, same, attended⟩ := done
      refine .inr ⟨name, names.mono grown, .inr ?_⟩
      rw [fence, same]
      rcases attended _ (teardown_mem_cleanup held) with barred | ⟨known, last, torn⟩
      · exact .inl (List.mem_append_right _ barred)
      · exact .inr (Followed.since made torn)
    · exact .inr ⟨name, names.mono grown, .inr (.inl (fence ▸ grown.subset barred))⟩
    · exact .inr ⟨name, names.mono grown, .inr (.inr (fence ▸ followed.mono grown))⟩

/-- Every act of an attempt that still owns its run keeps the account. -/
theorem Act.accounts (step : Act outside before after) (owned : after.scope.fenceLost = none)
    (accounts : Accounts resource before) : Accounts resource after := by
  have apart (name : resource.nameIn after.scope = resource.nameIn before.scope)
      (log : ∀ happening ∈ after.log, happening ∈ before.log ∨ resource.concerns happening = false) :
      Accounts resource after := by
    refine accounts.onward step.logs (fun call lost ending asking made => ?_) (fun call answer asking answered => ?_)
      fun _ _ _ _ _ owed => owed.still name step.fence step.logs
    · exact (log _ made).resolve_right fun other => by rw [Resource.concerns, asking] at other; cases other
    · exact .inl ((log _ answered).resolve_right fun other => by rw [Resource.concerns, asking] at other; cases other)
  cases step with
  | quiet step =>
    cases step with
    | traffic step =>
      refine accounts.traffic step fun call lost ending asking made => (step.issued made).resolve_right fun ordinary => ?_
      rw [ordinary.acquiresNothing] at asking
      cases asking
    | drains | lands | loses | records | gathers | captures =>
      exact apart (by cases resource <;> rfl) fun _ listed => .inl listed
  | acquires step => exact accounts.acquiring step
  | alters change => exact accounts.alters change owned
  | advances kind cause instant =>
    refine apart (by cases resource <;> rfl) fun happening listed => ?_
    simp only [Attempt.advance] at listed
    split at listed
    · simp only [List.mem_append, List.mem_singleton] at listed
      rcases listed with listed | rfl
      · exact .inl listed
      · exact .inr rfl
    · exact .inl listed
  | holds | projects => exact apart (by cases resource <;> rfl) fun _ listed => .inl listed
  | gates | reports =>
    refine apart (by cases resource <;> rfl) fun happening listed => ?_
    simp only [List.mem_append, List.mem_singleton] at listed
    rcases listed with listed | rfl
    · exact .inl listed
    · exact .inr rfl
  | tries =>
    refine apart (by cases resource <;> rfl) fun happening listed => ?_
    simp only [Attempt.issue, List.mem_append, List.mem_singleton] at listed
    rcases listed with listed | rfl
    · exact .inl listed
    · exact .inr (by cases resource <;> rfl)
  | @commits heard commit signal capability ready _ passed =>
    have same : heard.scope = before.scope := passed.scope
    have log : heard.log = _ := passed.log
    rw [Attempt.adopt_adopts (same ▸ ready.remembered) (by rw [same]; exact ready.current)] at apart ⊢
    refine apart (by cases resource <;> simp [Resource.nameIn, RunScope.workspaceRef, RunScope.sessionRef, same])
      fun happening listed => ?_
    simp only [log, Attempt.issue, List.append_assoc, List.mem_append, List.mem_singleton, List.mem_map] at listed
    rcases listed with listed | rfl | rfl | ⟨entry, _, rfl⟩
    · exact .inl listed
    · exact .inr (by cases resource <;> rfl)
    · exact .inr (by cases resource <;> rfl)
    · exact .inr rfl
  | tearsDown _ calls done => exact accounts.tearsDown calls done

theorem unwalked_acquires_nothing {happening : Happening} (unwalked : Unwalked happening) :
    resource.concerns happening = false := by
  cases happening with
  | issued call =>
    have claims : aboutClaim call = true := unwalked.2
    cases call <;> cases claims <;> cases resource <;> rfl
  | answered call =>
    have claims : aboutClaim call = true := unwalked
    cases call <;> cases claims <;> cases resource <;> rfl
  | barred | entered | gated | incomplete => rfl

theorem walked_accounts (resource : Resource) {request : RunRequest} {controls : RunControls} {generation : Nat}
    {startedAt : String} {walked : Attempt World} (unwalked : ∀ happening ∈ before.log, Unwalked happening)
    (acts : ReflTransGen (Act outside) { before with scope := beginning request controls generation startedAt } walked)
    (owned : walked.scope.fenceLost = none) : Accounts resource walked := by
  induction acts with
  | refl =>
    have nothing {call : Call} {lost : Bool} {ending : Ending (Answer call)} (asking : (resource.asked call).isSome = true)
        (made : .issued call lost ending ∈ before.log) : False := by
      have apart : (resource.asked call).isSome = false := unwalked_acquires_nothing (unwalked _ made)
      rw [asking] at apart
      cases apart
    refine ⟨fun _ _ _ _ _ _ asking _ made _ => (nothing asking made).elim, fun call answer asking answered => ?_,
      fun _ _ _ asking made => (nothing asking made).elim⟩
    have apart : (resource.asked call).isSome = false := unwalked_acquires_nothing (unwalked _ answered)
    rw [asking] at apart
    cases apart
  | tail _ step ih => exact step.accounts owned (ih (step.owned owned))

/-- What leaves a resource to be resolved: the attempt kept its run, reported no
settlement it left unfinished around the resource, had no teardown of it barred by a
spent boundary, and was given it under the identity it asked for. -/
structure Orderly (resource : Resource) (last : Attempt World) : Prop where
  owned : last.scope.fenceLost = none
  settled : ∀ scope, .incomplete scope ∈ last.log → resource.nameIn scope = none
  reached : ∀ fence name, .barred (resource.teardown fence name) ∉ last.log
  named : ∀ call answer name, .answered call answer ∈ last.log → resource.created call answer = some name →
    resource.asked call = some name

/-- In an orderly run every acquisition that was made is refused, or followed by the
teardown of exactly what it asked for. -/
theorem resolved_on_exit (env : RunEnvironment World) (world : World) (resource : Resource) :
    ∃ conclusion last, run env (unclaimed env.request world) = .ok conclusion last ∧
      (Orderly resource last → ∀ call name lost ending, resource.asked call = some name →
        .issued call lost ending ∈ last.log →
        resource.Refused last.log call ∨ Followed last.log call (resource.teardown last.scope.fence name)) := by
  obtain ⟨conclusion, last, ran, ⟨_, unwalked⟩ | ⟨generation, startedAt, before, walked, unwalked, acts, reported, released⟩⟩ :=
    run_resolves env world
  · refine ⟨conclusion, last, ran, fun _ call name lost ending asking made => ?_⟩
    have apart : (resource.asked call).isSome = false := unwalked_acquires_nothing (unwalked _ made)
    rw [asking] at apart
    cases apart
  · refine ⟨conclusion, last, ran, fun orderly call name lost ending asking made => ?_⟩
    have same := Traffic.scopes released
    have owned : walked.scope.fenceLost = none := by rw [← same]; exact orderly.owned
    have accounts := (walked_accounts resource unwalked acts owned).traffics released fun _ call freed => by
      rw [freed]
      cases resource <;> rfl
    have freed : resource.nameIn last.scope = none := by
      rw [same]
      cases reported with
      | concluded concluded =>
        cases resource with
        | workspace => exact concluded.freed.1
        | session => exact concluded.freed.2
      | incomplete _ _ _ told => exact orderly.settled _ ((Traffic.logs released).subset told)
      | lost known =>
        rw [owned] at known
        cases known
    refine (accounts.owed call lost ending (by rw [asking]; rfl) made).imp id fun ⟨called, names, stands⟩ => ?_
    have exactly : called = name := by
      have asked : resource.asked call = some called :=
        names.elim id fun ⟨answer, answered, created⟩ => orderly.named call answer called answered created
      rw [asking] at asked
      cases asked
      rfl
    subst exactly
    rcases stands with held | barred | followed
    · rw [freed] at held
      cases held
    · exact absurd barred (orderly.reached _ _)
    · exact followed

/-- A finalization port that is out of reach. -/
def unreachableCommit : Surroundings Unit := portsWith fun
  | .commit .., world => some (.threw "the finalization port is unreachable", world)
  | _, _ => none

/-- A workspace is provisioned and none is discarded. -/
def unreachableEnded : Ended (environment unreachableCommit fixtureCore fixtureRequest {}) () (fun _ last =>
    last.scope.fenceLost == none &&
      (last.log.any fun
        | .answered (.provision ..) (.ok _) => true
        | _ => false) &&
      last.log.all fun
        | .issued (.discard ..) _ _ => false
        | _ => true) :=
  ⟨by decide +kernel⟩

/-- The commit of a completed run throws, recovery's own commit throws again, and the
workspace the run was given is never discarded. -/
theorem leaves_workspace :
    ∃ conclusion last, run (environment unreachableCommit fixtureCore fixtureRequest {}) (unclaimed fixtureRequest ()) =
        .ok conclusion last ∧ last.scope.fenceLost = none ∧
      (∃ fence workspaceRef root handle, .answered (.provision fence workspaceRef root) (.ok handle) ∈ last.log) ∧
      ∀ fence workspaceRef lost ending, .issued (.discard fence workspaceRef) lost ending ∉ last.log := by
  obtain ⟨conclusion, last, ran, checked⟩ := endsWith_iff.mp unreachableEnded.ends
  simp only [Bool.and_eq_true, beq_iff_eq, List.any_eq_true, List.all_eq_true] at checked
  obtain ⟨⟨owned, happening, listed, given⟩, kept⟩ := checked
  refine ⟨conclusion, last, ran, owned, ?_, fun fence workspaceRef lost ending made => nomatch kept _ made⟩
  split at given
  next => exact ⟨_, _, _, _, listed⟩
  · cases given

end SecureHome.Orchestration
