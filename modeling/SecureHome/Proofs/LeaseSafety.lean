import SecureHome.Lib.Execution
import SecureHome.RunState.Lease
import Mathlib.Data.List.Nodup

/-! Ownership under every order of lease operations, judged against what the answers
granted and what was let go since. -/

namespace SecureHome.RunState
open Lib

/-- An attempt's identity as the runner mints it: the run, then a fresh identifier,
which never contains the separator. -/
structure MintedAttempt where
  runId : String
  uuid : String
  plain : ':' ∉ uuid.toList
  deriving DecidableEq

def MintedAttempt.attemptId (attempt : MintedAttempt) : String := s!"{attempt.runId}:{attempt.uuid}"

def MintedAttempt.key (attempt : MintedAttempt) : String :=
  InMemoryRunLease.attemptKey attempt.runId attempt.attemptId

/-- What follows the last separator is one thing. -/
private theorem last_separator {first second tail rest : List Char} (plain : ':' ∉ tail) (other : ':' ∉ rest)
    (same : first ++ ':' :: tail = second ++ ':' :: rest) : first = second ∧ tail = rest := by
  rcases List.append_eq_append_iff.mp same with ⟨between, longer, split⟩ | ⟨between, longer, split⟩
  all_goals
    cases between with
    | nil => simp_all
    | cons head between =>
      obtain ⟨_, inside⟩ := List.cons_eq_cons.mp split
      simp [inside] at plain other

/-- The key repeats the run, so it determines where the run ends. -/
theorem MintedAttempt.key_injective {first second : MintedAttempt} (same : first.key = second.key) : first = second := by
  have listed := congrArg String.toList same
  have spelled : (first.runId.toList ++ '\x00' :: first.runId.toList) ++ ':' :: first.uuid.toList =
      (second.runId.toList ++ '\x00' :: second.runId.toList) ++ ':' :: second.uuid.toList := by
    simpa [key, attemptId, InMemoryRunLease.attemptKey, toString] using listed
  obtain ⟨runs, uuids⟩ := last_separator first.plain second.plain spelled
  have length : first.runId.toList.length = second.runId.toList.length := by
    have lengths := congrArg List.length runs
    simp only [List.length_append, List.length_cons] at lengths
    omega
  have runId : first.runId = second.runId := String.toList_inj.mp (List.append_inj runs length).1
  have uuid : first.uuid = second.uuid := String.toList_inj.mp uuids
  cases first
  cases second
  simp_all

/-- Writing one attempt's record leaves every other attempt's. -/
theorem update_other {attempt other : MintedAttempt} (different : other ≠ attempt)
    (attempts : String → Option AttemptRecord) (record : Option AttemptRecord) :
    Function.update attempts attempt.key record other.key = attempts other.key := by
  apply Function.update_of_ne
  intro same
  exact different (MintedAttempt.key_injective same)

inductive LeaseOperation where
  | claim (attempt : MintedAttempt) (aborted : Bool)
  | abandon (attempt : MintedAttempt)
  | renew (runId : String) (generation : Nat)
  | release (runId : String) (generation : Nat)

def LeaseOperation.runId : LeaseOperation → String
  | claim attempt _ | abandon attempt => attempt.runId
  | renew runId _ | release runId _ => runId

inductive LeaseAnswer where
  | claimed (answer : ClaimAnswer)
  | renewed (holds : Bool)
  | done
  deriving DecidableEq, Repr

def InMemoryRunLease.operate (lease : InMemoryRunLease) : LeaseOperation → LeaseAnswer × InMemoryRunLease
  | .claim attempt aborted =>
    let claimed := lease.claim attempt.runId attempt.attemptId aborted
    (.claimed claimed.1, claimed.2)
  | .abandon attempt => (.done, lease.abandon attempt.runId attempt.attemptId)
  | .renew runId generation => (.renewed (lease.renew runId generation), lease)
  | .release runId generation => (.done, lease.release runId generation)

/-- What the callers know between them: every generation granted and to which attempt,
which of those nobody has let go of, and which attempts were abandoned. -/
structure Grants where
  granted : List (MintedAttempt × Nat) := []
  standing : List (MintedAttempt × Nat) := []
  abandoned : List MintedAttempt := []

namespace Grants

def observe (grants : Grants) : LeaseOperation → LeaseAnswer → Grants
  | .claim attempt _, .claimed (.ok generation) =>
    if (attempt, generation) ∈ grants.granted then grants
    else
      { grants with
        granted := grants.granted ++ [(attempt, generation)]
        standing := grants.standing ++ [(attempt, generation)] }
  | .abandon attempt, _ =>
    { grants with
      abandoned := grants.abandoned ++ [attempt]
      standing := grants.standing.filter fun grant => grant.1 ≠ attempt }
  | .release runId generation, _ =>
    { grants with standing := grants.standing.filter fun grant => ¬(grant.1.runId = runId ∧ grant.2 = generation) }
  | _, _ => grants

/-- A generation that was granted for the run and not let go of since. -/
def Current (grants : Grants) (runId : String) (generation : Nat) : Prop :=
  ∃ attempt, (attempt, generation) ∈ grants.standing ∧ attempt.runId = runId

end Grants

structure LeaseHistory where
  lease : InMemoryRunLease := {}
  grants : Grants := {}

namespace LeaseHistory

def act (history : LeaseHistory) (operation : LeaseOperation) : LeaseHistory :=
  let operated := history.lease.operate operation
  ⟨operated.2, history.grants.observe operation operated.1⟩

/-- The lease's two maps say what the answers said. -/
structure Ruled (history : LeaseHistory) : Prop where
  increasing : (history.grants.granted.map (·.2)).Pairwise (· < ·)
  minted : ∀ grant ∈ history.grants.granted, grant.2 ≤ history.lease.generation
  single : (history.grants.granted.map (·.1)).Nodup
  standing : ∀ grant ∈ history.grants.standing, grant ∈ history.grants.granted ∧ grant.1 ∉ history.grants.abandoned
  held : ∀ runId generation, history.lease.held runId = some generation ↔ history.grants.Current runId generation
  granted : ∀ attempt generation, history.lease.attempts attempt.key = some (.granted generation) ↔
    (attempt, generation) ∈ history.grants.granted ∧ attempt ∉ history.grants.abandoned
  abandoned : ∀ attempt, (∃ generation, history.lease.attempts attempt.key = some (.abandoned generation)) ↔
    attempt ∈ history.grants.abandoned

/-- The next generation granted to an attempt. -/
def grantTo (history : LeaseHistory) (attempt : MintedAttempt) : LeaseHistory :=
  let generation := history.lease.generation + 1
  { lease :=
      { generation
        held := Function.update history.lease.held attempt.runId (some generation)
        attempts := Function.update history.lease.attempts attempt.key (some (.granted generation)) }
    grants :=
      { history.grants with
        granted := history.grants.granted ++ [(attempt, generation)]
        standing := history.grants.standing ++ [(attempt, generation)] } }

variable {history : LeaseHistory}

@[simp] theorem grantTo_granted (attempt : MintedAttempt) : (history.grantTo attempt).grants.granted =
    history.grants.granted ++ [(attempt, history.lease.generation + 1)] := rfl

@[simp] theorem grantTo_abandoned (attempt : MintedAttempt) :
    (history.grantTo attempt).grants.abandoned = history.grants.abandoned := rfl

@[simp] theorem grantTo_attempts (attempt : MintedAttempt) : (history.grantTo attempt).lease.attempts =
    Function.update history.lease.attempts attempt.key (some (.granted (history.lease.generation + 1))) := rfl

@[simp] theorem grantTo_held (attempt : MintedAttempt) : (history.grantTo attempt).lease.held =
    Function.update history.lease.held attempt.runId (some (history.lease.generation + 1)) := rfl

namespace Ruled

/-- A generation is granted to one attempt. -/
theorem owner (ruled : history.Ruled) {first second : MintedAttempt} {generation : Nat}
    (one : (first, generation) ∈ history.grants.granted) (other : (second, generation) ∈ history.grants.granted) :
    first = second := by
  have distinct : (history.grants.granted.map (·.2)).Nodup := ruled.increasing.imp Nat.ne_of_lt
  exact congrArg Prod.fst (List.inj_on_of_nodup_map distinct one other rfl)

/-- An attempt is granted one generation. -/
theorem only (ruled : history.Ruled) {attempt : MintedAttempt} {first second : Nat}
    (one : (attempt, first) ∈ history.grants.granted) (other : (attempt, second) ∈ history.grants.granted) :
    first = second :=
  congrArg Prod.snd (List.inj_on_of_nodup_map ruled.single one other rfl)

theorem initial : ({} : LeaseHistory).Ruled := by
  refine ⟨.nil, ?_, .nil, ?_, ?_, ?_, ?_⟩
  · intro grant absent; cases absent
  · intro grant absent; cases absent
  · intro runId generation
    exact ⟨fun absent => (nomatch absent), fun ⟨_, absent, _⟩ => (nomatch absent)⟩
  · intro attempt generation
    exact ⟨fun absent => (nomatch absent), fun ⟨absent, _⟩ => (nomatch absent)⟩
  · intro attempt
    exact ⟨fun ⟨_, absent⟩ => (nomatch absent), fun absent => (nomatch absent)⟩

/-- What is current once a free run is granted to an attempt. -/
private theorem granted_current (ruled : history.Ruled) {attempt : MintedAttempt} (free : history.lease.held attempt.runId = none)
    (granted : Nat) (runId : String) (generation : Nat) :
    Function.update history.lease.held attempt.runId (some granted) runId = some generation ↔
      ∃ other, (other, generation) ∈ history.grants.standing ++ [(attempt, granted)] ∧ other.runId = runId := by
  have before := ruled.held runId generation
  simp only [List.mem_append, List.mem_singleton, Prod.mk.injEq]
  by_cases same : runId = attempt.runId
  · subst same
    rw [free] at before
    rw [Function.update_self]
    constructor
    · intro equal
      exact ⟨attempt, .inr ⟨rfl, (Option.some.inj equal).symm⟩, rfl⟩
    · rintro ⟨other, earlier | ⟨_, rfl⟩, asked⟩
      · exact absurd (before.mpr ⟨other, earlier, asked⟩) (Option.some_ne_none _).symm
      · rfl
  · rw [Function.update_of_ne same, before]
    constructor
    · rintro ⟨other, earlier, asked⟩
      exact ⟨other, .inl earlier, asked⟩
    · rintro ⟨other, earlier | ⟨rfl, _⟩, asked⟩
      · exact ⟨other, earlier, asked⟩
      · exact absurd asked.symm same

private theorem grant (ruled : history.Ruled) {attempt : MintedAttempt} (fresh : history.lease.attempts attempt.key = none)
    (free : history.lease.held attempt.runId = none) :
    (history.grantTo attempt).Ruled := by
  have unknown : attempt ∉ history.grants.abandoned := by
    intro known
    obtain ⟨generation, record⟩ := (ruled.abandoned attempt).mpr known
    exact nomatch fresh.symm.trans record
  have never : attempt ∉ history.grants.granted.map (·.1) := by
    intro listed
    obtain ⟨⟨_, generation⟩, member, rfl⟩ := List.mem_map.mp listed
    exact nomatch fresh.symm.trans ((ruled.granted _ generation).mpr ⟨member, unknown⟩)
  refine ⟨?_, ?_, ?_, ?_, ruled.granted_current free _, ?_, ?_⟩
  · rw [grantTo_granted, List.map_append, List.pairwise_append]
    refine ⟨ruled.increasing, List.pairwise_singleton _ _, ?_⟩
    intro earlier listed last only
    obtain ⟨grant, member, rfl⟩ := List.mem_map.mp listed
    rw [List.mem_singleton.mp only]
    exact Nat.lt_succ_of_le (ruled.minted grant member)
  · intro grant listed
    rcases List.mem_append.mp listed with earlier | last
    · exact Nat.le_succ_of_le (ruled.minted grant earlier)
    · rw [List.mem_singleton.mp last]
      exact Nat.le_refl _
  · rw [grantTo_granted, List.map_append]
    exact List.Nodup.append ruled.single (List.nodup_singleton _) (by simpa using never)
  · intro grant listed
    rcases List.mem_append.mp listed with earlier | last
    · exact ⟨List.mem_append_left _ (ruled.standing grant earlier).1, (ruled.standing grant earlier).2⟩
    · rw [List.mem_singleton.mp last]
      exact ⟨List.mem_append_right _ (List.mem_singleton.mpr rfl), unknown⟩
  · intro other generation
    by_cases same : other = attempt
    · subst same
      simp only [grantTo_attempts, grantTo_granted, grantTo_abandoned, Function.update_self, List.mem_append,
        List.mem_singleton, Prod.mk.injEq, true_and]
      constructor
      · intro equal
        cases equal
        exact ⟨.inr rfl, unknown⟩
      · rintro ⟨earlier | last, _⟩
        · exact absurd (List.mem_map_of_mem earlier) never
        · rw [last]
    · simp [update_other same, ruled.granted, same]
  · intro other
    rw [grantTo_abandoned, ← ruled.abandoned other]
    by_cases same : other = attempt
    · subst same
      simp [fresh]
    · simp [update_other same]

/-- A claim changes nothing, or grants a free run to an attempt nobody knew of. -/
theorem claim_cases (ruled : history.Ruled) (attempt : MintedAttempt) (aborted : Bool) :
    history.act (.claim attempt aborted) = history ∨
    history.lease.attempts attempt.key = none ∧ history.lease.held attempt.runId = none ∧
      history.lease.operate (.claim attempt aborted) =
        (.claimed (.ok (history.lease.generation + 1)), (history.grantTo attempt).lease) ∧
      history.act (.claim attempt aborted) = history.grantTo attempt := by
  rcases history.lease.claim_cases attempt.runId attempt.attemptId aborted with
    ⟨refusal, declined⟩ | ⟨generation, known, current, again⟩ | ⟨fresh, free, granted⟩
  · exact .inl (by simp [act, InMemoryRunLease.operate, declined, Grants.observe])
  · have listed := ((ruled.granted attempt generation).mp known).1
    exact .inl (by simp [act, InMemoryRunLease.operate, again, Grants.observe, listed])
  · have absent : (attempt, history.lease.generation + 1) ∉ history.grants.granted := by
      intro listed
      exact Nat.not_succ_le_self _ (ruled.minted _ listed)
    refine .inr ⟨fresh, free, by simp [InMemoryRunLease.operate, granted, grantTo, MintedAttempt.key], ?_⟩
    simp [act, InMemoryRunLease.operate, granted, Grants.observe, absent, grantTo, MintedAttempt.key]

private theorem claim (ruled : history.Ruled) (attempt : MintedAttempt) (aborted : Bool) :
    (history.act (.claim attempt aborted)).Ruled := by
  rcases ruled.claim_cases attempt aborted with same | ⟨fresh, free, _, granted⟩
  · rw [same]; exact ruled
  · rw [granted]; exact ruled.grant fresh free

/-- Letting go of what is not current lets go of nothing. -/
private theorem current_kept (ruled : history.Ruled) {kept : MintedAttempt × Nat → Bool} {runId : String}
    (others : ∀ grant ∈ history.grants.standing, grant.1.runId ≠ runId → kept grant = true)
    (stays : ∀ grant ∈ history.grants.standing, grant.1.runId = runId → kept grant = true)
    (asked : String) (generation : Nat) :
    history.lease.held asked = some generation ↔
      ∃ attempt, (attempt, generation) ∈ history.grants.standing.filter kept ∧ attempt.runId = asked := by
  rw [ruled.held asked generation]
  constructor
  · rintro ⟨attempt, listed, same⟩
    refine ⟨attempt, List.mem_filter.mpr ⟨listed, ?_⟩, same⟩
    by_cases own : attempt.runId = runId
    · exact stays _ listed own
    · exact others _ listed own
  · rintro ⟨attempt, listed, same⟩
    exact ⟨attempt, (List.mem_filter.mp listed).1, same⟩

/-- Letting go of what is current leaves the run to nobody. -/
private theorem current_freed (ruled : history.Ruled) {kept : MintedAttempt × Nat → Bool} {runId : String}
    (others : ∀ grant ∈ history.grants.standing, grant.1.runId ≠ runId → kept grant = true)
    (leaves : ∀ grant ∈ history.grants.standing, grant.1.runId = runId → kept grant = false)
    (asked : String) (generation : Nat) :
    Function.update history.lease.held runId none asked = some generation ↔
      ∃ attempt, (attempt, generation) ∈ history.grants.standing.filter kept ∧ attempt.runId = asked := by
  by_cases same : asked = runId
  · subst same
    rw [Function.update_self]
    refine ⟨fun absent => (nomatch absent), ?_⟩
    rintro ⟨attempt, listed, own⟩
    obtain ⟨standing, still⟩ := List.mem_filter.mp listed
    exact nomatch (leaves _ standing own).symm.trans still
  · rw [Function.update_of_ne same, ruled.held asked generation]
    constructor
    · rintro ⟨attempt, listed, own⟩
      exact ⟨attempt, List.mem_filter.mpr ⟨listed, others _ listed (own ▸ same)⟩, own⟩
    · rintro ⟨attempt, listed, own⟩
      exact ⟨attempt, (List.mem_filter.mp listed).1, own⟩

private theorem abandon (ruled : history.Ruled) (attempt : MintedAttempt) : (history.act (.abandon attempt)).Ruled := by
  obtain ⟨generation, attempts⟩ := history.lease.abandon_attempts attempt.runId attempt.attemptId
  refine ⟨ruled.increasing, ?_, ruled.single, ?_, ?_, ?_, ?_⟩
  · simp only [act, InMemoryRunLease.operate, InMemoryRunLease.abandon_generation]
    exact ruled.minted
  · intro grant listed
    obtain ⟨standing, other⟩ := List.mem_filter.mp listed
    refine ⟨(ruled.standing grant standing).1, ?_⟩
    intro known
    rcases List.mem_append.mp known with earlier | last
    · exact (ruled.standing grant standing).2 earlier
    · simp [List.mem_singleton.mp last] at other
  · intro runId generation
    have others : ∀ grant ∈ history.grants.standing, grant.1.runId ≠ attempt.runId → decide (grant.1 ≠ attempt) = true := by
      intro grant _ elsewhere
      apply decide_eq_true
      rintro rfl
      exact elsewhere rfl
    simp only [act, InMemoryRunLease.operate, Grants.observe, Grants.Current]
    rcases history.lease.abandon_held attempt.runId attempt.attemptId with ⟨own, known, current, held⟩ | ⟨spent, held⟩
    · rw [held]
      refine ruled.current_freed others ?_ runId generation
      intro grant listed same
      have granted := (ruled.standing grant listed).1
      have now := (ruled.held attempt.runId grant.2).mpr ⟨grant.1, listed, same⟩
      obtain rfl : own = grant.2 := Option.some.inj (current.symm.trans now)
      simpa using ruled.owner granted ((ruled.granted attempt grant.2).mp known).1
    · rw [held]
      refine ruled.current_kept others ?_ runId generation
      intro grant listed same
      apply decide_eq_true
      rintro rfl
      obtain ⟨granted, kept⟩ := ruled.standing grant listed
      exact spent grant.2 ((ruled.granted grant.1 grant.2).mpr ⟨granted, kept⟩)
        ((ruled.held grant.1.runId grant.2).mpr ⟨grant.1, listed, rfl⟩)
  · intro other generation
    simp only [act, InMemoryRunLease.operate, Grants.observe, attempts, List.mem_append, List.mem_singleton, not_or]
    by_cases same : other = attempt
    · subst same
      simp [MintedAttempt.key]
    · rw [show InMemoryRunLease.attemptKey attempt.runId attempt.attemptId = attempt.key from rfl, update_other same,
        ruled.granted]
      simp [same]
  · intro other
    simp only [act, InMemoryRunLease.operate, Grants.observe, attempts, List.mem_append, List.mem_singleton]
    by_cases same : other = attempt
    · subst same
      simp [MintedAttempt.key]
    · rw [show InMemoryRunLease.attemptKey attempt.runId attempt.attemptId = attempt.key from rfl, update_other same,
        ruled.abandoned]
      simp [same]

private theorem release (ruled : history.Ruled) (runId : String) (generation : Nat) :
    (history.act (.release runId generation)).Ruled := by
  refine ⟨ruled.increasing, ?_, ruled.single, ?_, ?_, ?_, ?_⟩
  · simp only [act, InMemoryRunLease.operate, InMemoryRunLease.release]
    split
    · exact ruled.minted
    · exact ruled.minted
  · intro grant listed
    exact ruled.standing grant (List.mem_filter.mp listed).1
  · intro asked later
    have others : ∀ grant ∈ history.grants.standing, grant.1.runId ≠ runId →
        decide (¬(grant.1.runId = runId ∧ grant.2 = generation)) = true := by
      intro grant _ elsewhere
      exact decide_eq_true fun both => elsewhere both.1
    simp only [act, InMemoryRunLease.operate, InMemoryRunLease.release, Grants.observe, Grants.Current]
    split
    next current =>
      refine ruled.current_freed others ?_ asked later
      intro grant listed same
      have now := (ruled.held runId grant.2).mpr ⟨grant.1, listed, same⟩
      have equal : grant.2 = generation := Option.some.inj (now.symm.trans current)
      exact decide_eq_false fun away => away ⟨same, equal⟩
    next stale =>
      refine ruled.current_kept others ?_ asked later
      intro grant listed same
      apply decide_eq_true
      rintro ⟨_, rfl⟩
      exact stale ((ruled.held runId grant.2).mpr ⟨grant.1, listed, same⟩)
  · intro attempt later
    simp only [act, InMemoryRunLease.operate, InMemoryRunLease.release]
    split
    · exact ruled.granted attempt later
    · exact ruled.granted attempt later
  · intro attempt
    simp only [act, InMemoryRunLease.operate, InMemoryRunLease.release]
    split
    · exact ruled.abandoned attempt
    · exact ruled.abandoned attempt

theorem act (ruled : history.Ruled) (operation : LeaseOperation) : (history.act operation).Ruled := by
  cases operation with
  | claim attempt aborted => exact ruled.claim attempt aborted
  | abandon attempt => exact ruled.abandon attempt
  | renew runId generation => exact ruled
  | release runId generation => exact ruled.release runId generation

end Ruled

/-- An attempt that was abandoned, or whose generation was let go of. -/
def Spent (history : LeaseHistory) (attempt : MintedAttempt) : Prop :=
  attempt ∈ history.grants.abandoned ∨
    ∃ generation, (attempt, generation) ∈ history.grants.granted ∧ (attempt, generation) ∉ history.grants.standing

theorem Ruled.spent_refused (ruled : history.Ruled) {attempt : MintedAttempt} (spent : history.Spent attempt)
    (aborted : Bool) (generation : Nat) :
    (history.lease.operate (.claim attempt aborted)).1 ≠ .claimed (.ok generation) := by
  rcases history.lease.claim_cases attempt.runId attempt.attemptId aborted with
    ⟨refusal, declined⟩ | ⟨again, known, current, answered⟩ | ⟨fresh, free, granted⟩
  · simp [InMemoryRunLease.operate, declined]
  · exfalso
    obtain ⟨listed, kept⟩ := (ruled.granted attempt again).mp known
    rcases spent with gone | ⟨earlier, once, dropped⟩
    · exact kept gone
    · obtain rfl := ruled.only listed once
      obtain ⟨other, standing, _⟩ := (ruled.held attempt.runId again).mp current
      obtain rfl := ruled.owner once (ruled.standing _ standing).1
      exact dropped standing
  · exfalso
    rcases spent with gone | ⟨earlier, once, _⟩
    · obtain ⟨_, record⟩ := (ruled.abandoned attempt).mpr gone
      exact nomatch fresh.symm.trans record
    · by_cases gone : attempt ∈ history.grants.abandoned
      · obtain ⟨_, record⟩ := (ruled.abandoned attempt).mpr gone
        exact nomatch fresh.symm.trans record
      · exact nomatch fresh.symm.trans ((ruled.granted attempt earlier).mpr ⟨once, gone⟩)

/-- Spent is for good. -/
theorem Ruled.spent_stays (ruled : history.Ruled) {attempt : MintedAttempt} (spent : history.Spent attempt)
    (operation : LeaseOperation) : (history.act operation).Spent attempt := by
  cases operation with
  | claim other aborted =>
    rcases ruled.claim_cases other aborted with same | ⟨_, _, _, granted⟩
    · rw [same]; exact spent
    · rw [granted]
      refine spent.imp id ?_
      rintro ⟨generation, once, dropped⟩
      refine ⟨generation, List.mem_append_left _ once, ?_⟩
      intro listed
      rcases List.mem_append.mp listed with earlier | last
      · exact dropped earlier
      · obtain ⟨_, rfl⟩ := Prod.mk.inj (List.mem_singleton.mp last)
        exact Nat.not_succ_le_self _ (ruled.minted _ once)
  | abandon other =>
    refine spent.imp (List.mem_append_left _) ?_
    rintro ⟨generation, once, dropped⟩
    exact ⟨generation, once, fun listed => dropped (List.mem_filter.mp listed).1⟩
  | renew runId generation => exact spent
  | release runId generation =>
    refine spent.imp id ?_
    rintro ⟨other, once, dropped⟩
    exact ⟨other, once, fun listed => dropped (List.mem_filter.mp listed).1⟩

end LeaseHistory

/-! A run on its own: the operations that concern it, each generation named by its
place among those the run was granted. -/

def Grants.generations (grants : Grants) (runId : String) : List Nat :=
  (grants.granted.filter fun grant => grant.1.runId = runId).map (·.2)

/-- The place of a generation among those granted for the run, counted from one. -/
def Grants.ordinal (grants : Grants) (runId : String) (generation : Nat) : Nat :=
  if generation ∈ grants.generations runId then (grants.generations runId).idxOf generation + 1 else 0

def LeaseOperation.rename (name : Nat → Nat) : LeaseOperation → LeaseOperation
  | renew runId generation => .renew runId (name generation)
  | release runId generation => .release runId (name generation)
  | operation => operation

def LeaseAnswer.rename (name : Nat → Nat) : LeaseAnswer → LeaseAnswer
  | claimed (.ok generation) => .claimed (.ok (name generation))
  | claimed (.refused (.alreadyLeased holder)) => .claimed (.refused (.alreadyLeased (name holder)))
  | answer => answer

/-- A lease that serves every run beside one that serves a single run. -/
structure Compared where
  history : LeaseHistory := {}
  alone : InMemoryRunLease := {}

namespace Compared

def asked (runId : String) (compared : Compared) (operation : LeaseOperation) : LeaseAnswer × InMemoryRunLease :=
  compared.alone.operate (operation.rename (compared.history.grants.ordinal runId))

def act (runId : String) (compared : Compared) (operation : LeaseOperation) : Compared :=
  { history := compared.history.act operation
    alone := if operation.runId = runId then (compared.asked runId operation).2 else compared.alone }

/-- What an attempt's record says, short of which generation was abandoned. -/
def said (name : Nat → Nat) : AttemptRecord → AttemptRecord
  | .granted generation => .granted (name generation)
  | .abandoned _ => .abandoned none

/-- The lone lease knows of its run what the shared one does, up to the numbers. -/
structure Agrees (runId : String) (compared : Compared) : Prop where
  ruled : compared.history.Ruled
  generation : compared.alone.generation = (compared.history.grants.generations runId).length
  held : compared.alone.held runId = (compared.history.lease.held runId).map (compared.history.grants.ordinal runId)
  attempts : ∀ attempt : MintedAttempt, attempt.runId = runId → (compared.alone.attempts attempt.key).map (said id) =
    (compared.history.lease.attempts attempt.key).map (said (compared.history.grants.ordinal runId))

end Compared

namespace LeaseHistory
open Compared

variable {history : LeaseHistory} {runId : String}

theorem Ruled.held_generation (ruled : history.Ruled) {generation : Nat}
    (held : history.lease.held runId = some generation) : generation ∈ history.grants.generations runId := by
  obtain ⟨attempt, standing, same⟩ := (ruled.held runId generation).mp held
  refine List.mem_map.mpr ⟨(attempt, generation), List.mem_filter.mpr ⟨(ruled.standing _ standing).1, ?_⟩, rfl⟩
  exact decide_eq_true same

theorem Ruled.granted_generation (ruled : history.Ruled) {attempt : MintedAttempt} {generation : Nat}
    (known : history.lease.attempts attempt.key = some (.granted generation)) :
    generation ∈ history.grants.generations attempt.runId := by
  refine List.mem_map.mpr ⟨(attempt, generation), List.mem_filter.mpr ⟨((ruled.granted _ _).mp known).1, ?_⟩, rfl⟩
  exact decide_eq_true rfl

/-- A generation the run was granted shares its place with no other number. -/
theorem ordinal_inj {grants : Grants} {generation other : Nat} (known : generation ∈ grants.generations runId) :
    grants.ordinal runId generation = grants.ordinal runId other ↔ generation = other := by
  refine ⟨fun same => ?_, fun same => by rw [same]⟩
  simp only [Grants.ordinal, if_pos known] at same
  split at same
  · exact (List.idxOf_inj known).mp (Nat.succ.inj same)
  · cases same

@[simp] theorem generations_same (attempt : MintedAttempt) : (history.grantTo attempt).grants.generations attempt.runId =
    history.grants.generations attempt.runId ++ [history.lease.generation + 1] := by
  simp [Grants.generations]

theorem generations_other {attempt : MintedAttempt} (other : attempt.runId ≠ runId) :
    (history.grantTo attempt).grants.generations runId = history.grants.generations runId := by
  simp [Grants.generations, other]

/-- A place, once taken, stays. -/
theorem ordinal_kept (attempt : MintedAttempt) {generation : Nat} (known : generation ∈ history.grants.generations runId) :
    (history.grantTo attempt).grants.ordinal runId generation = history.grants.ordinal runId generation := by
  by_cases same : attempt.runId = runId
  · subst same
    simp [Grants.ordinal, known, List.idxOf_append_of_mem known]
  · simp only [Grants.ordinal, generations_other same]

theorem ordinal_next (ruled : history.Ruled) (attempt : MintedAttempt) :
    (history.grantTo attempt).grants.ordinal attempt.runId (history.lease.generation + 1) =
      (history.grants.generations attempt.runId).length + 1 := by
  have fresh : history.lease.generation + 1 ∉ history.grants.generations attempt.runId := by
    intro listed
    obtain ⟨grant, member, same⟩ := List.mem_map.mp listed
    have bounded := ruled.minted grant (List.mem_filter.mp member).1
    omega
  simp [Grants.ordinal, List.idxOf_append_of_notMem fresh]

/-- The records of a run's attempts read the same by the new places. -/
theorem Ruled.said_kept (ruled : history.Ruled) (attempt : MintedAttempt) {other : MintedAttempt}
    (own : other.runId = runId) :
    (history.lease.attempts other.key).map (said ((history.grantTo attempt).grants.ordinal runId)) =
      (history.lease.attempts other.key).map (said (history.grants.ordinal runId)) := by
  cases known : history.lease.attempts other.key with
  | none => rfl
  | some record =>
    cases record with
    | granted generation =>
      subst own
      simp only [Option.map_some, said, ordinal_kept attempt (ruled.granted_generation known)]
    | abandoned generation => rfl

theorem Ruled.held_kept (ruled : history.Ruled) (attempt : MintedAttempt) :
    (history.lease.held runId).map ((history.grantTo attempt).grants.ordinal runId) =
      (history.lease.held runId).map (history.grants.ordinal runId) := by
  cases known : history.lease.held runId with
  | none => rfl
  | some generation => simp only [Option.map_some, ordinal_kept attempt (ruled.held_generation known)]

end LeaseHistory

namespace Compared
open LeaseHistory

variable {compared : Compared} {runId : String}

theorem Agrees.initial (runId : String) : ({} : Compared).Agrees runId :=
  ⟨.initial, rfl, rfl, fun _ _ => rfl⟩

/-- A grant to another run moves nothing the lone lease shows. -/
theorem Agrees.grantOther (agrees : compared.Agrees runId) {attempt : MintedAttempt}
    (fresh : compared.history.lease.attempts attempt.key = none) (free : compared.history.lease.held attempt.runId = none)
    (other : attempt.runId ≠ runId) : Agrees runId { compared with history := compared.history.grantTo attempt } := by
  obtain ⟨ruled, generation, held, attempts⟩ := agrees
  refine ⟨ruled.grant fresh free, ?_, ?_, ?_⟩
  · rw [generations_other other]; exact generation
  · simp only [grantTo_held, Function.update_of_ne (Ne.symm other), ruled.held_kept attempt]
    exact held
  · intro own same
    have different : own ≠ attempt := fun equal => other (equal ▸ same)
    simp only [grantTo_attempts, update_other different, ruled.said_kept attempt same]
    exact attempts own same

/-- A grant to the run itself, made at both leases. -/
theorem Agrees.grantOwn (attempt : MintedAttempt) (agrees : compared.Agrees attempt.runId)
    (fresh : compared.history.lease.attempts attempt.key = none) (free : compared.history.lease.held attempt.runId = none) :
    Agrees attempt.runId
      { history := compared.history.grantTo attempt
        alone :=
          { generation := compared.alone.generation + 1
            held := Function.update compared.alone.held attempt.runId (some (compared.alone.generation + 1))
            attempts := Function.update compared.alone.attempts attempt.key
              (some (.granted (compared.alone.generation + 1))) } } := by
  obtain ⟨ruled, generation, held, attempts⟩ := agrees
  have next := ordinal_next ruled attempt
  rw [← generation] at next
  refine ⟨ruled.grant fresh free, ?_, ?_, ?_⟩
  · simp [generation]
  · simp [next]
  · intro own same
    by_cases one : own = attempt
    · subst one
      simp [said, next]
    · simp only [grantTo_attempts, update_other one, ruled.said_kept attempt same]
      exact attempts own same

/-- An operation on another run moves nothing the lone lease shows. -/
theorem Agrees.elsewhere (agrees : compared.Agrees runId) (operation : LeaseOperation) (other : operation.runId ≠ runId) :
    (compared.act runId operation).Agrees runId := by
  have stays : compared.act runId operation = { compared with history := compared.history.act operation } := by
    simp [act, other]
  rw [stays]
  cases operation with
  | claim attempt aborted =>
    rcases agrees.ruled.claim_cases attempt aborted with same | ⟨fresh, free, _, granted⟩
    · rw [same]; exact agrees
    · rw [granted]; exact agrees.grantOther fresh free other
  | abandon attempt =>
    refine ⟨agrees.ruled.act _, agrees.generation, ?_, ?_⟩
    · have held : (compared.history.lease.abandon attempt.runId attempt.attemptId).held runId =
          compared.history.lease.held runId := by
        rcases compared.history.lease.abandon_held attempt.runId attempt.attemptId with ⟨_, _, _, held⟩ | ⟨_, held⟩
        · rw [held]; exact Function.update_of_ne (Ne.symm other) _ _
        · rw [held]
      exact agrees.held.trans (congrArg (Option.map _) held.symm)
    · intro own same
      obtain ⟨generation, attempts⟩ := compared.history.lease.abandon_attempts attempt.runId attempt.attemptId
      have different : own ≠ attempt := fun equal => other (equal ▸ same)
      refine (agrees.attempts own same).trans (congrArg (Option.map _) ?_)
      exact (update_other different _ _).symm.trans (congrFun attempts.symm own.key)
  | renew _ _ => exact agrees
  | release released generation =>
    refine ⟨agrees.ruled.act _, agrees.generation, ?_, ?_⟩
    · have held : (compared.history.lease.release released generation).held runId =
          compared.history.lease.held runId := by
        unfold InMemoryRunLease.release
        split
        · exact Function.update_of_ne (Ne.symm other) _ _
        · rfl
      exact agrees.held.trans (congrArg (Option.map _) held.symm)
    · intro own same
      have attempts : (compared.history.lease.release released generation).attempts = compared.history.lease.attempts := by
        unfold InMemoryRunLease.release
        split <;> rfl
      exact (agrees.attempts own same).trans (congrArg (Option.map _) (congrFun attempts.symm own.key))

/-- Whether the run is held at a generation reads the same by its place. -/
theorem Agrees.current (agrees : compared.Agrees runId) (generation : Nat) :
    compared.alone.held runId = some (compared.history.grants.ordinal runId generation) ↔
      compared.history.lease.held runId = some generation := by
  rw [agrees.held]
  cases known : compared.history.lease.held runId with
  | none => simp
  | some holder =>
    simp only [Option.map_some, Option.some.injEq]
    exact ordinal_inj (agrees.ruled.held_generation known)

/-- What an operation on the run is answered at the lone lease, and that they agree after. -/
def Follows (runId : String) (compared : Compared) (operation : LeaseOperation) : Prop :=
  (compared.asked runId operation).1 =
      (compared.history.lease.operate operation).1.rename ((compared.history.act operation).grants.ordinal runId) ∧
    (compared.act runId operation).Agrees runId

private theorem Agrees.claim (attempt : MintedAttempt) (agrees : compared.Agrees attempt.runId) (aborted : Bool) :
    compared.Follows attempt.runId (.claim attempt aborted) := by
  have ruled := agrees.ruled
  have recorded := agrees.attempts attempt rfl
  have key : InMemoryRunLease.attemptKey attempt.runId attempt.attemptId = attempt.key := rfl
  simp only [Follows, act, asked, LeaseOperation.rename, LeaseOperation.runId, InMemoryRunLease.operate, if_true]
  cases known : compared.history.lease.attempts attempt.key with
  | none =>
    have unknown : compared.alone.attempts attempt.key = none := by simpa [known] using recorded
    cases aborted with
    | true =>
      simp only [LeaseHistory.act, InMemoryRunLease.operate, InMemoryRunLease.claim, key, known, unknown, if_true,
        Grants.observe]
      exact ⟨rfl, agrees⟩
    | false =>
      cases held : compared.history.lease.held attempt.runId with
      | some holder =>
        have same := (agrees.current holder).mpr held
        simp only [LeaseHistory.act, InMemoryRunLease.operate, InMemoryRunLease.claim, key, known, unknown, held, same,
          Bool.false_eq_true, if_false, Grants.observe]
        exact ⟨rfl, agrees⟩
      | none =>
        have free : compared.alone.held attempt.runId = none := by rw [agrees.held, held]; rfl
        rcases ruled.claim_cases attempt false with unmoved | ⟨_, _, answered, granted⟩
        · have grown := congrArg (fun history => history.lease.generation) unmoved
          simp only [LeaseHistory.act, InMemoryRunLease.operate, InMemoryRunLease.claim, key, known, held,
            Bool.false_eq_true, if_false] at grown
          exact absurd grown (Nat.succ_ne_self _)
        · have next := ordinal_next ruled attempt
          rw [← agrees.generation] at next
          have claimed := congrArg Prod.fst answered
          simp only [InMemoryRunLease.operate] at claimed
          rw [claimed, granted]
          simp only [InMemoryRunLease.claim, key, unknown, free, Bool.false_eq_true, if_false, LeaseAnswer.rename, next,
            true_and]
          exact agrees.grantOwn attempt known held
  | some record =>
    rw [known] at recorded
    cases record with
    | abandoned generation =>
      obtain ⟨other, alone⟩ : ∃ other, compared.alone.attempts attempt.key = some (.abandoned other) := by
        cases there : compared.alone.attempts attempt.key with
        | none => simp [there] at recorded
        | some record => cases record <;> simp_all [said]
      simp only [LeaseHistory.act, InMemoryRunLease.operate, InMemoryRunLease.claim, key, known, alone, Grants.observe]
      exact ⟨rfl, agrees⟩
    | granted generation =>
      have alone : compared.alone.attempts attempt.key =
          some (.granted (compared.history.grants.ordinal attempt.runId generation)) := by
        cases there : compared.alone.attempts attempt.key with
        | none => simp [there] at recorded
        | some record => cases record <;> simp_all [said]
      have listed := ((ruled.granted attempt generation).mp known).1
      have same := agrees.current generation
      by_cases current : compared.history.lease.held attempt.runId = some generation
      · simp only [LeaseHistory.act, InMemoryRunLease.operate, InMemoryRunLease.claim, key, known, alone, current,
          same.mpr current, if_true, Grants.observe, if_pos listed]
        exact ⟨rfl, agrees⟩
      · have gone : compared.alone.held attempt.runId ≠
            some (compared.history.grants.ordinal attempt.runId generation) := fun equal => current (same.mp equal)
        simp only [LeaseHistory.act, InMemoryRunLease.operate, InMemoryRunLease.claim, key, known, alone, if_neg current,
          if_neg gone, Grants.observe]
        exact ⟨rfl, agrees⟩

private theorem Agrees.abandon (attempt : MintedAttempt) (agrees : compared.Agrees attempt.runId) :
    compared.Follows attempt.runId (.abandon attempt) := by
  have key : InMemoryRunLease.attemptKey attempt.runId attempt.attemptId = attempt.key := rfl
  have recorded := agrees.attempts attempt rfl
  refine ⟨rfl, ?_⟩
  simp only [act, asked, LeaseOperation.rename, LeaseOperation.runId, InMemoryRunLease.operate, if_true]
  refine ⟨agrees.ruled.act (.abandon attempt), ?_, ?_, ?_⟩
  · rw [InMemoryRunLease.abandon_generation]
    exact agrees.generation
  · change (compared.alone.abandon attempt.runId attempt.attemptId).held attempt.runId =
      ((compared.history.lease.abandon attempt.runId attempt.attemptId).held attempt.runId).map
        (compared.history.grants.ordinal attempt.runId)
    -- The grant is current at one lease just when it is at the other.
    rcases compared.history.lease.abandon_held attempt.runId attempt.attemptId with
      ⟨generation, known, current, held⟩ | ⟨spent, held⟩
    · rcases compared.alone.abandon_held attempt.runId attempt.attemptId with ⟨_, _, _, alone⟩ | ⟨gone, alone⟩
      · rw [held, alone, Function.update_self, Function.update_self]; rfl
      · exfalso
        rw [key] at known
        rw [known] at recorded
        cases there : compared.alone.attempts attempt.key with
        | none => simp [there] at recorded
        | some record =>
          cases record with
          | abandoned _ => simp [there, said] at recorded
          | granted other =>
            have same : other = compared.history.grants.ordinal attempt.runId generation := by
              simpa [there, said] using recorded
            exact gone other (key ▸ there) (same ▸ (agrees.current generation).mpr current)
    · rcases compared.alone.abandon_held attempt.runId attempt.attemptId with ⟨other, there, now, alone⟩ | ⟨_, alone⟩
      · exfalso
        rw [key] at there
        rw [there] at recorded
        cases known : compared.history.lease.attempts attempt.key with
        | none => simp [known] at recorded
        | some record =>
          cases record with
          | abandoned _ => simp [known, said] at recorded
          | granted generation =>
            have same : other = compared.history.grants.ordinal attempt.runId generation := by
              simpa [known, said] using recorded
            exact spent generation (key ▸ known) ((agrees.current generation).mp (same ▸ now))
      · rw [held, alone]
        exact agrees.held
  · intro own same
    obtain ⟨generation, attempts⟩ := compared.history.lease.abandon_attempts attempt.runId attempt.attemptId
    obtain ⟨other, alone⟩ := compared.alone.abandon_attempts attempt.runId attempt.attemptId
    rw [key] at attempts alone
    change ((compared.alone.abandon attempt.runId attempt.attemptId).attempts own.key).map (said id) =
      ((compared.history.lease.abandon attempt.runId attempt.attemptId).attempts own.key).map
        (said (compared.history.grants.ordinal attempt.runId))
    rw [attempts, alone]
    by_cases one : own = attempt
    · subst one
      simp [said]
    · rw [update_other one, update_other one]
      exact agrees.attempts own same

private theorem Agrees.release (agrees : compared.Agrees runId) (generation : Nat) :
    compared.Follows runId (.release runId generation) := by
  refine ⟨rfl, ?_⟩
  have same := agrees.current generation
  have ruled := agrees.ruled.act (.release runId generation)
  simp only [act, asked, LeaseOperation.rename, LeaseOperation.runId, InMemoryRunLease.operate, if_true] at ruled ⊢
  by_cases current : compared.history.lease.held runId = some generation
  · refine ⟨ruled, ?_, ?_, ?_⟩
    all_goals simp only [LeaseHistory.act, InMemoryRunLease.operate, InMemoryRunLease.release, if_pos current,
      if_pos (same.mpr current), Grants.observe]
    · exact agrees.generation
    · simp
    · exact agrees.attempts
  · have gone : compared.alone.held runId ≠ some (compared.history.grants.ordinal runId generation) :=
      fun equal => current (same.mp equal)
    refine ⟨ruled, ?_, ?_, ?_⟩
    all_goals simp only [LeaseHistory.act, InMemoryRunLease.operate, InMemoryRunLease.release, if_neg current,
      if_neg gone, Grants.observe]
    · exact agrees.generation
    · exact agrees.held
    · exact agrees.attempts

/-- Every operation on the run is answered the same at both leases, by the new places. -/
theorem Agrees.follows (agrees : compared.Agrees runId) (operation : LeaseOperation) (own : operation.runId = runId) :
    compared.Follows runId operation := by
  subst own
  cases operation with
  | claim attempt aborted => exact agrees.claim attempt aborted
  | abandon attempt => exact agrees.abandon attempt
  | renew runId generation =>
    have same := agrees.current generation
    refine ⟨?_, ?_⟩
    · simp [asked, LeaseOperation.rename, LeaseOperation.runId, InMemoryRunLease.operate, InMemoryRunLease.renew,
        LeaseAnswer.rename] at same ⊢
      exact same
    · simp only [act, asked, LeaseOperation.rename, LeaseOperation.runId, InMemoryRunLease.operate, if_true]
      exact agrees
  | release runId generation => exact agrees.release generation

theorem Agrees.act (agrees : compared.Agrees runId) (operation : LeaseOperation) :
    (compared.act runId operation).Agrees runId := by
  by_cases own : operation.runId = runId
  · exact (agrees.follows operation own).2
  · exact agrees.elsewhere operation own

theorem history_after (runId : String) (operations : List LeaseOperation) (compared : Compared) :
    (after (Compared.act runId) compared operations).history = after LeaseHistory.act compared.history operations := by
  induction operations generalizing compared with
  | nil => rfl
  | cons operation rest ih => exact ih (compared.act runId operation)

end Compared

/-- Ownership after any sequence of operations. A holder that is not current changes
nothing by releasing, and by abandoning nothing but its own attempt's record. -/
theorem lease_safety (operations : List LeaseOperation) :
    let history := after LeaseHistory.act {} operations
    (∀ runId first second, history.grants.Current runId first → history.grants.Current runId second → first = second) ∧
    (history.grants.granted.map (·.2)).Pairwise (· < ·) ∧
    (history.grants.granted.map (·.1)).Nodup ∧
    (∀ attempt, history.Spent attempt → ∀ later aborted generation,
      ((after LeaseHistory.act history later).lease.operate (.claim attempt aborted)).1 ≠ .claimed (.ok generation)) ∧
    (∀ runId generation, (history.lease.operate (.renew runId generation)).1 = .renewed true ↔
      history.grants.Current runId generation) ∧
    (∀ runId generation, ¬history.grants.Current runId generation →
      (history.lease.operate (.release runId generation)).2 = history.lease) ∧
    (∀ attempt : MintedAttempt, (∀ generation, (attempt, generation) ∉ history.grants.standing) →
      let abandoned := (history.lease.operate (.abandon attempt)).2
      abandoned.held = history.lease.held ∧ abandoned.generation = history.lease.generation ∧
        ∀ other : MintedAttempt, other ≠ attempt → abandoned.attempts other.key = history.lease.attempts other.key) ∧
    ∀ runId operation, operation.runId = runId →
      ((after (Compared.act runId) {} operations).asked runId operation).1 =
        (history.lease.operate operation).1.rename ((history.act operation).grants.ordinal runId) := by
  intro history
  have ruled : history.Ruled := invariant_after LeaseHistory.Ruled (fun _ operation kept => kept.act operation) .initial operations
  refine ⟨?_, ruled.increasing, ruled.single, ?_, ?_, ?_, ?_, ?_⟩
  · intro runId first second one other
    exact Option.some.inj (((ruled.held runId first).mpr one).symm.trans ((ruled.held runId second).mpr other))
  · intro attempt spent later aborted generation
    have kept := invariant_after (fun history : LeaseHistory => history.Ruled ∧ history.Spent attempt)
      (fun _ operation kept => ⟨kept.1.act operation, kept.1.spent_stays kept.2 operation⟩) ⟨ruled, spent⟩ later
    exact kept.1.spent_refused kept.2 aborted generation
  · intro runId generation
    rw [← ruled.held runId generation]
    simp [InMemoryRunLease.operate, InMemoryRunLease.renew]
  · intro runId generation stale
    have gone : history.lease.held runId ≠ some generation := fun held => stale ((ruled.held runId generation).mp held)
    simp [InMemoryRunLease.operate, InMemoryRunLease.release, gone]
  · intro attempt loose abandoned
    refine ⟨?_, history.lease.abandon_generation _ _, ?_⟩
    · rcases history.lease.abandon_held attempt.runId attempt.attemptId with ⟨generation, known, current, _⟩ | ⟨_, held⟩
      · obtain ⟨other, standing, _⟩ := (ruled.held attempt.runId generation).mp current
        have granted := ((ruled.granted attempt generation).mp known).1
        obtain rfl := ruled.owner granted (ruled.standing _ standing).1
        exact absurd standing (loose generation)
      · exact held
    · intro other different
      obtain ⟨generation, attempts⟩ := history.lease.abandon_attempts attempt.runId attempt.attemptId
      exact (congrFun attempts other.key).trans (update_other different _ _)
  · intro runId operation own
    have agrees : (after (Compared.act runId) {} operations).Agrees runId :=
      invariant_after (Compared.Agrees runId) (fun _ operation kept => kept.act operation) (.initial runId) operations
    have follows := (agrees.follows operation own).1
    rw [Compared.history_after] at follows
    exact follows

/-- Abandoning is not nothing for a caller that holds nothing: an attempt that was
turned away is never granted, and one whose grant is over is refused in other words. -/
theorem abandon_without_holding :
    let first : MintedAttempt := ⟨"run", "a", by decide⟩
    let second : MintedAttempt := ⟨"run", "b", by decide⟩
    let answer (operations : List LeaseOperation) (attempt : MintedAttempt) :=
      ((after LeaseHistory.act {} operations).lease.operate (.claim attempt false)).1
    let waited : List LeaseOperation := [.claim first false, .claim second false]
    let released : List LeaseOperation := [.claim first false, .release "run" 1]
    (after LeaseHistory.act {} waited).grants.standing = [(first, 1)] ∧
    answer (waited ++ [.release "run" 1]) second = .claimed (.ok 2) ∧
    answer (waited ++ [.abandon second, .release "run" 1]) second = .claimed (.refused .abandoned) ∧
    (after LeaseHistory.act {} released).grants.standing = [] ∧
    answer released first = .claimed (.refused .resolved) ∧
    answer (released ++ [.abandon first]) first = .claimed (.refused .abandoned) := by
  decide

end SecureHome.RunState
