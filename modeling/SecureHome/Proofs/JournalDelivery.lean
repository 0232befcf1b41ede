import SecureHome.Proofs.MachineHistory
import SecureHome.Proofs.Participants
import SecureHome.RunState.Outbox

/-! Landing an outbox in the journal, whatever becomes of each append: in order, once,
and in full by the time the outbox is empty. -/

namespace SecureHome.RunState
open Lib Lifecycle Ports

/-- What becomes of one append. Only the first is both landed and heard of. -/
inductive AppendFate where
  | acknowledged
  | unacknowledged
  | unlanded
  | refused (reason : FenceReason) (detail : String)
  deriving DecidableEq, Repr

/-- A run's machine and outbox over a journal, with what they ever recorded, asked and
landed. -/
structure Delivery where
  fence : RunFence
  history : MachineHistory
  outbox : JournalOutbox
  journal : InMemoryRunJournal
  fenceLost : Bool := false
  recorded : List OutboxEntry := []
  asked : List OutboxEntry := []
  landings : List OutboxEntry := []

namespace Delivery

def page (delivery : Delivery) : JournalPages := delivery.journal.page delivery.fence.runId

/-- Facts entering the outbox. -/
def enqueue (delivery : Delivery) (facts : List JournalFact) : Delivery :=
  let outbox := facts.foldl JournalOutbox.record delivery.outbox
  { delivery with
    outbox
    recorded := delivery.recorded ++ outbox.pending.drop delivery.outbox.pending.length }

def drain (delivery : Delivery) : Delivery :=
  let machine := delivery.history.machine
  let enqueued := delivery.enqueue
    (machine.pendingTransitions.map JournalFact.transition ++ machine.pendingRejections.map JournalFact.rejection)
  { enqueued with history := { delivery.history with machine := (delivery.outbox.drainMachine machine).2 } }

/-- An append reaching the journal. It lands when its identity was free. -/
def deliver (delivery : Delivery) (entry : OutboxEntry) : FenceOutcome × Delivery :=
  let appended := delivery.journal.append delivery.fence entry.entryId entry.fact
  (appended.1,
    { delivery with
      journal := appended.2
      landings := if appended.1 = .ok ∧ delivery.page.seen entry.entryId = none then delivery.landings ++ [entry]
        else delivery.landings })

/-- The flush loop under the fates its appends meet. A call with no fate left hangs
until its boundary unwinds it. -/
def flushPending : Nat → List AppendFate → Delivery → Delivery
  | 0, _, delivery => delivery
  | entries + 1, fates, delivery =>
    match delivery.outbox.head with
    | none => delivery
    | some entry =>
      let asking := { delivery with asked := delivery.asked ++ [entry] }
      match fates with
      | [] | .unlanded :: _ => asking
      | .unacknowledged :: _ => (asking.deliver entry).2
      | .refused .conflictingReplay _ :: _ => asking
      | .refused .staleFence _ :: _ => { asking with fenceLost := true }
      | .acknowledged :: rest =>
        match asking.deliver entry with
        | (.ok, landed) => flushPending entries rest { landed with outbox := landed.outbox.landed }
        | (.refused .conflictingReplay _, stuck) => stuck
        | (.refused .staleFence _, stale) => { stale with fenceLost := true }

def flush (delivery : Delivery) (fates : List AppendFate) : Delivery :=
  if delivery.fenceLost then delivery
  else flushPending delivery.drain.outbox.pending.length fates delivery.drain

inductive Action where
  | operate (operation : MachineOperation)
  | record (fact : JournalFact)
  | flush (fates : List AppendFate)
  /-- An append that was asked for once reaches the journal after all. -/
  | arrives (entry : OutboxEntry)

def act (delivery : Delivery) : Action → Delivery
  | .operate operation => { delivery with history := delivery.history.operate operation }
  | .record fact => delivery.enqueue [fact]
  | .flush fates => delivery.flush fates
  | .arrives entry => if entry ∈ delivery.asked then (delivery.deliver entry).2 else delivery

end Delivery

/-- The identity an outbox mints after `position` others. -/
def JournalOutbox.identity (outbox : JournalOutbox) (position : Nat) : String :=
  s!"{outbox.identityPrefix}#j{position + 1}"

theorem JournalOutbox.identity_injective {outbox : JournalOutbox} {first second : Nat}
    (same : outbox.identity first = outbox.identity second) : first = second := by
  have spelled := congrArg String.toList same
  simp only [identity, toString, String.toList_append, List.append_cancel_left_eq] at spelled
  have digits : Nat.toDigits 10 (first + 1) = Nat.toDigits 10 (second + 1) := by simpa using spelled
  have numbers := congrArg (Nat.ofDigitChars 10 · 0) digits
  simpa using numbers

/-- What entering facts appends to the queue. -/
theorem JournalOutbox.record_all (facts : List JournalFact) (outbox : JournalOutbox) :
    ∃ entries : List OutboxEntry, (facts.foldl record outbox).pending = outbox.pending ++ entries ∧
      (facts.foldl record outbox).minted = outbox.minted + entries.length ∧
      (facts.foldl record outbox).identityPrefix = outbox.identityPrefix ∧
      entries.map (·.fact) = facts ∧
      ∀ position entry, entries[position]? = some entry → entry.entryId = outbox.identity (outbox.minted + position) := by
  induction facts generalizing outbox with
  | nil => exact ⟨[], by simp, rfl, rfl, rfl, fun _ _ absent => by simp at absent⟩
  | cons fact rest ih =>
    obtain ⟨entries, pending, minted, scope, facts, named⟩ := ih (outbox.record fact)
    refine ⟨⟨outbox.identity outbox.minted, fact⟩ :: entries, ?_, ?_, scope, by simp [facts], ?_⟩
    · rw [List.foldl_cons, pending]
      simp [record, identity]
    · rw [List.foldl_cons, minted]
      simp only [record, List.length_cons]
      omega
    · intro position entry found
      cases position with
      | zero => cases found; rfl
      | succ position =>
        have name := named position entry (by simpa using found)
        simpa [record, identity, Nat.add_assoc, Nat.add_comm 1] using name

theorem FenceLedger.refuse_again {ledger : FenceLedger} {fence : RunFence} (admitted : (ledger.refuse fence).1 = none) :
    ((ledger.refuse fence).2.refuse fence).1 = none := by
  unfold refuse at admitted ⊢
  split at admitted
  · simp
  next high known =>
    split at admitted
    · cases admitted
    next current =>
      have bound : ¬fence.generation < max high fence.generation := by omega
      simp [current, bound]

namespace InMemoryRunJournal

variable {journal : InMemoryRunJournal} {fence : RunFence}

/-- A fact already under its identity is acknowledged again and changes no page. -/
theorem append_replay (admitted : (journal.fence.refuse fence).1 = none) {entryId : String} {fact : JournalFact}
    (seen : (journal.page fence.runId).seen entryId = some fact) :
    (journal.append fence entryId fact).1 = .ok ∧ (journal.append fence entryId fact).2.fence = (journal.fence.refuse fence).2 ∧
      (journal.append fence entryId fact).2.page fence.runId = journal.page fence.runId := by
  unfold append
  cases refused : journal.fence.refuse fence with
  | mk detail ledger =>
    rw [refused] at admitted
    cases admitted
    have page : ({ journal with fence := ledger } : InMemoryRunJournal).page fence.runId = journal.page fence.runId := rfl
    simp [JournalPages.classify, page, seen]

/-- A fact under a free identity lands. -/
theorem append_new (admitted : (journal.fence.refuse fence).1 = none) {entryId : String} (fact : JournalFact)
    (free : (journal.page fence.runId).seen entryId = none) :
    (journal.append fence entryId fact).1 = .ok ∧ (journal.append fence entryId fact).2.fence = (journal.fence.refuse fence).2 ∧
      (journal.append fence entryId fact).2.page fence.runId =
        JournalPages.record { journal.page fence.runId with
          seen := Function.update (journal.page fence.runId).seen entryId (some fact) } fact := by
  unfold append
  cases refused : journal.fence.refuse fence with
  | mk detail ledger =>
    rw [refused] at admitted
    cases admitted
    have page : ({ journal with fence := ledger } : InMemoryRunJournal).page fence.runId = journal.page fence.runId := rfl
    simp [JournalPages.classify, page, free]

end InMemoryRunJournal

/-- What the landed facts make of a page: each category in order, and the last hold
unless the run moved since. -/
structure Landed (base page : JournalPages) (facts : List JournalFact) : Prop where
  transitions : page.transitions = base.transitions ++ facts.filterMap fun fact =>
    match fact with | .transition entry => some ⟨entry, none⟩ | _ => none
  rejections : page.rejections = base.rejections ++ facts.filterMap fun fact =>
    match fact with | .rejection entry => some entry | _ => none
  acquisitions : page.acquisitions = base.acquisitions ++ facts.filterMap fun fact =>
    match fact with | .acquisition entry => some entry | _ => none
  held : page.held = facts.foldl (fun held fact =>
    match fact with | .transition _ => none | .hold entry => some entry | _ => held) base.held

theorem Landed.record {base page : JournalPages} {facts : List JournalFact} (landed : Landed base page facts)
    (fact : JournalFact) (seen : String → Option JournalFact) :
    Landed base (JournalPages.record { page with seen } fact) (facts ++ [fact]) := by
  obtain ⟨transitions, rejections, acquisitions, held⟩ := landed
  refine ⟨?_, ?_, ?_, ?_⟩
  all_goals cases fact <;> simp [JournalPages.record, transitions, rejections, acquisitions, held]

namespace Delivery

variable {base : JournalPages} {delivery : Delivery}

/-- The queue is what was recorded less what settled, and what landed is what settled
and perhaps the head. -/
structure Tracked (base : JournalPages) (delivery : Delivery) : Prop where
  minted : delivery.outbox.minted = delivery.recorded.length
  named : ∀ position entry, delivery.recorded[position]? = some entry →
    entry.entryId = delivery.outbox.identity position
  queued : ∃ settled, delivery.recorded = settled ++ delivery.outbox.pending ∧
    (delivery.landings = settled ∨ ∃ head, delivery.outbox.head = some head ∧ delivery.landings = settled ++ [head])
  asked : ∀ entry ∈ delivery.asked, entry ∈ delivery.landings ∨ delivery.outbox.head = some entry
  seen : ∀ position, delivery.page.seen (delivery.outbox.identity position) = (delivery.landings[position]?).map (·.fact)
  admitted : (delivery.journal.fence.refuse delivery.fence).1 = none
  landed : Landed base delivery.page (delivery.landings.map (·.fact))

namespace Tracked

/-- Facts landed in the order they were recorded, with none passed over. -/
theorem lined (tracked : delivery.Tracked base) : delivery.landings <+: delivery.recorded := by
  obtain ⟨settled, recorded, rfl | ⟨head, first, landings⟩⟩ := tracked.queued
  · exact ⟨_, recorded.symm⟩
  · obtain ⟨rest, pending⟩ := List.head?_eq_some_iff.mp first
    refine ⟨rest, ?_⟩
    rw [landings, recorded, pending]
    simp

theorem enqueue (tracked : delivery.Tracked base) (facts : List JournalFact) : (delivery.enqueue facts).Tracked base := by
  obtain ⟨entries, pending, minted, scope, _, named⟩ := JournalOutbox.record_all facts delivery.outbox
  have identity (position : Nat) : (delivery.enqueue facts).outbox.identity position =
      delivery.outbox.identity position := by
    simp only [Delivery.enqueue, JournalOutbox.identity, scope]
  have recorded : (delivery.enqueue facts).recorded = delivery.recorded ++ entries := by
    simp only [Delivery.enqueue, pending, List.drop_left]
  have head : ∀ entry, delivery.outbox.head = some entry → (delivery.enqueue facts).outbox.head = some entry := by
    intro entry first
    obtain ⟨rest, queue⟩ := List.head?_eq_some_iff.mp first
    simp [Delivery.enqueue, JournalOutbox.head, pending, queue]
  refine ⟨?_, ?_, ?_, ?_, ?_, tracked.admitted, tracked.landed⟩
  · rw [recorded, List.length_append, ← tracked.minted]
    exact minted
  · intro position entry found
    rw [recorded] at found
    rw [identity]
    by_cases earlier : position < delivery.recorded.length
    · rw [List.getElem?_append_left earlier] at found
      exact tracked.named position entry found
    · rw [List.getElem?_append_right (Nat.le_of_not_lt earlier)] at found
      rw [named _ entry found, tracked.minted, Nat.add_sub_cancel' (Nat.le_of_not_lt earlier)]
  · obtain ⟨settled, split, ends⟩ := tracked.queued
    refine ⟨settled, ?_, ends.imp id ?_⟩
    · rw [recorded, split, List.append_assoc]
      exact congrArg _ pending.symm
    · rintro ⟨first, isHead, landings⟩
      exact ⟨first, head first isHead, landings⟩
  · intro entry listed
    exact (tracked.asked entry listed).imp id (head entry)
  · intro position
    rw [identity]
    exact tracked.seen position

/-- What was asked for before is known to the journal by its identity. -/
private theorem known (tracked : delivery.Tracked base) {entry : OutboxEntry} (listed : entry ∈ delivery.landings) :
    delivery.page.seen entry.entryId = some entry.fact := by
  obtain ⟨position, found⟩ := List.mem_iff_getElem?.mp listed
  have recorded : delivery.recorded[position]? = some entry := by
    obtain ⟨rest, split⟩ := tracked.lined
    rw [← split, List.getElem?_append_left (List.getElem?_eq_some_iff.mp found).1]
    exact found
  rw [tracked.named position entry recorded, tracked.seen position, found]
  rfl

private theorem again (tracked : delivery.Tracked base) {entry : OutboxEntry} (listed : entry ∈ delivery.landings) :
    (delivery.deliver entry).1 = .ok ∧ (delivery.deliver entry).2.Tracked base ∧
      (delivery.deliver entry).2.landings = delivery.landings := by
  have seen := tracked.known listed
  obtain ⟨answered, fence, page⟩ := InMemoryRunJournal.append_replay tracked.admitted seen
  have landings : (delivery.deliver entry).2.landings = delivery.landings := by
    simp [deliver, seen]
  have same : (delivery.deliver entry).2.page = delivery.page := page
  refine ⟨answered, ⟨tracked.minted, tracked.named, ?_, ?_, ?_, ?_, ?_⟩, landings⟩
  · rw [landings]; exact tracked.queued
  · rw [landings]; exact tracked.asked
  · intro position
    rw [landings, same]
    exact tracked.seen position
  · change ((delivery.journal.append delivery.fence entry.entryId entry.fact).2.fence.refuse delivery.fence).1 = none
    rw [fence]
    exact FenceLedger.refuse_again tracked.admitted
  · rw [landings, same]; exact tracked.landed

private theorem lands (tracked : delivery.Tracked base) {entry : OutboxEntry} (head : delivery.outbox.head = some entry)
    (waiting : entry ∉ delivery.landings) :
    (delivery.deliver entry).1 = .ok ∧ (delivery.deliver entry).2.Tracked base ∧
      (delivery.deliver entry).2.landings = delivery.landings ++ [entry] := by
  obtain ⟨settled, split, rfl | ⟨first, isHead, landings⟩⟩ := tracked.queued
  · obtain ⟨rest, pending⟩ := List.head?_eq_some_iff.mp head
    have place : delivery.recorded[delivery.landings.length]? = some entry := by
      rw [split, pending]
      simp
    have name := tracked.named _ entry place
    have free : delivery.page.seen entry.entryId = none := by
      rw [name, tracked.seen]
      simp
    obtain ⟨answered, fence, page⟩ := InMemoryRunJournal.append_new tracked.admitted entry.fact free
    have landings : (delivery.deliver entry).2.landings = delivery.landings ++ [entry] := by
      simp [deliver, free, answered]
    have stored : (delivery.deliver entry).2.page = JournalPages.record { delivery.page with
        seen := Function.update delivery.page.seen entry.entryId (some entry.fact) } entry.fact := page
    refine ⟨answered, ⟨tracked.minted, tracked.named, ?_, ?_, ?_, ?_, ?_⟩, landings⟩
    · exact ⟨delivery.landings, split, .inr ⟨entry, head, landings⟩⟩
    · intro other listed
      rw [landings]
      exact (tracked.asked other listed).imp (List.mem_append_left _) id
    · intro position
      have kept : (delivery.deliver entry).2.page.seen =
          Function.update delivery.page.seen entry.entryId (some entry.fact) := by
        rw [stored]
        cases entry.fact <;> rfl
      rw [kept, landings, name]
      by_cases here : position = delivery.landings.length
      · subst here
        simp [deliver]
      · have different : delivery.outbox.identity position ≠ delivery.outbox.identity delivery.landings.length :=
          fun same => here (JournalOutbox.identity_injective same)
        rw [show (delivery.deliver entry).2.outbox = delivery.outbox from rfl, Function.update_of_ne different,
          tracked.seen position]
        by_cases below : position < delivery.landings.length
        · rw [List.getElem?_append_left below]
        · have beyond : delivery.landings.length < position := by omega
          rw [List.getElem?_eq_none (Nat.le_of_lt beyond), List.getElem?_eq_none (by simp; omega)]
    · change ((delivery.journal.append delivery.fence entry.entryId entry.fact).2.fence.refuse delivery.fence).1 = none
      rw [fence]
      exact FenceLedger.refuse_again tracked.admitted
    · rw [landings, stored, List.map_append]
      exact tracked.landed.record entry.fact _
  · obtain rfl := Option.some.inj (isHead.symm.trans head)
    exact absurd (by rw [landings]; simp) waiting

/-- An append of what landed or of the head is acknowledged, and the fact is landed then. -/
theorem deliver (tracked : delivery.Tracked base) {entry : OutboxEntry}
    (due : entry ∈ delivery.landings ∨ delivery.outbox.head = some entry) :
    (delivery.deliver entry).1 = .ok ∧ (delivery.deliver entry).2.Tracked base ∧
      entry ∈ (delivery.deliver entry).2.landings := by
  by_cases listed : entry ∈ delivery.landings
  · obtain ⟨answered, kept, landings⟩ := tracked.again listed
    exact ⟨answered, kept, landings ▸ listed⟩
  · obtain ⟨answered, kept, landings⟩ := tracked.lands (due.resolve_left listed) listed
    exact ⟨answered, kept, landings ▸ by simp⟩

/-- A head known to be landed leaves the queue. -/
theorem landed_head (tracked : delivery.Tracked base) {entry : OutboxEntry} (head : delivery.outbox.head = some entry)
    (listed : entry ∈ delivery.landings) : Tracked base { delivery with outbox := delivery.outbox.landed } := by
  obtain ⟨settled, split, ends⟩ := tracked.queued
  obtain ⟨rest, pending⟩ := List.head?_eq_some_iff.mp head
  refine ⟨tracked.minted, tracked.named, ?_, ?_, tracked.seen, tracked.admitted, tracked.landed⟩
  · refine ⟨settled ++ [entry], by simp [split, pending, JournalOutbox.landed], .inl ?_⟩
    rcases ends with same | ⟨first, isHead, landings⟩
    · -- The head is not among what settled: its identity comes after theirs.
      exfalso
      obtain ⟨position, found⟩ := List.mem_iff_getElem?.mp (same ▸ listed)
      have below := (List.getElem?_eq_some_iff.mp found).1
      have early : delivery.recorded[position]? = some entry := by
        rw [split, List.getElem?_append_left below]; exact found
      have late : delivery.recorded[settled.length]? = some entry := by
        rw [split, pending]; simp
      have names := (tracked.named _ entry early).symm.trans (tracked.named _ entry late)
      exact absurd (JournalOutbox.identity_injective names) (Nat.ne_of_lt below)
    · obtain rfl := Option.some.inj (isHead.symm.trans head)
      exact landings
  · intro other asked
    rcases tracked.asked other asked with landed | isHead
    · exact .inl landed
    · exact .inl (Option.some.inj (isHead.symm.trans head) ▸ listed)

theorem asking (tracked : delivery.Tracked base) {entry : OutboxEntry} (head : delivery.outbox.head = some entry) :
    Tracked base { delivery with asked := delivery.asked ++ [entry] } := by
  refine ⟨tracked.minted, tracked.named, tracked.queued, ?_, tracked.seen, tracked.admitted, tracked.landed⟩
  intro other listed
  rcases List.mem_append.mp listed with earlier | last
  · exact tracked.asked other earlier
  · rw [List.mem_singleton.mp last]
    exact .inr head

theorem lose (tracked : delivery.Tracked base) : Tracked base { delivery with fenceLost := true } :=
  ⟨tracked.minted, tracked.named, tracked.queued, tracked.asked, tracked.seen, tracked.admitted, tracked.landed⟩

theorem flushPending (entries : Nat) (fates : List AppendFate) (tracked : delivery.Tracked base) :
    (Delivery.flushPending entries fates delivery).Tracked base := by
  induction entries generalizing fates delivery with
  | zero => exact tracked
  | succ entries ih =>
    unfold Delivery.flushPending
    split
    · exact tracked
    next entry head =>
      have asking := tracked.asking head
      have delivered := asking.deliver (.inr head)
      split
      · exact asking
      · exact asking
      · exact delivered.2.1
      · exact asking
      · exact asking.lose
      next rest =>
        dsimp only
        split
        next landed answered =>
          have same := congrArg Prod.snd answered
          dsimp only at same
          subst same
          exact ih rest (delivered.2.1.landed_head head delivered.2.2)
        next stuck answered =>
          have refused := congrArg Prod.fst answered
          exact nomatch delivered.1.symm.trans refused
        next stale answered =>
          have refused := congrArg Prod.fst answered
          exact nomatch delivered.1.symm.trans refused

theorem act (tracked : delivery.Tracked base) (action : Action) : (delivery.act action).Tracked base := by
  cases action with
  | operate operation =>
    exact ⟨tracked.minted, tracked.named, tracked.queued, tracked.asked, tracked.seen, tracked.admitted, tracked.landed⟩
  | record fact => exact tracked.enqueue [fact]
  | flush fates =>
    simp only [Delivery.act, flush]
    split
    · exact tracked
    · apply flushPending
      have drained := tracked.enqueue
        (delivery.history.machine.pendingTransitions.map JournalFact.transition ++
          delivery.history.machine.pendingRejections.map JournalFact.rejection)
      exact ⟨drained.minted, drained.named, drained.queued, drained.asked, drained.seen, drained.admitted, drained.landed⟩
  | arrives entry =>
    simp only [Delivery.act]
    split
    next asked => exact (tracked.deliver (tracked.asked entry asked)).2.1
    · exact tracked

/-- Landed facts have different identities. -/
theorem distinct (tracked : delivery.Tracked base) : (delivery.landings.map (·.entryId)).Nodup := by
  have named (position : Nat) (entry : OutboxEntry) (found : delivery.landings[position]? = some entry) :
      entry.entryId = delivery.outbox.identity position := by
    apply tracked.named
    obtain ⟨rest, split⟩ := tracked.lined
    rw [← split, List.getElem?_append_left (List.getElem?_eq_some_iff.mp found).1]
    exact found
  apply List.pairwise_iff_getElem.mpr
  intro first second below inside earlier same
  simp only [List.length_map] at below inside
  simp only [List.getElem_map] at same
  rw [named first _ (List.getElem?_eq_getElem below), named second _ (List.getElem?_eq_getElem inside)] at same
  exact Nat.ne_of_lt earlier (JournalOutbox.identity_injective same)

end Tracked

/-- An attempt's outbox over a journal as it found it. -/
def start (journal : InMemoryRunJournal) (fence : RunFence) (history : MachineHistory) (identityPrefix : String) : Delivery :=
  { fence, history, outbox := ⟨identityPrefix, [], 0⟩, journal }

end Delivery

end SecureHome.RunState
