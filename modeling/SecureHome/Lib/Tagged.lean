import Mathlib.Data.List.Basic

/-! Rows that may belong to a transaction. A reader sees a row when it belongs to
none or when its transaction has been published. -/

namespace SecureHome.Lib

variable {Row Tag : Type*} (tag : Row → Option Tag)

/-- Whether a row with this tag may be read. -/
def readable (published : Tag → Bool) : Option Tag → Bool
  | none => true
  | some transaction => published transaction

def visible (published : Tag → Bool) (rows : List Row) : List Row :=
  rows.filter fun row => readable published (tag row)

section Visible

variable {tag} {published : Tag → Bool} {transaction : Tag}

@[simp] theorem visible_nil : visible tag published [] = [] := rfl

@[simp] theorem visible_append (first rest : List Row) :
    visible tag published (first ++ rest) = visible tag published first ++ visible tag published rest := by
  simp [visible]

theorem mem_visible {row : Row} {rows : List Row} :
    row ∈ visible tag published rows ↔ row ∈ rows ∧ readable published (tag row) = true := by simp [visible]

/-- Rows of an unpublished transaction are unseen. -/
theorem visible_hidden (hidden : published transaction = false) {rows : List Row}
    (tagged : ∀ row ∈ rows, tag row = some transaction) : visible tag published rows = [] := by
  simp only [visible, List.filter_eq_nil_iff]
  intro row member
  simp [tagged row member, readable, hidden]

theorem readable_mono {later : Tag → Bool} (grown : ∀ transaction, published transaction = true →
    later transaction = true) {mark : Option Tag} (seen : readable published mark = true) :
    readable later mark = true := by
  cases mark with
  | none => rfl
  | some transaction => exact grown transaction seen

/-- Publishing more transactions only ever adds to what is seen. -/
theorem visible_mono {later : Tag → Bool} (grown : ∀ transaction, published transaction = true →
    later transaction = true) (rows : List Row) :
    (visible tag published rows).Sublist (visible tag later rows) := by
  induction rows with
  | nil => exact List.Sublist.refl _
  | cons row rows ih =>
    by_cases seen : readable published (tag row) = true
    · simpa [visible, seen, readable_mono grown seen] using ih
    · by_cases shown : readable later (tag row) = true
      · simpa [visible, seen, shown] using ih.cons row
      · simpa [visible, seen, shown] using ih

end Visible

variable [DecidableEq Tag]

/-- The rows of one transaction. -/
def owned (transaction : Tag) (rows : List Row) : List Row :=
  rows.filter fun row => tag row = some transaction

/-- The rows of everybody else. -/
def others (transaction : Tag) (rows : List Row) : List Row :=
  rows.filter fun row => tag row ≠ some transaction

variable {tag} {published : Tag → Bool} {transaction other : Tag}

@[simp] theorem owned_append (first rest : List Row) :
    owned tag transaction (first ++ rest) = owned tag transaction first ++ owned tag transaction rest := by
  simp [owned]

@[simp] theorem others_append (first rest : List Row) :
    others tag transaction (first ++ rest) = others tag transaction first ++ others tag transaction rest := by
  simp [others]

@[simp] theorem owned_nil : owned tag transaction [] = [] := rfl

theorem mem_owned {row : Row} {rows : List Row} :
    row ∈ owned tag transaction rows ↔ row ∈ rows ∧ tag row = some transaction := by simp [owned]

@[simp] theorem owned_others (rows : List Row) : owned tag transaction (others tag transaction rows) = [] := by
  simp [owned, others]

@[simp] theorem others_others (rows : List Row) :
    others tag transaction (others tag transaction rows) = others tag transaction rows := by
  simp [others]

theorem owned_others_of_ne (different : other ≠ transaction) (rows : List Row) :
    owned tag other (others tag transaction rows) = owned tag other rows := by
  simp only [owned, others, List.filter_filter]
  refine List.filter_congr fun row _ => ?_
  by_cases same : tag row = some other <;> simp [same, different]

/-- Dropping an unpublished transaction changes nothing a reader can see. -/
theorem visible_others (hidden : published transaction = false) (rows : List Row) :
    visible tag published (others tag transaction rows) = visible tag published rows := by
  simp only [visible, others, List.filter_filter]
  refine List.filter_congr fun row _ => ?_
  by_cases same : tag row = some transaction <;> simp [same, readable, hidden]

theorem owned_tagged {rows : List Row} (tagged : ∀ row ∈ rows, tag row = some transaction) :
    owned tag transaction rows = rows := by
  simpa [owned, List.filter_eq_self] using tagged

theorem owned_tagged_of_ne (different : other ≠ transaction) {rows : List Row}
    (tagged : ∀ row ∈ rows, tag row = some transaction) : owned tag other rows = [] := by
  simp only [owned, List.filter_eq_nil_iff]
  intro row member
  simp [tagged row member, different.symm]

theorem others_tagged {rows : List Row} (tagged : ∀ row ∈ rows, tag row = some transaction) :
    others tag transaction rows = [] := by
  simp only [others, List.filter_eq_nil_iff]
  intro row member
  simp [tagged row member]

theorem others_of_owned_nil {rows : List Row} (absent : owned tag transaction rows = []) :
    others tag transaction rows = rows := by
  simp only [others, List.filter_eq_self]
  intro row member
  simpa using (List.filter_eq_nil_iff.mp absent) row member

variable (tag) in
/-- The rows of a transaction stand in the store as one run of rows, in order and once. -/
def Contiguous (transaction : Tag) (block rows : List Row) : Prop :=
  ∃ before rest, rows = before ++ block ++ rest ∧
    owned tag transaction before = [] ∧ owned tag transaction rest = [] ∧ owned tag transaction block = block

theorem Contiguous.pushed {block rows : List Row} (absent : owned tag transaction rows = [])
    (tagged : owned tag transaction block = block) : Contiguous tag transaction block (rows ++ block) :=
  ⟨rows, [], by simp, absent, rfl, tagged⟩

theorem Contiguous.append {block rows more : List Row} (contiguous : Contiguous tag transaction block rows)
    (foreign : owned tag transaction more = []) : Contiguous tag transaction block (rows ++ more) := by
  obtain ⟨before, rest, rfl, clear, clear', tagged⟩ := contiguous
  exact ⟨before, rest ++ more, by simp, clear, by simp [clear', foreign], tagged⟩

theorem Contiguous.owned {block rows : List Row} (contiguous : Contiguous tag transaction block rows) :
    owned tag transaction rows = block := by
  obtain ⟨before, rest, rfl, clear, clear', tagged⟩ := contiguous
  simp [clear, clear', tagged]

/-- Another transaction leaving does not break the run apart. -/
theorem Contiguous.others {block rows : List Row} (contiguous : Contiguous tag transaction block rows)
    (different : transaction ≠ other) : Contiguous tag transaction block (others tag other rows) := by
  obtain ⟨before, rest, rfl, clear, clear', tagged⟩ := contiguous
  have kept : Lib.others tag other block = block := by
    refine List.filter_eq_self.mpr fun row member => ?_
    have mine : tag row = some transaction := by
      have := List.filter_eq_self.mp tagged row member
      simpa using this
    simp [mine, different]
  refine ⟨Lib.others tag other before, Lib.others tag other rest, by simp [kept], ?_, ?_, tagged⟩
  · rw [owned_others_of_ne different, clear]
  · rw [owned_others_of_ne different, clear']

/-- Once its transaction is published a reader sees the whole run of rows, in order and once. -/
theorem Contiguous.visible {block rows : List Row} (contiguous : Contiguous tag transaction block rows)
    (shown : published transaction = true) :
    ∃ before rest, visible tag published rows = before ++ block ++ rest ∧
      Lib.owned tag transaction before = [] ∧ Lib.owned tag transaction rest = [] := by
  obtain ⟨before, rest, rfl, clear, clear', tagged⟩ := contiguous
  have whole : Lib.visible tag published block = block := by
    refine List.filter_eq_self.mpr fun row member => ?_
    have mine : tag row = some transaction := by
      simpa using List.filter_eq_self.mp tagged row member
    simp [mine, readable, shown]
  have clears : ∀ rows : List Row, Lib.owned tag transaction rows = [] →
      Lib.owned tag transaction (Lib.visible tag published rows) = [] := by
    intro rows absent
    refine List.filter_eq_nil_iff.mpr fun row member => ?_
    exact List.filter_eq_nil_iff.mp absent row (mem_visible.mp member).1
  exact ⟨_, _, by simp [whole], clears _ clear, clears _ clear'⟩

variable (tag) in
/-- What one transaction may do to a store: push rows of its own, leave, or both in turn. -/
inductive Moves (transaction : Tag) : List Row → List Row → Prop where
  | still (rows : List Row) : Moves transaction rows rows
  | pushed (rows block : List Row) (tagged : ∀ row ∈ block, tag row = some transaction) :
    Moves transaction rows (rows ++ block)
  | left (rows : List Row) : Moves transaction rows (others tag transaction rows)
  | trans {rows middle last : List Row} (first : Moves transaction rows middle) (rest : Moves transaction middle last) :
    Moves transaction rows last

namespace Moves

variable {rows rows' : List Row}

/-- Nobody else's rows move. -/
theorem others (moves : Moves tag transaction rows rows') :
    Lib.others tag transaction rows' = Lib.others tag transaction rows := by
  induction moves with
  | still => rfl
  | pushed rows block tagged => rw [others_append, others_tagged tagged, List.append_nil]
  | left rows => exact others_others rows
  | trans _ _ first rest => exact rest.trans first

theorem owned_of_ne (moves : Moves tag transaction rows rows') (different : other ≠ transaction) :
    Lib.owned tag other rows' = Lib.owned tag other rows := by
  induction moves with
  | still => rfl
  | pushed rows block tagged => rw [owned_append, owned_tagged_of_ne different tagged, List.append_nil]
  | left rows => exact owned_others_of_ne different rows
  | trans _ _ first rest => exact rest.trans first

/-- While the transaction is unpublished a reader sees none of it. -/
theorem visible (moves : Moves tag transaction rows rows') (hidden : published transaction = false) :
    Lib.visible tag published rows' = Lib.visible tag published rows := by
  induction moves with
  | still => rfl
  | pushed rows block tagged => rw [visible_append, visible_hidden hidden tagged, List.append_nil]
  | left rows => exact visible_others hidden rows
  | trans _ _ first rest => exact rest.trans first

theorem contiguous {block : List Row} (moves : Moves tag transaction rows rows') (different : other ≠ transaction)
    (contiguous : Contiguous tag other block rows) : Contiguous tag other block rows' := by
  induction moves with
  | still => exact contiguous
  | pushed rows more tagged => exact contiguous.append (owned_tagged_of_ne different tagged)
  | left rows => exact contiguous.others different
  | trans _ _ first rest => exact rest (first contiguous)

end Moves

end SecureHome.Lib
