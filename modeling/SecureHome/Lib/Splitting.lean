import Mathlib.Data.List.Basic

/-! Texts as their separated parts. -/

namespace SecureHome.Lib

variable {Symbol : Type*} [DecidableEq Symbol] {separator : Symbol}

/-- No part holds the separator. -/
theorem splitOn_apart {text part : List Symbol} (member : part ∈ text.splitOn separator) : separator ∉ part := by
  induction text generalizing part with
  | nil =>
    rw [List.splitOn_nil, List.mem_singleton] at member
    rw [member]
    exact List.not_mem_nil
  | cons symbol rest ih =>
    rw [List.splitOn_cons_eq_if_modifyHead] at member
    split at member
    · rcases List.mem_cons.mp member with rfl | later
      · exact List.not_mem_nil
      · exact ih later
    next other =>
      cases parts : rest.splitOn separator with
      | nil => exact absurd parts (List.splitOn_ne_nil separator rest)
      | cons first others =>
        rw [parts, List.modifyHead_cons] at member
        rcases List.mem_cons.mp member with rfl | later
        · refine List.not_mem_cons_of_ne_of_not_mem (fun same => other (by simp [same])) (ih ?_)
          rw [parts]
          exact List.mem_cons_self
        · refine ih ?_
          rw [parts]
          exact List.mem_cons_of_mem first later

/-- Splitting joined parts splits every part. -/
theorem splitOn_joined {parts : List (List Symbol)} (some_parts : parts ≠ []) :
    ([separator].intercalate parts).splitOn separator = parts.flatMap (·.splitOn separator) := by
  induction parts with
  | nil => exact absurd rfl some_parts
  | cons part rest ih =>
    cases rest with
    | nil => simp
    | cons next others =>
      rw [List.intercalate_cons_cons, List.append_assoc, List.singleton_append, List.splitOn_append_cons_self,
        ih (List.cons_ne_nil _ _)]
      rfl

omit [DecidableEq Symbol] in
theorem mem_intercalated {parts : List (List Symbol)} {symbol : Symbol} (member : symbol ∈ [separator].intercalate parts) :
    symbol = separator ∨ ∃ part ∈ parts, symbol ∈ part := by
  induction parts with
  | nil => cases member
  | cons part rest ih =>
    cases rest with
    | nil => exact .inr ⟨part, List.mem_cons_self, by simpa using member⟩
    | cons next others =>
      rw [List.intercalate_cons_cons, List.append_assoc, List.singleton_append] at member
      rcases List.mem_append.mp member with here | later
      · exact .inr ⟨part, List.mem_cons_self, here⟩
      · rcases List.mem_cons.mp later with same | later
        · exact .inl same
        · exact (ih later).imp_right fun ⟨other, listed, inside⟩ => ⟨other, List.mem_cons_of_mem _ listed, inside⟩

theorem length_splitOn (text : List Symbol) : (text.splitOn separator).length = text.count separator + 1 := by
  induction text with
  | nil => rfl
  | cons symbol rest ih =>
    rw [List.splitOn_cons_eq_if_modifyHead]
    split
    next same => simp [ih, beq_iff_eq.mp same]
    next other => rw [List.length_modifyHead, ih, List.count_cons_of_ne (fun same => other (by simp [same]))]

theorem splitOn_injective : Function.Injective (List.splitOn separator) := fun first second same => by
  have joined : [separator].intercalate (first.splitOn separator) = first := List.intercalate_splitOn separator
  rw [← joined, same, List.intercalate_splitOn]

omit [DecidableEq Symbol] in
/-- The first separator of a text is one place. -/
theorem first_separated {first second rest others : List Symbol} (apart : separator ∉ first) (other : separator ∉ second)
    (same : first ++ separator :: rest = second ++ separator :: others) : first = second ∧ rest = others := by
  rcases List.append_eq_append_iff.mp same with ⟨between, rfl, split⟩ | ⟨between, rfl, split⟩
  · cases between with
    | nil => exact ⟨(List.append_nil _).symm, (List.cons.inj split).2⟩
    | cons symbol between =>
      rw [(List.cons.inj split).1] at other
      exact absurd (List.mem_append_right _ List.mem_cons_self) other
  · cases between with
    | nil => exact ⟨List.append_nil _, (List.cons.inj split).2.symm⟩
    | cons symbol between =>
      rw [(List.cons.inj split).1] at apart
      exact absurd (List.mem_append_right _ List.mem_cons_self) apart

omit [DecidableEq Symbol] in
/-- The last separator of a text is one place. -/
theorem last_separated {first second rest others : List Symbol} (apart : separator ∉ rest) (other : separator ∉ others)
    (same : first ++ separator :: rest = second ++ separator :: others) : first = second ∧ rest = others := by
  have reversed := congrArg List.reverse same
  simp only [List.reverse_append, List.reverse_cons, List.append_assoc, List.singleton_append] at reversed
  obtain ⟨ends, starts⟩ := first_separated (by simpa using apart) (by simpa using other) reversed
  exact ⟨List.reverse_inj.mp starts, List.reverse_inj.mp ends⟩

end SecureHome.Lib
