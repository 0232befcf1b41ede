import SecureHome.Lib.Reading
import SecureHome.Governance.Canonical

/-! Canonical texts are read in one way: two values written alike have one canonical form. -/

namespace SecureHome.Governance
open Lib

section Quoting

def hexValue (unit : UInt16) : Nat := if unit.toNat < 0x3a then unit.toNat - 0x30 else unit.toNat - 0x57

/-- The unit a short escape stands for. -/
def shortEscape (letter : UInt16) : UInt16 :=
  if letter = 0x62 then 0x08
  else if letter = 0x66 then 0x0c
  else if letter = 0x6e then 0x0a
  else if letter = 0x72 then 0x0d
  else if letter = 0x74 then 0x09
  else letter

/-- The unit at the start of a quoted text, and what follows it. -/
def readUnit : JsString → Option (UInt16 × JsString)
  | [] => none
  | unit :: rest =>
    if unit = 0x5c then
      match rest with
      | [] => none
      | letter :: rest =>
        if letter = 0x75 then
          match rest with
          | first :: second :: third :: fourth :: rest =>
            some (UInt16.ofNat (hexValue first * 0x1000 + hexValue second * 0x100 + hexValue third * 0x10 + hexValue fourth), rest)
          | _ => none
        else some (shortEscape letter, rest)
    else some (unit, rest)

theorem hexValue_hexDigit {digit : Nat} (small : digit < 16) : hexValue (hexDigit digit) = digit := by
  unfold hexValue hexDigit
  split <;> rw [UInt16.toNat_ofNat'] <;> split <;> omega

variable {unit : UInt16} {string other rest rest' : JsString}

theorem readUnit_escapeUnit : readUnit (escapeUnit unit ++ rest) = some (unit, rest) := by
  have bound := unit.toNat_lt
  have number : unit.toNat / 0x1000 * 0x1000 + unit.toNat / 0x100 % 0x10 * 0x100 + unit.toNat / 0x10 % 0x10 * 0x10 +
      unit.toNat % 0x10 = unit.toNat := by omega
  simp only [escapeUnit, readUnit, List.cons_append, List.nil_append, if_true]
  rw [hexValue_hexDigit (by omega), hexValue_hexDigit (by omega), hexValue_hexDigit (by omega), hexValue_hexDigit (by omega),
    number, UInt16.ofNat_toNat]

theorem readUnit_quoteUnit : readUnit (quoteUnit unit ++ rest) = some (unit, rest) := by
  unfold quoteUnit
  split
  next same => rw [same]; rfl
  split
  next same => rw [same]; rfl
  next plain =>
  split
  next same => rw [same]; rfl
  split
  next same => rw [same]; rfl
  split
  next same => rw [same]; rfl
  split
  next same => rw [same]; rfl
  split
  next same => rw [same]; rfl
  split
  · exact readUnit_escapeUnit
  · simp only [readUnit, List.singleton_append, if_neg plain]

/-- A string and the text of its units: one after another, raw or escaped. -/
inductive Spelled : JsString → JsString → Prop where
  | nil : Spelled [] []
  | raw (string text : JsString) (unit : UInt16) (quote : unit ≠ 0x22) (escape : unit ≠ 0x5c) (rest : Spelled string text) :
    Spelled (unit :: string) (unit :: text)
  | quoted (string text : JsString) (unit : UInt16) (rest : Spelled string text) : Spelled (unit :: string) (quoteUnit unit ++ text)

theorem spelled_quoteUnits (string : JsString) : Spelled string (quoteUnits string) := by
  induction string using quoteUnits.induct with
  | case1 => exact .nil
  | case2 unit =>
    have one := Spelled.quoted [] [] unit .nil
    rw [List.append_nil] at one
    exact one
  | case3 high low rest pairs ih =>
    rw [quoteUnits, if_pos pairs]
    simp only [isHigh, isLow, Bool.and_eq_true, decide_eq_true_eq] at pairs
    have apart {unit : UInt16} (large : 0xD800 ≤ unit.toNat) : unit ≠ 0x22 ∧ unit ≠ 0x5c := by
      constructor <;> rintro rfl <;> exact absurd large (by decide)
    obtain ⟨first, second⟩ := apart pairs.1.1
    obtain ⟨third, fourth⟩ := apart (Nat.le_trans (by decide) pairs.2.1)
    exact .raw _ _ high first second (.raw _ _ low third fourth ih)
  | case4 unit next rest alone ih =>
    rw [quoteUnits, if_neg alone]
    exact .quoted _ _ unit ih

/-- What a unit is spelled as is read back, and is not the quote that ends its string. -/
theorem Spelled.head {text : JsString} (spelled : Spelled (unit :: string) text) :
    ∃ more, Spelled string more ∧ (∀ rest, readUnit (text ++ rest) = some (unit, more ++ rest)) ∧
      ∃ first tail, text = first :: tail ∧ first ≠ 0x22 := by
  generalize whole : unit :: string = given at spelled
  cases spelled with
  | nil => cases whole
  | raw _ more _ quote escape rest =>
    cases whole
    refine ⟨more, rest, ?_, unit, more, rfl, quote⟩
    intro after
    simp only [readUnit, List.cons_append, if_neg escape]
  | quoted _ more _ rest =>
    cases whole
    refine ⟨more, rest, ?_, ?_⟩
    · intro after
      rw [List.append_assoc]
      exact readUnit_quoteUnit
    · unfold quoteUnit
      split
      · exact ⟨_, _, rfl, by decide⟩
      next plain =>
      split
      · exact ⟨_, _, rfl, by decide⟩
      split
      · exact ⟨_, _, rfl, by decide⟩
      split
      · exact ⟨_, _, rfl, by decide⟩
      split
      · exact ⟨_, _, rfl, by decide⟩
      split
      · exact ⟨_, _, rfl, by decide⟩
      split
      · exact ⟨_, _, rfl, by decide⟩
      split
      · exact ⟨_, _, rfl, by decide⟩
      · exact ⟨_, _, rfl, plain⟩

theorem Spelled.unique {text text' : JsString} (spelled : Spelled string text) (also : Spelled other text')
    (same : text ++ 0x22 :: rest = text' ++ 0x22 :: rest') : string = other ∧ rest = rest' := by
  induction string generalizing other text text' with
  | nil =>
    cases spelled
    cases other with
    | nil =>
      cases also
      exact ⟨rfl, (List.cons.inj same).2⟩
    | cons unit other =>
      obtain ⟨_, _, _, first, tail, rfl, apart⟩ := also.head
      exact absurd (List.cons.inj same).1.symm apart
  | cons unit string ih =>
    obtain ⟨more, left, reads, first, tail, begins, apart⟩ := spelled.head
    cases other with
    | nil =>
      cases also
      rw [begins] at same
      exact absurd (List.cons.inj same).1 apart
    | cons next other =>
      obtain ⟨more', left', reads', _⟩ := also.head
      have read := congrArg readUnit same
      rw [reads, reads', Option.some.injEq, Prod.mk.injEq] at read
      obtain ⟨rfl, after⟩ := read
      obtain ⟨rfl, done⟩ := ih left left' after
      exact ⟨rfl, done⟩

/-- A quoted string ends where its quote does. -/
theorem quote_unique (same : quote string ++ rest = quote other ++ rest') : string = other ∧ rest = rest' := by
  unfold quote at same
  simp only [List.cons_append, List.append_assoc, List.nil_append] at same
  exact (spelled_quoteUnits string).unique (spelled_quoteUnits other) (List.cons.inj same).2

end Quoting

section Reading

/-- What follows a value in a canonical text. -/
def IsEnd (unit : UInt16) : Prop := unit = 0x2c ∨ unit = 0x0a ∨ unit = 0x5d

inductive ValueSort where
  | null
  | boolean (value : Bool)
  | number
  | string
  | array
  | object
  deriving DecidableEq

def sortOf : Value → ValueSort
  | .null => .null
  | .boolean value => .boolean value
  | .number _ => .number
  | .string _ => .string
  | .array _ => .array
  | .object _ => .object

/-- The sort of value a unit starts. -/
def startsSort (unit : UInt16) : Option ValueSort :=
  if unit = 0x6e then some .null
  else if unit = 0x74 then some (.boolean true)
  else if unit = 0x66 then some (.boolean false)
  else if unit = 0x22 then some .string
  else if unit = 0x5b then some .array
  else if unit = 0x7b then some .object
  else if isNumberUnit unit then some .number
  else none

theorem startsSort_number {unit : UInt16} (plain : isNumberUnit unit = true) : startsSort unit = some .number := by
  have apart {other : UInt16} (outside : isNumberUnit other = false) : unit ≠ other := by
    rintro rfl
    rw [plain] at outside
    cases outside
  unfold startsSort
  rw [if_neg (apart (by decide)), if_neg (apart (by decide)), if_neg (apart (by decide)), if_neg (apart (by decide)),
    if_neg (apart (by decide)), if_neg (apart (by decide)), if_pos plain]

theorem startsSort_end {unit : UInt16} (last : IsEnd unit) : startsSort unit = none := by
  rcases last with rfl | rfl | rfl <;> decide

theorem number_not_end {unit : UInt16} (plain : isNumberUnit unit = true) : ¬ IsEnd unit := by
  intro last
  have tells := startsSort_number plain
  rw [startsSort_end last] at tells
  cases tells

theorem units_inline : units "[" = [0x5b] ∧ units ", " = [0x2c, 0x20] ∧ units "]" = [0x5d] ∧ units "[]" = [0x5b, 0x5d] := by decide

theorem units_lines : units "[\n" = [0x5b, 0x0a] ∧ units ",\n" = [0x2c, 0x0a] ∧ units "\n" = [0x0a] := by decide

theorem units_braces : units "\x7b\n" = [0x7b, 0x0a] ∧ units "\x7d" = [0x7d] ∧ units "\x7b\x7d" = [0x7b, 0x7d] := by decide

variable {indentation : JsString}

/-- A rendered value starts with a unit that tells its sort. -/
theorem render_starts (value : Value) : ∃ first tail, renderCanonical indentation value = first :: tail ∧
    startsSort first = some (sortOf value) := by
  cases value with
  | null => exact ⟨0x6e, units "ull", by rw [renderCanonical]; decide, by decide⟩
  | boolean value =>
    rw [renderCanonical]
    cases value
    · exact ⟨0x66, units "alse", by decide, by decide⟩
    · exact ⟨0x74, units "rue", by decide, by decide⟩
  | number value =>
    rw [renderCanonical]
    obtain ⟨first, tail, whole⟩ := List.exists_cons_of_ne_nil value.some_units
    refine ⟨first, tail, whole, startsSort_number ?_⟩
    have plain := value.plain
    rw [whole, List.all_cons, Bool.and_eq_true] at plain
    exact plain.1
  | string value =>
    rw [renderCanonical, sortOf]
    exact ⟨0x22, _, rfl, by decide⟩
  | array items =>
    rw [renderCanonical, units_inline.2.2.2, units_inline.1, units_lines.1, sortOf]
    split
    · exact ⟨0x5b, _, rfl, by decide⟩
    · split <;> exact ⟨0x5b, _, rfl, by decide⟩
  | object fields =>
    rw [renderCanonical, units_braces.1, units_braces.2.2, sortOf]
    split <;> exact ⟨0x7b, _, rfl, by decide⟩

theorem renderItems_map (items : List Value) : renderItems indentation items = items.map (renderCanonical indentation) := by
  induction items with
  | nil => rfl
  | cons item rest ih => rw [renderItems, ih, List.map_cons]

/-- A property, as it is rendered. -/
def renderField (indentation : JsString) (field : JsString × Value) : JsString :=
  quote field.1 ++ units ": " ++ renderCanonical indentation field.2

theorem renderFields_map (fields : Record) : renderFields indentation fields = fields.map (renderField indentation) := by
  induction fields with
  | nil => rfl
  | cons field rest ih => rw [renderFields, ih, List.map_cons, renderField]

variable {value : Value} {rest rest' : JsString}

/-- A value that starts with another's first unit is of its sort. -/
theorem sort_of_same {other : Value} (same : renderCanonical indentation value ++ rest = renderCanonical indentation other ++ rest') :
    sortOf value = sortOf other := by
  obtain ⟨first, tail, whole, tells⟩ := @render_starts indentation value
  obtain ⟨first', tail', whole', tells'⟩ := @render_starts indentation other
  rw [whole, whole'] at same
  rw [(List.cons.inj same).1, tells'] at tells
  exact (Option.some.inj tells).symm

/-- The members of an array on one line, after its bracket. -/
def inlineText (indentation : JsString) (items : List Value) : JsString :=
  [0x2c, 0x20].intercalate (items.map (renderCanonical indentation)) ++ [0x5d]

/-- The parts of an array or object on lines of their own, after its bracket or brace. -/
def linesText (indentation : JsString) (close : UInt16) (parts : List JsString) : JsString :=
  0x0a :: ([0x2c, 0x0a].intercalate (parts.map (indentation ++ units "  " ++ ·)) ++ 0x0a :: indentation ++ [close])

theorem inlineText_starts {items : List Value} (some_items : items ≠ []) :
    ∃ first tail, inlineText indentation items = first :: tail ∧ ¬ IsEnd first := by
  obtain ⟨item, others, rfl⟩ := List.exists_cons_of_ne_nil some_items
  obtain ⟨first, tail, whole, tells⟩ := @render_starts indentation item
  unfold inlineText
  have apart : ¬ IsEnd first := fun last => by
    rw [startsSort_end last] at tells
    cases tells
  cases others with
  | nil => exact ⟨first, _, by rw [List.map_cons, List.map_nil, List.intercalate_singleton, whole]; rfl, apart⟩
  | cons next others =>
    exact ⟨first, _, by rw [List.map_cons, List.map_cons, List.intercalate_cons_cons, whole]; rfl, apart⟩

/-- How an array is rendered. -/
inductive Layout where
  | empty
  | inline
  | lines

/-- An array after its bracket. -/
def Layout.body (indentation : JsString) (items : List Value) : Layout → JsString
  | empty => [0x5d]
  | inline => inlineText (indentation ++ units "  ") items
  | lines => linesText indentation 0x5d (items.map (renderCanonical (indentation ++ units "  ")))

/-- The layout of an array whose second unit this is. -/
def layoutOf (unit : UInt16) : Layout := if unit = 0x5d then .empty else if unit = 0x0a then .lines else .inline

theorem render_array (items : List Value) : ∃ layout : Layout,
    renderCanonical indentation (.array items) = 0x5b :: layout.body indentation items ∧ (layout = .empty ↔ items = []) := by
  rw [renderCanonical, units_inline.2.2.2, units_inline.1, units_inline.2.1, units_inline.2.2.1, units_lines.1, units_lines.2.1,
    units_lines.2.2, renderItems_map]
  split
  next empty => exact ⟨.empty, rfl, by simpa using empty⟩
  next some_items =>
    split
    · exact ⟨.inline, rfl, by simpa using some_items⟩
    · exact ⟨.lines, by simp [Layout.body, linesText], by simpa using some_items⟩

theorem body_starts {items : List Value} {layout : Layout} (fits : layout = .empty ↔ items = []) :
    ∃ first tail, layout.body indentation items = first :: tail ∧ layoutOf first = layout := by
  cases layout with
  | empty => exact ⟨0x5d, [], rfl, rfl⟩
  | inline =>
    obtain ⟨first, tail, whole, apart⟩ := @inlineText_starts (indentation ++ units "  ") _
      fun empty => Layout.noConfusion (fits.mpr empty)
    refine ⟨first, tail, whole, ?_⟩
    unfold layoutOf
    rw [if_neg fun same => apart (.inr (.inr same)), if_neg fun same => apart (.inr (.inl same))]
  | lines => exact ⟨0x0a, _, rfl, rfl⟩

theorem render_object (fields : Record) :
    fields = [] ∧ renderCanonical indentation (.object fields) = [0x7b, 0x7d] ∨
      fields ≠ [] ∧ renderCanonical indentation (.object fields) =
        0x7b :: linesText indentation 0x7d (fields.map (renderField (indentation ++ units "  "))) := by
  rw [renderCanonical]
  rw [units_braces.1, units_braces.2.1, units_braces.2.2, units_lines.2.1, units_lines.2.2, renderFields_map]
  split
  next empty => exact .inl ⟨List.isEmpty_iff.mp empty, rfl⟩
  next some_fields =>
    exact .inr ⟨fun empty => some_fields (List.isEmpty_iff.mpr empty), by simp [linesText]⟩

/-- Parts on lines of their own are read off one by one. -/
theorem lines_unique {Item : Type} {spell : Item → JsString} {close : UInt16} {items others : List Item}
    (reads : ∀ item ∈ items, ReadsOff spell IsEnd item) (some_items : items ≠ []) (some_others : others ≠ [])
    (same : linesText indentation close (items.map spell) ++ rest = linesText indentation close (others.map spell) ++ rest') :
    items = others ∧ rest = rest' := by
  unfold linesText at same
  rw [List.map_map, List.map_map, List.cons_append, List.cons_append] at same
  have inside : [0x2c, 0x0a].intercalate (items.map fun item => indentation ++ units "  " ++ spell item) ++
      0x0a :: (indentation ++ [close]) ++ rest =
      [0x2c, 0x0a].intercalate (others.map fun item => indentation ++ units "  " ++ spell item) ++
        0x0a :: (indentation ++ [close]) ++ rest' := by
    simpa only [Function.comp_def, List.append_assoc, List.cons_append] using (List.cons.inj same).2
  exact separated_unique (by decide) (.inl rfl) (.inr (.inl rfl))
    (fun item member => (reads item member).after (indentation ++ units "  ")) some_items some_others inside

theorem inline_unique {items others : List Value} (reads : ∀ item ∈ items, ReadsOff (renderCanonical indentation) IsEnd item)
    (some_items : items ≠ []) (some_others : others ≠ [])
    (same : inlineText indentation items ++ rest = inlineText indentation others ++ rest') : items = others ∧ rest = rest' := by
  unfold inlineText at same
  exact separated_unique (by decide) (.inl rfl) (.inr (.inr rfl)) reads some_items some_others same

/-- A property is read off if its value is. -/
theorem field_reads {field : JsString × Value} (reads : ReadsOff (renderCanonical indentation) IsEnd field.2) :
    ReadsOff (renderField indentation) IsEnd field := by
  intro other rest rest' follows follows' same
  unfold renderField at same
  simp only [List.append_assoc] at same
  obtain ⟨name, after⟩ := quote_unique same
  obtain ⟨member, left⟩ := reads follows follows' (List.append_cancel_left after)
  exact ⟨Prod.ext name member, left⟩

/-- An array is read off if its members are: its second unit tells how it is rendered. -/
theorem array_reads {items : List Value} (reads : ∀ item ∈ items, ∀ indentation, ReadsOff (renderCanonical indentation) IsEnd item) :
    ReadsOff (renderCanonical indentation) IsEnd (.array items) := by
  intro other rest rest' _ _ same
  cases other with
  | array others =>
    obtain ⟨layout, text, fits⟩ := @render_array indentation items
    obtain ⟨layout', text', fits'⟩ := @render_array indentation others
    rw [text, text'] at same
    have inside := (List.cons.inj same).2
    have together : layout = layout' := by
      obtain ⟨first, tail, whole, tells⟩ := @body_starts indentation _ _ fits
      obtain ⟨first', tail', whole', tells'⟩ := @body_starts indentation _ _ fits'
      rw [List.append_eq, List.append_eq, whole, whole'] at inside
      rw [← tells, ← tells', (List.cons.inj inside).1]
    subst together
    cases layout with
    | empty =>
      rw [fits.mp rfl, fits'.mp rfl]
      exact ⟨rfl, (List.cons.inj inside).2⟩
    | inline =>
      obtain ⟨equal, after⟩ := inline_unique (fun item member => reads item member _) (fun empty => Layout.noConfusion (fits.mpr empty))
        (fun empty => Layout.noConfusion (fits'.mpr empty)) inside
      exact ⟨congrArg Json.array equal, after⟩
    | lines =>
      obtain ⟨equal, after⟩ := lines_unique (fun item member => reads item member _) (fun empty => Layout.noConfusion (fits.mpr empty))
        (fun empty => Layout.noConfusion (fits'.mpr empty)) inside
      exact ⟨congrArg Json.array equal, after⟩
  | _ => cases sort_of_same same

/-- An object is read off if its properties are: it is empty, or its brace ends a line. -/
theorem object_reads {fields : Record} (reads : ∀ field ∈ fields, ∀ indentation, ReadsOff (renderCanonical indentation) IsEnd field.2) :
    ReadsOff (renderCanonical indentation) IsEnd (.object fields) := by
  intro other rest rest' _ _ same
  cases other with
  | object others =>
    rcases @render_object indentation fields with ⟨rfl, text⟩ | ⟨nonempty, text⟩ <;>
      rcases @render_object indentation others with ⟨rfl, text'⟩ | ⟨nonempty', text'⟩
    · rw [text] at same
      exact ⟨rfl, List.append_cancel_left same⟩
    · rw [text, text'] at same
      exact absurd (List.cons.inj (List.cons.inj same).2).1 (by decide)
    · rw [text, text'] at same
      exact absurd (List.cons.inj (List.cons.inj same).2).1 (by decide)
    · rw [text, text'] at same
      obtain ⟨equal, after⟩ := lines_unique (fun field member => field_reads (reads field member _)) nonempty nonempty'
        (List.cons.inj same).2
      exact ⟨congrArg Json.object equal, after⟩
  | _ => cases sort_of_same same

mutual

/-- No other value is rendered at the start of a text that starts with this one. -/
theorem value_reads : (value : Value) → (indentation : JsString) → ReadsOff (renderCanonical indentation) IsEnd value
  | .null, _ => fun other rest rest' _ _ same => by
    cases other with
    | null => exact ⟨rfl, List.append_cancel_left same⟩
    | _ => cases sort_of_same same
  | .boolean value, _ => fun other rest rest' _ _ same => by
    cases other with
    | boolean other =>
      cases sort_of_same same
      exact ⟨rfl, List.append_cancel_left same⟩
    | _ => cases sort_of_same same
  | .number value, _ => fun other rest rest' follows follows' same => by
    cases other with
    | number other =>
      rw [renderCanonical, renderCanonical] at same
      obtain ⟨texts, after⟩ := run_unique (fun unit member => number_not_end (List.all_eq_true.mp value.plain unit member))
        (fun unit member => number_not_end (List.all_eq_true.mp other.plain unit member)) follows follows' same
      obtain ⟨text, _, _⟩ := value
      obtain ⟨text', _, _⟩ := other
      cases texts
      exact ⟨rfl, after⟩
    | _ => cases sort_of_same same
  | .string value, _ => fun other rest rest' _ _ same => by
    cases other with
    | string other =>
      rw [renderCanonical, renderCanonical] at same
      obtain ⟨rfl, after⟩ := quote_unique same
      exact ⟨rfl, after⟩
    | _ => cases sort_of_same same
  | .array items, _ => array_reads (items_read items)
  | .object fields, _ => object_reads (fields_read fields)

theorem items_read : (items : List Value) → ∀ item ∈ items, ∀ indentation, ReadsOff (renderCanonical indentation) IsEnd item
  | [] => fun _ member => absurd member List.not_mem_nil
  | first :: rest => List.forall_mem_cons.mpr ⟨value_reads first, items_read rest⟩

theorem fields_read : (fields : List (JsString × Value)) → ∀ field ∈ fields, ∀ indentation,
    ReadsOff (renderCanonical indentation) IsEnd field.2
  | [] => fun _ member => absurd member List.not_mem_nil
  | (_, value) :: rest => List.forall_mem_cons.mpr ⟨value_reads value, fields_read rest⟩

end

end Reading

/-- What a text of a value is the text of. -/
def canonical (value : Option Value) : Value := canonicalizeValue [] (canonicalizeValue [] (value.getD .null))

/-- Properties have one text exactly if they have one canonical form. -/
theorem canonicalText_eq_iff {one other : Option Value} : canonicalText one = canonicalText other ↔ canonical one = canonical other := by
  constructor
  · intro same
    have ends : Follows IsEnd (units "\n") := follows_cons (.inr (.inl rfl))
    exact (value_reads (canonical one) [] ends ends same).1
  · intro same
    exact congrArg (fun value => renderCanonical [] value ++ units "\n") same

/-- A string is its own canonical form, and no other value's. -/
theorem canonical_string {value : Option Value} {text : JsString} : canonical value = .string text ↔ value = some (.string text) := by
  constructor
  · intro same
    cases value with
    | none => cases same
    | some value =>
      cases value with
      | string held =>
        cases same
        rfl
      | _ => cases same
  · rintro rfl
    rfl

end SecureHome.Governance
