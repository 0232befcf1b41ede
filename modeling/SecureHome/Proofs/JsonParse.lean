import SecureHome.Governance.JsonParse
import SecureHome.Proofs.StrictJson

/-! The reader of JSON takes exactly the texts of the grammar, each with the tree the grammar gives it. -/

namespace SecureHome.Governance
open Lib

variable {text rest string : JsString} {fuel : ℕ} {tree : Json NumberToken} {unit : UInt16}

section Tokens

variable {blank : JsString}

theorem skipBlanks_append (blanks : Blank blank) (stops : Follows NoBlank rest) : skipBlanks (blank ++ rest) = rest := by
  unfold skipBlanks
  rw [List.dropWhile_append_of_pos (List.all_eq_true.mp blanks)]
  cases rest with
  | nil => rfl
  | cons unit rest =>
    have visible : isBlank unit = false := stops unit rfl
    rw [List.dropWhile_cons_of_neg (by simp [visible])]

theorem skipBlanks_visible (stops : Follows NoBlank rest) : skipBlanks rest = rest := skipBlanks_append (rfl : Blank []) stops

theorem skipBlanks_split (text : JsString) : ∃ blank, Blank blank ∧ text = blank ++ skipBlanks text :=
  ⟨text.takeWhile isBlank, blank_taken, List.takeWhile_append_dropWhile.symm⟩

theorem expectUnit_iff : expectUnit unit text = some rest ↔ text = unit :: rest := by
  cases text with
  | nil => exact iff_of_false (fun impossible => by cases impossible) (fun impossible => by cases impossible)
  | cons first others =>
    unfold expectUnit
    by_cases same : first = unit <;> simp [same]

theorem expectUnit_other {first : UInt16} (apart : first ≠ unit) : expectUnit unit (first :: rest) = none := if_neg apart

theorem readString_plain (printed : 0x20 ≤ unit.toNat) (no_quote : unit ≠ 0x22) (no_escape : unit ≠ 0x5c) :
    readString (unit :: rest) = (readString rest).map fun (string, rest) => (unit :: string, rest) := by
  rw [readString]
  · rw [if_neg (by simpa [no_escape] using printed)]
  · exact no_quote
  · intro _ _ _ _ _ same
    exact absurd same no_escape
  · intro _ _ same
    exact absurd same no_escape

theorem readString_short {letter : UInt16} {unit : UInt16} (escapes : shortEscapes.lookup letter = some unit) :
    readString (0x5c :: letter :: rest) = (readString rest).map fun (string, rest) => (unit :: string, rest) := by
  have apart : letter ≠ 0x75 := by
    rintro rfl
    cases escapes
  rw [readString]
  · rw [escapes, Option.bind_some]
  · intro _ _ _ _ _ same
    exact absurd same apart

theorem readString_of_text {inside : JsString} (spelled : StringText inside string) :
    readString (inside ++ 0x22 :: rest) = some (string, rest) := by
  induction spelled with
  | nil => exact readString_quote rest
  | plain printed no_quote no_escape _ ih =>
    rw [List.cons_append, readString_plain printed no_quote no_escape, ih]
    rfl
  | short escapes _ ih =>
    rw [List.cons_append, List.cons_append, readString_short escapes, ih]
    rfl
  | code digits _ ih =>
    simp only [List.cons_append]
    rw [readString, if_pos digits, ih]
    rfl

/-- A string is read up to its quote, and is the one of the grammar. -/
theorem readString_iff : readString text = some (string, rest) ↔ ∃ inside, StringText inside string ∧ text = inside ++ 0x22 :: rest := by
  constructor
  · intro read
    induction text using readString.induct generalizing string with
    | case1 => cases read
    | case2 rest =>
      cases read
      exact ⟨[], .nil, rfl⟩
    | case3 first second third fourth after digits ih =>
      rw [readString, if_pos digits] at read
      obtain ⟨⟨tail, _⟩, further, same⟩ := Option.map_eq_some_iff.mp read
      cases same
      obtain ⟨inside, spelled, rfl⟩ := ih further
      exact ⟨_, .code digits spelled, rfl⟩
    | case4 first second third fourth after digits =>
      rw [readString, if_neg digits] at read
      cases read
    | case5 letter after no_code ih =>
      rw [readString] at read
      · obtain ⟨unit, escapes, read⟩ := Option.bind_eq_some_iff.mp read
        obtain ⟨⟨tail, _⟩, further, same⟩ := Option.map_eq_some_iff.mp read
        cases same
        obtain ⟨inside, spelled, rfl⟩ := ih further
        exact ⟨_, .short escapes spelled, rfl⟩
      · exact no_code
    | case6 unit after no_quote no_code no_short refused =>
      rw [readString, if_pos refused] at read
      · cases read
      · exact no_quote
      · exact no_code
      · exact no_short
    | case7 unit after no_quote no_code no_short admitted ih =>
      rw [readString, if_neg admitted] at read
      · obtain ⟨⟨tail, _⟩, further, same⟩ := Option.map_eq_some_iff.mp read
        cases same
        obtain ⟨inside, spelled, rfl⟩ := ih further
        obtain ⟨printed, no_escape⟩ := not_or.mp admitted
        exact ⟨_, .plain (Nat.not_lt.mp printed) no_quote no_escape spelled, rfl⟩
      · exact no_quote
      · exact no_code
      · exact no_short
  · rintro ⟨inside, spelled, rfl⟩
    exact readString_of_text spelled

end Tokens

section Complete

variable {before blank after inside tail : JsString} {trees : List (Json NumberToken)} {fields : Fields NumberToken}
  {field : JsString × Json NumberToken}

theorem readValue_object : readValue (fuel + 1) (0x7b :: rest) = match expectUnit 0x7d (skipBlanks rest) with
    | some rest => some (.object [], rest)
    | none => (readFields fuel rest).map fun (fields, rest) => (.object fields, rest) := by
  rw [readValue]
  rfl

theorem readValue_array : readValue (fuel + 1) (0x5b :: rest) = match expectUnit 0x5d (skipBlanks rest) with
    | some rest => some (.array [], rest)
    | none => (readItems fuel rest).map fun (items, rest) => (.array items, rest) := by
  rw [readValue]
  rfl

theorem readValue_string : readValue (fuel + 1) (0x22 :: rest) = (readString rest).map fun (string, rest) => (.string string, rest) := by
  rw [readValue]
  rfl

theorem readValue_null : readValue (fuel + 1) (units "null" ++ rest) = some (.null, rest) := by
  rw [readValue]
  rfl

theorem readValue_boolean {value : Bool} : readValue (fuel + 1) (literal value ++ rest) = some (.boolean value, rest) := by
  rw [readValue]
  cases value <;> rfl

/-- What a number starts with starts nothing else. -/
theorem readValue_number {token : NumberToken} (ends : Follows EndsNumber rest) :
    readValue (fuel + 1) (token.text ++ rest) = some (.number token, rest) := by
  have taken : takeNumber (token.text ++ rest) = some (token, rest) := takeNumber_append ends
  have first : ∃ unit tail, token.text ++ rest = unit :: tail ∧ (isDecimal unit = true ∨ unit = 0x2d) := by
    rw [NumberToken.text_append]
    cases token.negative with
    | true => exact ⟨_, _, rfl, .inr rfl⟩
    | false =>
      obtain ⟨unit, others, begins⟩ := List.exists_cons_of_ne_nil token.whole.some_units
      rw [begins]
      exact ⟨unit, _, rfl, .inl (List.all_eq_true.mp token.whole.decimal unit (by rw [begins]; exact List.mem_cons_self))⟩
  obtain ⟨unit, tail, begins, kind⟩ := first
  have apart (letter : UInt16) (other : isDecimal letter = false ∧ letter ≠ 0x2d) : unit ≠ letter := by
    rintro rfl
    rcases kind with decimal | minus
    · rw [other.1] at decimal
      cases decimal
    · exact other.2 minus
  have word (letter : UInt16) (others : JsString) (other : isDecimal letter = false ∧ letter ≠ 0x2d) :
      ¬ (letter :: others).isPrefixOf (unit :: tail) = true := by
    rw [List.isPrefixOf_cons_cons, beq_false_of_ne (apart letter other).symm]
    exact Bool.false_ne_true
  have words : units "true" = 0x74 :: units "rue" ∧ units "false" = 0x66 :: units "alse" ∧ units "null" = 0x6e :: units "ull" := by decide
  rw [readValue, words.1, words.2.1, words.2.2]
  rw [begins] at taken ⊢
  rw [expectUnit_other (apart 0x7b (by decide)), expectUnit_other (apart 0x5b (by decide)), expectUnit_other (apart 0x22 (by decide))]
  dsimp only
  rw [if_neg (word _ _ (by decide)), if_neg (word _ _ (by decide)), if_neg (word _ _ (by decide)), taken]
  rfl

/-- How the members of an array go on behind one. -/
def itemsBehind (fuel : ℕ) (item : Json NumberToken) (tail : JsString) : Option (List (Json NumberToken) × JsString) :=
  match expectUnit 0x5d tail with
  | some rest => some ([item], rest)
  | none => do
    let rest ← expectUnit 0x2c tail
    let (items, rest) ← readItems fuel rest
    some (item :: items, rest)

def fieldsBehind (fuel : ℕ) (field : JsString × Json NumberToken) (tail : JsString) : Option (Fields NumberToken × JsString) :=
  match expectUnit 0x7d tail with
  | some rest => some ([field], rest)
  | none => do
    let rest ← expectUnit 0x2c tail
    let (fields, rest) ← readFields fuel rest
    some (field :: fields, rest)

theorem readItems_behind : readItems (fuel + 1) text =
    (readValue fuel (skipBlanks text)).bind fun (item, rest) => itemsBehind fuel item (skipBlanks rest) := by
  rw [readItems]
  rfl

theorem readFields_behind : readFields (fuel + 1) text =
    (expectUnit 0x22 (skipBlanks text)).bind fun rest => (readString rest).bind fun (name, rest) =>
      (expectUnit 0x3a (skipBlanks rest)).bind fun rest => (readValue fuel (skipBlanks rest)).bind fun (value, rest) =>
        fieldsBehind fuel (name, value) (skipBlanks rest) := by
  rw [readFields]
  rfl

/-- A value between blanks is skipped to, and what follows it is skipped to. -/
theorem readItems_step (read : ∀ {rest}, Follows EndsNumber rest → readValue fuel (text ++ rest) = some (tree, rest))
    (spelled : ValueText text tree) (blanks : Blank before) (blanks_after : Blank after) (closes : Follows Closes tail) :
    readItems (fuel + 1) (before ++ text ++ after ++ tail) = itemsBehind fuel tree tail := by
  have starts : Follows NoBlank (text ++ (after ++ tail)) := fun unit head => (valueText_starts spelled unit head).1
  have ends : Follows EndsNumber (after ++ tail) := follows_blank blanks_after fun unit head => (closes unit head).2
  rw [readItems_behind, List.append_assoc, List.append_assoc, skipBlanks_append blanks starts, read ends, Option.bind_some]
  dsimp only
  rw [skipBlanks_append blanks_after fun unit head => (closes unit head).1]

theorem readFields_step (read : ∀ {rest}, Follows EndsNumber rest → readValue fuel (text ++ rest) = some
    (tree, rest)) {name key between around : JsString}
    (spelled : ValueText text tree) (blanks : Blank before) (named : StringText name key) (blanks_between : Blank between)
    (blanks_around : Blank around) (blanks_after : Blank after) (closes : Follows Closes tail) :
    readFields (fuel + 1) (before ++ 0x22 :: (name ++ 0x22 :: (between ++ 0x3a :: (around ++ text ++ after))) ++ tail) =
      fieldsBehind fuel (key, tree) tail := by
  have starts : Follows NoBlank (text ++ (after ++ tail)) := fun unit head => (valueText_starts spelled unit head).1
  have ends : Follows EndsNumber (after ++ tail) := follows_blank blanks_after fun unit head => (closes unit head).2
  have quote : Follows NoBlank (0x22 :: (name ++ 0x22 :: (between ++ 0x3a :: (around ++ (text ++ (after ++ tail)))))) := follows_cons rfl
  have colon : Follows NoBlank (0x3a :: (around ++ (text ++ (after ++ tail)))) := follows_cons rfl
  rw [readFields_behind]
  simp only [List.append_assoc, List.cons_append]
  rw [skipBlanks_append blanks quote, expectUnit_iff.mpr rfl, Option.bind_some, readString_of_text named, Option.bind_some]
  dsimp only
  rw [skipBlanks_append blanks_between colon, expectUnit_iff.mpr rfl, Option.bind_some, skipBlanks_append blanks_around starts, read ends,
    Option.bind_some]
  dsimp only
  rw [skipBlanks_append blanks_after fun unit head => (closes unit head).1]

theorem itemsBehind_last : itemsBehind fuel tree (0x5d :: rest) = some ([tree], rest) := rfl

theorem itemsBehind_more {last : JsString} (read : readItems fuel rest = some (trees, last)) :
    itemsBehind fuel tree (0x2c :: rest) = some (tree :: trees, last) := by
  change (readItems fuel rest).bind _ = _
  rw [read]
  rfl

theorem fieldsBehind_last : fieldsBehind fuel field (0x7d :: rest) = some ([field], rest) := rfl

theorem fieldsBehind_more {last : JsString} (read : readFields fuel rest = some (fields, last)) :
    fieldsBehind fuel field (0x2c :: rest) = some (field :: fields, last) := by
  change (readFields fuel rest).bind _ = _
  rw [read]
  rfl

/-- An array that is not empty does not close behind its blanks. -/
theorem items_open (spelled : ItemsText text trees) : expectUnit 0x5d (skipBlanks (text ++ rest)) = none := by
  have open_here {before here others : JsString} {item : Json NumberToken} (blanks : Blank before) (spelled : ValueText here item) :
      expectUnit 0x5d (skipBlanks (before ++ (here ++ others))) = none := by
    have starts := @valueText_starts here others item spelled
    rw [skipBlanks_append blanks fun unit head => (starts unit head).1]
    cases begins : here ++ others with
    | nil => rfl
    | cons unit tail =>
      rw [begins] at starts
      exact expectUnit_other (starts unit rfl).2
  cases spelled with
  | last blanks here _ =>
    rw [List.append_assoc, List.append_assoc]
    exact open_here blanks here
  | more blanks here _ _ =>
    rw [List.append_assoc, List.append_assoc, List.append_assoc]
    exact open_here blanks here

theorem fields_open (spelled : FieldsText text fields) : expectUnit 0x7d (skipBlanks (text ++ rest)) = none := by
  have open_here {here others : JsString} {field : JsString × Json NumberToken} (spelled : FieldText here field) :
      expectUnit 0x7d (skipBlanks (here ++ others)) = none := by
    cases spelled with
    | field blanks _ _ _ _ _ =>
      have quote {others : JsString} : Follows NoBlank (0x22 :: others) := follows_cons rfl
      simp only [List.append_assoc, List.cons_append]
      rw [skipBlanks_append blanks quote]
      rfl
  cases spelled with
  | last here => exact open_here here
  | more here _ =>
    rw [List.append_assoc]
    exact open_here here

theorem readValue_emptyArray (blanks : Blank blank) : readValue (fuel + 1) (0x5b :: (blank ++ [0x5d]) ++ rest) = some (.array [], rest) := by
  have closes : Follows NoBlank (0x5d :: rest) := follows_cons rfl
  simp only [List.append_assoc, List.cons_append, List.nil_append]
  rw [readValue_array, skipBlanks_append blanks closes]
  rfl

theorem readValue_emptyObject (blanks : Blank blank) : readValue (fuel + 1) (0x7b :: (blank ++ [0x7d]) ++ rest) = some
    (.object [], rest) := by
  have closes : Follows NoBlank (0x7d :: rest) := follows_cons rfl
  simp only [List.append_assoc, List.cons_append, List.nil_append]
  rw [readValue_object, skipBlanks_append blanks closes]
  rfl

mutual

/-- A value of the grammar is read, with fuel for its length. -/
theorem value_taken : {text : JsString} → {tree : Json NumberToken} → ValueText text tree → {fuel : ℕ} → 2 * text.length ≤ fuel + 1 →
    {rest : JsString} → Follows EndsNumber rest → readValue (fuel + 1) (text ++ rest) = some (tree, rest)
  | _, _, .null, _, _, _, _ => readValue_null
  | _, _, .boolean, _, _, _, _ => readValue_boolean
  | _, _, .number, _, _, _, ends => readValue_number ends
  | _, _, @ValueText.string text string inside, fuel, _, rest, _ => by
    simp only [List.append_assoc, List.cons_append, List.nil_append]
    rw [readValue_string, readString_of_text inside]
    rfl
  | _, _, .emptyArray blanks, _, _, _, _ => readValue_emptyArray blanks
  | _, _, @ValueText.array text items inside, fuel, enough, rest, _ => by
    simp only [List.length_cons, List.length_append, List.length_nil] at enough
    simp only [List.append_assoc, List.cons_append, List.nil_append]
    rw [readValue_array, items_open inside]
    obtain ⟨fuel, rfl⟩ : ∃ less, fuel = less + 1 := ⟨fuel - 1, by omega⟩
    dsimp only
    rw [items_taken inside (by omega)]
    rfl
  | _, _, .emptyObject blanks, _, _, _, _ => readValue_emptyObject blanks
  | _, _, @ValueText.object text fields inside, fuel, enough, rest, _ => by
    simp only [List.length_cons, List.length_append, List.length_nil] at enough
    simp only [List.append_assoc, List.cons_append, List.nil_append]
    rw [readValue_object, fields_open inside]
    obtain ⟨fuel, rfl⟩ : ∃ less, fuel = less + 1 := ⟨fuel - 1, by omega⟩
    dsimp only
    rw [fields_taken inside (by omega)]
    rfl

theorem items_taken : {text : JsString} → {trees : List (Json NumberToken)} → ItemsText text trees → {fuel : ℕ} →
    2 * text.length + 1 ≤ fuel + 1 → {rest : JsString} → readItems (fuel + 1) (text ++ 0x5d :: rest) = some (trees, rest)
  | _, _, @ItemsText.last before text after item blanks here blanks_after, fuel, enough, rest => by
    have some_units := valueText_length here
    simp only [List.length_append] at enough
    obtain ⟨fuel, rfl⟩ : ∃ less, fuel = less + 1 := ⟨fuel - 1, by omega⟩
    rw [readItems_step (value_taken here (by omega)) here blanks blanks_after (follows_cons closes_bracket)]
    rfl
  | _, _, @ItemsText.more before text after others item items blanks here blanks_after further, fuel, enough, rest => by
    have some_units := valueText_length here
    simp only [List.length_append, List.length_cons] at enough
    obtain ⟨fuel, rfl⟩ : ∃ less, fuel = less + 1 := ⟨fuel - 1, by omega⟩
    rw [List.append_assoc, List.cons_append, readItems_step (value_taken here (by omega)) here blanks blanks_after
        (follows_cons closes_comma)]
    exact itemsBehind_more (items_taken further (by omega))

theorem fields_taken : {text : JsString} → {fields : Fields NumberToken} → FieldsText text fields → {fuel : ℕ} →
    2 * text.length + 1 ≤ fuel + 1 → {rest : JsString} → readFields (fuel + 1) (text ++ 0x7d :: rest) = some (fields, rest)
  | _, _, .last here, fuel, enough, rest => by
    rw [field_taken here (by omega) (follows_cons closes_brace)]
    rfl
  | _, _, @FieldsText.more text others field fields here further, fuel, enough, rest => by
    simp only [List.length_append, List.length_cons] at enough
    rw [List.append_assoc, List.cons_append, field_taken here (by omega) (follows_cons closes_comma)]
    obtain ⟨fuel, rfl⟩ : ∃ less, fuel = less + 1 := ⟨fuel - 1, by omega⟩
    exact fieldsBehind_more (fields_taken further (by omega))

theorem field_taken : {text : JsString} → {field : JsString × Json NumberToken} → FieldText text field → {fuel : ℕ} →
    2 * text.length ≤ fuel → {tail : JsString} → Follows Closes tail → readFields (fuel + 1) (text ++ tail) = fieldsBehind fuel field tail
  | _, _, @FieldText.field before name between around text after key value blanks named blanks_between blanks_around here blanks_after,
      fuel, enough, tail, closes => by
    simp only [List.length_append, List.length_cons] at enough
    obtain ⟨fuel, rfl⟩ : ∃ less, fuel = less + 1 := ⟨fuel - 1, by omega⟩
    exact readFields_step (value_taken here (by omega)) here blanks named blanks_between blanks_around blanks_after closes

end

/-- A text of the grammar is read as its tree. -/
theorem jsonTree_of_text (spelled : JsonText text tree) : jsonTree text = some tree := by
  obtain ⟨before, inside, after, blanks, here, blanks_after, rfl⟩ := spelled
  have starts : Follows NoBlank (inside ++ after) := fun unit head => (valueText_starts here unit head).1
  have ends : Follows EndsNumber after := by
    have blank := @follows_blank [] after blanks_after (fun unit head => by cases head)
    rwa [List.append_nil] at blank
  have ended : skipBlanks after = [] := by
    have skipped := @skipBlanks_append [] after blanks_after (fun unit head => by cases head)
    rwa [List.append_nil] at skipped
  unfold jsonTree
  rw [List.append_assoc, skipBlanks_append blanks starts, value_taken here (by simp only [List.length_append]; omega) ends]
  change (if skipBlanks after = [] then some tree else none) = some tree
  rw [if_pos ended]

end Complete

section Sound

variable {trees : List (Json NumberToken)} {fields : Fields NumberToken} {field : JsString × Json NumberToken} {tail : JsString}

/-- What is read is a text of the grammar. -/
structure Reads (fuel : ℕ) : Prop where
  value : ∀ {text tree rest}, readValue fuel text = some (tree, rest) → ∃ inside, ValueText inside tree ∧ text = inside ++ rest
  items : ∀ {text trees rest}, readItems fuel text = some (trees, rest) → ∃ inside, ItemsText inside trees ∧ text = inside ++ 0x5d :: rest
  fields : ∀ {text fields rest}, readFields fuel text = some (fields, rest) →
    ∃ inside, FieldsText inside fields ∧ text = inside ++ 0x7d :: rest

theorem itemsBehind_some (reads : Reads fuel) (read : itemsBehind fuel tree tail = some (trees, rest)) :
    (tail = 0x5d :: rest ∧ trees = [tree]) ∨
      ∃ inside others, ItemsText inside others ∧ tail = 0x2c :: (inside ++ 0x5d :: rest) ∧ trees = tree :: others := by
  unfold itemsBehind at read
  split at read
  next after closes =>
    cases read
    exact .inl ⟨expectUnit_iff.mp closes, rfl⟩
  next =>
    obtain ⟨after, separates, read⟩ := Option.bind_eq_some_iff.mp read
    obtain ⟨⟨others, last⟩, further, same⟩ := Option.bind_eq_some_iff.mp read
    cases same
    obtain ⟨inside, spelled, rfl⟩ := reads.items further
    exact .inr ⟨inside, others, spelled, expectUnit_iff.mp separates, rfl⟩

theorem fieldsBehind_some (reads : Reads fuel) (read : fieldsBehind fuel field tail = some (fields, rest)) :
    (tail = 0x7d :: rest ∧ fields = [field]) ∨
      ∃ inside others, FieldsText inside others ∧ tail = 0x2c :: (inside ++ 0x7d :: rest) ∧ fields = field :: others := by
  unfold fieldsBehind at read
  split at read
  next after closes =>
    cases read
    exact .inl ⟨expectUnit_iff.mp closes, rfl⟩
  next =>
    obtain ⟨after, separates, read⟩ := Option.bind_eq_some_iff.mp read
    obtain ⟨⟨others, last⟩, further, same⟩ := Option.bind_eq_some_iff.mp read
    cases same
    obtain ⟨inside, spelled, rfl⟩ := reads.fields further
    exact .inr ⟨inside, others, spelled, expectUnit_iff.mp separates, rfl⟩

theorem readItems_takes (reads : Reads fuel) (read : readItems (fuel + 1) text = some (trees, rest)) :
    ∃ inside, ItemsText inside trees ∧ text = inside ++ 0x5d :: rest := by
  rw [readItems_behind] at read
  obtain ⟨⟨item, after⟩, first, behind⟩ := Option.bind_eq_some_iff.mp read
  obtain ⟨here, spelled, within⟩ := reads.value first
  obtain ⟨before, blanks, whole⟩ := skipBlanks_split text
  obtain ⟨gap, gaps, goes_on⟩ := skipBlanks_split after
  rcases itemsBehind_some reads behind with ⟨closes, rfl⟩ | ⟨inside, others, further, separates, rfl⟩
  · refine ⟨before ++ here ++ gap, .last blanks spelled gaps, ?_⟩
    rw [whole, within, goes_on, closes]
    simp only [List.append_assoc]
  · refine ⟨before ++ here ++ gap ++ 0x2c :: inside, .more blanks spelled gaps further, ?_⟩
    rw [whole, within, goes_on, separates]
    simp only [List.append_assoc, List.cons_append]

theorem readFields_takes (reads : Reads fuel) (read : readFields (fuel + 1) text = some (fields, rest)) :
    ∃ inside, FieldsText inside fields ∧ text = inside ++ 0x7d :: rest := by
  rw [readFields_behind] at read
  obtain ⟨opened, opens, read⟩ := Option.bind_eq_some_iff.mp read
  obtain ⟨⟨key, named⟩, names, read⟩ := Option.bind_eq_some_iff.mp read
  obtain ⟨colon, colons, read⟩ := Option.bind_eq_some_iff.mp read
  obtain ⟨⟨value, after⟩, valued, behind⟩ := Option.bind_eq_some_iff.mp read
  obtain ⟨name, spelled_name, rfl⟩ := readString_iff.mp names
  obtain ⟨here, spelled, within⟩ := reads.value valued
  obtain ⟨before, blanks, whole⟩ := skipBlanks_split text
  obtain ⟨between, betweens, spaced⟩ := skipBlanks_split named
  obtain ⟨around, arounds, spaced_value⟩ := skipBlanks_split colon
  obtain ⟨gap, gaps, goes_on⟩ := skipBlanks_split after
  have property := FieldText.field blanks spelled_name betweens arounds spelled gaps
  rw [expectUnit_iff.mp opens] at whole
  rw [expectUnit_iff.mp colons] at spaced
  rcases fieldsBehind_some reads behind with ⟨closes, rfl⟩ | ⟨inside, others, further, separates, rfl⟩
  · refine ⟨_, .last property, ?_⟩
    rw [whole, spaced, spaced_value, within, goes_on, closes]
    simp only [List.append_assoc, List.cons_append]
  · refine ⟨_, .more property further, ?_⟩
    rw [whole, spaced, spaced_value, within, goes_on, separates]
    simp only [List.append_assoc, List.cons_append]

theorem isPrefix_split {word : JsString} (starts : word.isPrefixOf text = true) : text = word ++ text.drop word.length := by
  obtain ⟨rest, rfl⟩ := List.isPrefixOf_iff_prefix.mp starts
  rw [List.drop_left]

theorem readValue_takes (reads : Reads fuel) (read : readValue (fuel + 1) text = some (tree, rest)) :
    ∃ inside, ValueText inside tree ∧ text = inside ++ rest := by
  rw [readValue] at read
  split at read
  next opened opens =>
    obtain ⟨blank, blanks, spaced⟩ := skipBlanks_split opened
    rw [expectUnit_iff.mp opens]
    split at read
    next after closes =>
      cases read
      refine ⟨_, .emptyObject blanks, ?_⟩
      rw [spaced, expectUnit_iff.mp closes]
      simp only [List.append_assoc, List.cons_append, List.nil_append]
    next =>
      obtain ⟨⟨fields, after⟩, further, same⟩ := Option.map_eq_some_iff.mp read
      cases same
      obtain ⟨inside, spelled, rfl⟩ := reads.fields further
      exact ⟨_, .object spelled, by simp only [List.append_assoc, List.cons_append, List.nil_append]⟩
  next opened opens _ =>
    obtain ⟨blank, blanks, spaced⟩ := skipBlanks_split opened
    rw [expectUnit_iff.mp opens]
    split at read
    next after closes =>
      cases read
      refine ⟨_, .emptyArray blanks, ?_⟩
      rw [spaced, expectUnit_iff.mp closes]
      simp only [List.append_assoc, List.cons_append, List.nil_append]
    next =>
      obtain ⟨⟨items, after⟩, further, same⟩ := Option.map_eq_some_iff.mp read
      cases same
      obtain ⟨inside, spelled, rfl⟩ := reads.items further
      exact ⟨_, .array spelled, by simp only [List.append_assoc, List.cons_append, List.nil_append]⟩
  next opened opens _ _ =>
    obtain ⟨⟨string, after⟩, further, same⟩ := Option.map_eq_some_iff.mp read
    cases same
    obtain ⟨inside, spelled, rfl⟩ := readString_iff.mp further
    rw [expectUnit_iff.mp opens]
    exact ⟨_, .string spelled, by simp only [List.append_assoc, List.cons_append, List.nil_append]⟩
  next =>
    split at read
    next starts =>
      cases read
      exact ⟨_, @ValueText.boolean true, isPrefix_split starts⟩
    split at read
    next starts =>
      cases read
      exact ⟨_, @ValueText.boolean false, isPrefix_split starts⟩
    split at read
    next starts =>
      cases read
      exact ⟨_, .null, isPrefix_split starts⟩
    · obtain ⟨⟨token, after⟩, taken, same⟩ := Option.map_eq_some_iff.mp read
      cases same
      exact ⟨_, .number, takeNumber_split taken⟩

theorem reads (fuel : ℕ) : Reads fuel := by
  induction fuel with
  | zero =>
    constructor
    · intro text tree rest read
      rw [readValue] at read
      cases read
    · intro text trees rest read
      rw [readItems] at read
      cases read
    · intro text fields rest read
      rw [readFields] at read
      cases read
  | succ fuel ih => exact ⟨readValue_takes ih, readItems_takes ih, readFields_takes ih⟩

/-- The reader has a tree for exactly the texts of the grammar. -/
theorem jsonTree_iff : jsonTree text = some tree ↔ JsonText text tree := by
  constructor
  · intro read
    unfold jsonTree at read
    obtain ⟨⟨found, after⟩, valued, read⟩ := Option.bind_eq_some_iff.mp read
    dsimp only at read
    split at read
    next ended =>
      cases read
      obtain ⟨inside, spelled, within⟩ := (reads _).value valued
      obtain ⟨before, blanks, whole⟩ := skipBlanks_split text
      obtain ⟨gap, gaps, goes_on⟩ := skipBlanks_split after
      rw [ended, List.append_nil] at goes_on
      refine ⟨before, inside, gap, blanks, spelled, gaps, ?_⟩
      rw [whole, within, goes_on, List.append_assoc]
    next => cases read
  · exact jsonTree_of_text

/-- A text has one tree at most. -/
theorem jsonText_unique {other : Json NumberToken} (spelled : JsonText text tree) (also : JsonText text other) : tree = other :=
  Option.some.inj ((jsonTree_of_text spelled).symm.trans (jsonTree_of_text also))

theorem jsonParse_iff {value : Json JsonNumber} : jsonParse text = some value ↔ ∃ tree, JsonText text tree ∧ valueOf tree = value := by
  unfold jsonParse
  rw [Option.map_eq_some_iff]
  exact exists_congr fun tree => and_congr_left fun _ => jsonTree_iff

end Sound

end SecureHome.Governance
