import SecureHome.Proofs.StrictTokens

/-! The strict parser succeeds exactly on the texts of JSON without repeated names or
infinite numbers, with the value `JSON.parse` gives them. -/

namespace SecureHome.Governance
open Lib

variable {cursor after last : Cursor} {text rest : JsString} {fuel : ℕ} {value : Json Double} {tree : Json NumberToken}

section Whitespace

variable {blank : JsString}

def NoBlank (unit : UInt16) : Prop := isBlank unit = false

theorem skipWhitespace_consumes : Consumes cursor (cursor.rest.takeWhile isBlank) cursor.skipWhitespace :=
  consumes_advance List.takeWhile_append_dropWhile.symm

theorem blank_taken : Blank (text.takeWhile isBlank) := List.all_takeWhile

theorem skipWhitespace_of (consumes : Consumes cursor blank after) (blanks : Blank blank) (stops : Follows NoBlank after.rest) :
    cursor.skipWhitespace = after := by
  have all : cursor.rest.takeWhile isBlank = blank := by
    rw [consumes.rest, List.takeWhile_append_of_pos (List.all_eq_true.mp blanks)]
    cases starts : after.rest with
    | nil => simp
    | cons unit rest =>
      have visible : isBlank unit = false := stops unit (by rw [starts]; rfl)
      rw [List.takeWhile_cons_of_neg (by simp [visible]), List.append_nil]
  rw [Cursor.skipWhitespace, all, consumes.advance]

theorem blank_ends {unit : UInt16} (blank : isBlank unit = true) : EndsNumber unit := by
  simp only [isBlank, Bool.or_eq_true, decide_eq_true_eq, or_assoc] at blank
  rcases blank with rfl | rfl | rfl | rfl <;> exact ⟨rfl, by decide, by decide, by decide⟩

/-- After blanks, a number ends as it does before them. -/
theorem follows_blank (blanks : Blank blank) (ends : Follows EndsNumber rest) : Follows EndsNumber (blank ++ rest) := by
  cases blank with
  | nil => exact ends
  | cons unit blank => exact follows_cons (blank_ends (List.all_eq_true.mp blanks unit List.mem_cons_self))

end Whitespace

section Dispatch

theorem next_of_rest {unit : UInt16} (starts : cursor.rest = unit :: rest) : cursor.next = some unit := by rw [Cursor.next, starts]; rfl

theorem rest_of_next {unit : UInt16} (starts : cursor.next = some unit) : ∃ rest, cursor.rest = unit :: rest := by
  unfold Cursor.next at starts
  exact List.head?_eq_some_iff.mp starts

theorem parseValue_object (starts : cursor.next = some 0x7b) :
    parseValue (fuel + 1) cursor = parseObject (parseMembers fuel [] []) cursor := by
  rw [parseValue, if_pos starts]

theorem parseValue_array (starts : cursor.next = some 0x5b) : parseValue (fuel + 1) cursor = parseArray (parseElements fuel []) cursor := by
  rw [parseValue, if_neg (by rw [starts]; decide), if_pos starts]

theorem parseValue_string (starts : cursor.next = some 0x22) :
    parseValue (fuel + 1) cursor = (parseString cursor).map fun (string, after) => (.string string, after) := by
  rw [parseValue, if_neg (by rw [starts]; decide), if_neg (by rw [starts]; decide), if_pos starts]

theorem parseValue_null (starts : cursor.rest = units "null" ++ rest) : parseValue (fuel + 1) cursor = .ok (.null, cursor.advance 4) := by
  rw [parseValue, Cursor.next, starts]
  rfl

theorem parseValue_boolean {value : Bool} (starts : cursor.rest = literal value ++ rest) :
    parseValue (fuel + 1) cursor = .ok (.boolean value, cursor.advance (literal value).length) := by
  rw [parseValue, Cursor.next, starts]
  cases value <;> rfl

/-- What a number starts with starts nothing else. -/
theorem parseValue_number {token : NumberToken} (starts : cursor.rest = token.text ++ rest) :
    parseValue (fuel + 1) cursor = (parseNumber cursor).map fun (number, after) => (.number number, after) := by
  have first : ∃ unit tail, token.text ++ rest = unit :: tail ∧ (isDecimal unit = true ∨ unit = 0x2d) := by
    rw [NumberToken.text_append]
    cases token.negative with
    | true => exact ⟨_, _, rfl, .inr rfl⟩
    | false =>
      obtain ⟨unit, others, begins⟩ := List.exists_cons_of_ne_nil token.whole.some_units
      rw [begins]
      exact ⟨unit, _, rfl, .inl (List.all_eq_true.mp token.whole.decimal unit (by rw [begins]; exact List.mem_cons_self))⟩
  obtain ⟨unit, tail, begins, kind⟩ := first
  have apart (letter : UInt16) (other : isDecimal letter = false ∧ letter ≠ 0x2d) : unit ≠ letter := by
    rintro rfl
    rcases kind with decimal | minus
    · rw [other.1] at decimal
      cases decimal
    · exact other.2 minus
  rw [begins] at starts
  have head (letter : UInt16) (other : isDecimal letter = false ∧ letter ≠ 0x2d) : ¬ cursor.next = some letter := by
    rw [next_of_rest starts, Option.some.injEq]
    exact apart letter other
  have word (letter : UInt16) (others : JsString) (other : isDecimal letter = false ∧ letter ≠ 0x2d) :
      ¬ (letter :: others).isPrefixOf cursor.rest = true := by
    rw [starts, List.isPrefixOf_cons_cons, beq_false_of_ne (apart letter other).symm]
    exact Bool.false_ne_true
  have words : units "true" = 0x74 :: units "rue" ∧ units "false" = 0x66 :: units "alse" ∧ units "null" = 0x6e :: units "ull" := by decide
  rw [parseValue, words.1, words.2.1, words.2.2, if_neg (head _ (by decide)), if_neg (head _ (by decide)),
    if_neg (head _ (by decide)), if_neg (word _ _ (by decide)), if_neg (word _ _ (by decide)), if_neg (word _ _ (by decide))]

end Dispatch

section Sound

/-- What is taken is a text of the grammar. -/
def TakesValue (cursor after : Cursor) : Prop := ∃ text tree, ValueText text tree ∧ Consumes cursor text after

def TakesItems (cursor after : Cursor) : Prop := ∃ text items, ItemsText text items ∧ Consumes cursor (text ++ [0x5d]) after

def TakesFields (cursor after : Cursor) : Prop := ∃ text fields, FieldsText text fields ∧ Consumes cursor (text ++ [0x7d]) after

variable {items result : List (Json Double)} {fields held : Fields Double} {keys : List JsString}

theorem blank_append {blank other : JsString} (blanks : Blank blank) (others : Blank other) : Blank (blank ++ other) := by
  unfold Blank at *
  rw [List.all_append, blanks, others]
  rfl

theorem blank_items {blank : JsString} {trees : List (Json NumberToken)} (blanks : Blank blank) (spelled : ItemsText text trees) :
    ItemsText (blank ++ text) trees := by
  cases spelled with
  | last before here after =>
    rw [← List.append_assoc, ← List.append_assoc]
    exact .last (blank_append blanks before) here after
  | more before here after others =>
    rw [← List.append_assoc, ← List.append_assoc, ← List.append_assoc]
    exact .more (blank_append blanks before) here after others

theorem blank_field {blank : JsString} {field : JsString × Json NumberToken} (blanks : Blank blank) (spelled : FieldText text field) :
    FieldText (blank ++ text) field := by
  cases spelled with
  | field before named between around here after =>
    rw [← List.append_assoc]
    exact .field (blank_append blanks before) named between around here after

theorem blank_fields {blank : JsString} {trees : Fields NumberToken} (blanks : Blank blank) (spelled : FieldsText text trees) :
    FieldsText (blank ++ text) trees := by
  cases spelled with
  | last here => exact .last (blank_field blanks here)
  | more here others =>
    rw [← List.append_assoc]
    exact .more (blank_field blanks here) others

theorem parseArray_takes {members : Cursor → Attempt (List (Json Double) × Cursor)}
    (inside : ∀ {cursor after items}, members cursor = .ok (items, after) → TakesItems cursor after)
    (parsed : parseArray members cursor = .ok (value, after)) : TakesValue cursor after := by
  obtain ⟨opened, opens, parsed⟩ := then_ok.mp parsed
  have begins := (expect_iff.mp opens).trans (@skipWhitespace_consumes opened)
  dsimp only at parsed
  split at parsed
  next closes =>
    cases parsed
    obtain ⟨rest, starts⟩ := rest_of_next closes
    exact ⟨_, _, .emptyArray blank_taken, begins.trans (@consumes_advance _ [0x5d] _ starts)⟩
  next =>
    obtain ⟨⟨items, closed⟩, here, same⟩ := then_ok.mp parsed
    cases same
    obtain ⟨text, trees, spelled, consumes⟩ := inside here
    refine ⟨_, _, .array (blank_items (@blank_taken opened.rest) spelled), ?_⟩
    simpa only [List.cons_append, List.nil_append, List.append_assoc] using begins.trans consumes

theorem parseObject_takes {members : Cursor → Attempt (Fields Double × Cursor)}
    (inside : ∀ {cursor after fields}, members cursor = .ok (fields, after) → TakesFields cursor after)
    (parsed : parseObject members cursor = .ok (value, after)) : TakesValue cursor after := by
  obtain ⟨opened, opens, parsed⟩ := then_ok.mp parsed
  have begins := (expect_iff.mp opens).trans (@skipWhitespace_consumes opened)
  dsimp only at parsed
  split at parsed
  next closes =>
    cases parsed
    obtain ⟨rest, starts⟩ := rest_of_next closes
    exact ⟨_, _, .emptyObject blank_taken, begins.trans (@consumes_advance _ [0x7d] _ starts)⟩
  next =>
    obtain ⟨⟨fields, closed⟩, here, same⟩ := then_ok.mp parsed
    cases same
    obtain ⟨text, trees, spelled, consumes⟩ := inside here
    refine ⟨_, _, .object (blank_fields (@blank_taken opened.rest) spelled), ?_⟩
    simpa only [List.cons_append, List.nil_append, List.append_assoc] using begins.trans consumes

theorem parseElements_takes (values : ∀ {cursor after value}, parseValue fuel cursor = .ok (value, after) → TakesValue cursor after)
    (others : ∀ {result cursor after items}, parseElements fuel result cursor = .ok (items, after) → TakesItems cursor after)
    (parsed : parseElements (fuel + 1) result cursor = .ok (items, after)) : TakesItems cursor after := by
  rw [parseElements] at parsed
  obtain ⟨⟨value, valued⟩, here, parsed⟩ := then_ok.mp parsed
  obtain ⟨text, tree, spelled, consumes⟩ := values here
  have whole := ((@skipWhitespace_consumes cursor).trans consumes).trans (@skipWhitespace_consumes valued)
  dsimp only at parsed
  split at parsed
  next closes =>
    cases parsed
    obtain ⟨rest, starts⟩ := rest_of_next closes
    exact ⟨_, _, .last blank_taken spelled blank_taken, whole.trans (@consumes_advance _ [0x5d] _ starts)⟩
  next =>
    obtain ⟨comma, expects, parsed⟩ := then_ok.mp parsed
    obtain ⟨further, trees, spelled', consumes'⟩ := others parsed
    refine ⟨_, _, .more (@blank_taken cursor.rest) spelled (@blank_taken valued.rest) spelled', ?_⟩
    simpa only [List.cons_append, List.nil_append, List.append_assoc] using (whole.trans (expect_iff.mp expects)).trans consumes'

variable {named : JsString × Json Double}

/-- A property that is taken is one of the grammar, after its blanks. -/
theorem parseMember_takes (values : ∀ {cursor after value}, parseValue fuel cursor = .ok (value, after) → TakesValue cursor after)
    (parsed : parseMember (parseValue fuel) keys cursor.skipWhitespace = .ok (named, after)) :
    ∃ text tree, FieldText text (named.1, tree) ∧ Consumes cursor text after.skipWhitespace := by
  unfold parseMember at parsed
  split at parsed
  · cases parsed
  obtain ⟨⟨key, closed⟩, names, parsed⟩ := then_ok.mp parsed
  obtain ⟨name, spelled, consumes⟩ := parseString_iff.mp names
  dsimp only at parsed
  split at parsed
  · cases parsed
  obtain ⟨colon, expects, parsed⟩ := then_ok.mp parsed
  obtain ⟨⟨value, valued⟩, here, same⟩ := then_ok.mp parsed
  cases same
  obtain ⟨text, tree, spelled', consumes'⟩ := values here
  refine ⟨_, tree, .field (@blank_taken cursor.rest) spelled (@blank_taken closed.rest) (@blank_taken colon.rest) spelled'
    (@blank_taken valued.rest), ?_⟩
  have before := ((@skipWhitespace_consumes cursor).trans consumes).trans (@skipWhitespace_consumes closed)
  have around := ((before.trans (expect_iff.mp expects)).trans (@skipWhitespace_consumes colon)).trans consumes'
  simpa only [List.cons_append, List.nil_append, List.append_assoc] using around.trans (@skipWhitespace_consumes valued)

theorem parseMembers_takes (values : ∀ {cursor after value}, parseValue fuel cursor = .ok (value, after) → TakesValue cursor after)
    (others : ∀ {keys held cursor after fields}, parseMembers fuel keys held cursor = .ok (fields, after) → TakesFields cursor after)
    (parsed : parseMembers (fuel + 1) keys held cursor = .ok (fields, after)) : TakesFields cursor after := by
  rw [parseMembers] at parsed
  obtain ⟨⟨⟨key, value⟩, valued⟩, here, parsed⟩ := then_ok.mp parsed
  obtain ⟨text, tree, spelled, consumes⟩ := parseMember_takes values here
  dsimp only at parsed
  split at parsed
  next closes =>
    cases parsed
    obtain ⟨rest, starts⟩ := rest_of_next closes
    exact ⟨_, _, .last spelled, consumes.trans (@consumes_advance _ [0x7d] _ starts)⟩
  next =>
    obtain ⟨comma, expects, parsed⟩ := then_ok.mp parsed
    obtain ⟨further, trees, spelled', consumes'⟩ := others parsed
    refine ⟨_, _, .more spelled spelled', ?_⟩
    simpa only [List.cons_append, List.nil_append, List.append_assoc] using (consumes.trans (expect_iff.mp expects)).trans consumes'

theorem prefix_consumes {word : JsString} (starts : word.isPrefixOf cursor.rest = true) : Consumes cursor word (cursor.advance word.length) := by
  obtain ⟨rest, whole⟩ := List.isPrefixOf_iff_prefix.mp starts
  exact consumes_advance whole.symm

/-- Whatever is taken is a text of the grammar. -/
theorem parse_takes (fuel : ℕ) :
    (∀ {cursor after value}, parseValue fuel cursor = .ok (value, after) → TakesValue cursor after) ∧
      (∀ {result cursor after items}, parseElements fuel result cursor = .ok (items, after) → TakesItems cursor after) ∧
      ∀ {keys held cursor after fields}, parseMembers fuel keys held cursor = .ok (fields, after) → TakesFields cursor after := by
  induction fuel with
  | zero =>
    refine ⟨?_, ?_, ?_⟩
    · intro _ _ _ parsed
      cases parsed
    · intro _ _ _ _ parsed
      cases parsed
    · intro _ _ _ _ _ parsed
      cases parsed
  | succ fuel ih =>
    obtain ⟨values, items, fields⟩ := ih
    refine ⟨fun {cursor after value} parsed => ?_, parseElements_takes values items, parseMembers_takes values fields⟩
    rw [parseValue] at parsed
    split at parsed
    · exact parseObject_takes fields parsed
    split at parsed
    · exact parseArray_takes items parsed
    split at parsed
    · obtain ⟨⟨string, closed⟩, here, same⟩ := map_ok.mp parsed
      cases same
      obtain ⟨text, spelled, consumes⟩ := parseString_iff.mp here
      exact ⟨_, _, .string spelled, consumes⟩
    split at parsed
    next starts =>
      cases parsed
      exact ⟨_, _, @ValueText.boolean true, prefix_consumes starts⟩
    split at parsed
    next starts =>
      cases parsed
      exact ⟨_, _, @ValueText.boolean false, prefix_consumes starts⟩
    split at parsed
    next starts =>
      cases parsed
      exact ⟨_, _, .null, prefix_consumes starts⟩
    obtain ⟨⟨number, closed⟩, here, same⟩ := map_ok.mp parsed
    cases same
    obtain ⟨token, _, consumes⟩ := parseNumber_text here
    exact ⟨_, _, .number, consumes⟩

end Sound

section Ending

variable {Result Other : Type}

/-- The fuel is enough. -/
def Ends (attempt : Attempt Result) : Prop := attempt ≠ .error .exhausted

theorem ends_ok {result : Result} : Ends (.ok result) := nofun

theorem ends_error {message : JsString} : Ends (cursor.error message : Attempt Result) := nofun

theorem Ends.then {first : Attempt Result} {next : Result → Attempt Other} (ends : Ends first)
    (goes_on : ∀ result, first = .ok result → Ends (next result)) : Ends (first >>= next) := by
  cases first with
  | error failure =>
    intro same
    cases same
    exact ends rfl
  | ok result => exact goes_on result rfl

theorem Ends.map {first : Attempt Result} {convert : Result → Other} (ends : Ends first) : Ends (first.map convert) := by
  cases first with
  | error failure =>
    intro same
    cases same
    exact ends rfl
  | ok result => exact ends_ok

theorem expect_ends {character : UInt16} : Ends (cursor.expect character) := by
  unfold Cursor.expect
  split
  · exact ends_error
  · exact ends_ok

theorem scanString_ends (index : ℕ) (rest : JsString) : Ends (scanString index rest) := by
  induction index, rest using scanString.induct with
  | case1 index =>
    rw [scanString_end]
    exact ends_error
  | case2 index unit rest control =>
    rw [scanString.eq_def]
    simp only [if_pos control]
    exact ends_error
  | case3 index rest =>
    rw [scanString.eq_def]
    exact ends_ok
  | case4 index => exact ends_error
  | case5 index rest place found =>
    rw [scanString.eq_def]
    simp only [found]
    exact ends_error
  | case6 index first second third fourth rest _ _ good ih =>
    rw [scanString_code (by simpa [List.findIdx?_eq_none_iff] using good)]
    exact ih.map
  | case7 index digits short _ _ good =>
    rw [scanString.eq_def]
    simp only [good]
    exact ends_error
  | case8 index letter rest no_code escapes _ _ ih =>
    rw [scanString_short escapes]
    exact ih.map
  | case9 index letter rest no_code no_escape =>
    rw [scanString.eq_def]
    simp only [if_neg no_code, if_neg no_escape]
    exact ends_error
  | case10 index unit rest no_control no_quote no_escape ih =>
    rw [scanString_plain (Nat.not_lt.mp no_control) no_quote no_escape]
    exact ih.map

theorem parseString_ends : Ends (parseString cursor) :=
  expect_ends.then fun _ _ => (scanString_ends _ _).then fun _ _ => ends_ok

theorem parseNumber_ends : Ends (parseNumber cursor) := by
  unfold parseNumber
  split
  · exact ends_error
  · split
    · exact ends_error
    · exact ends_ok

theorem Consumes.length (consumes : Consumes cursor text after) : cursor.rest.length = text.length + after.rest.length := by
  rw [consumes.rest, List.length_append]

theorem skipWhitespace_length : cursor.skipWhitespace.rest.length ≤ cursor.rest.length := by
  have whole := (@skipWhitespace_consumes cursor).length
  omega

theorem expect_length {character : UInt16} (expects : cursor.expect character = .ok after) : after.rest.length < cursor.rest.length := by
  have whole := (expect_iff.mp expects).length
  rw [List.length_singleton] at whole
  omega

theorem valueText_length (spelled : ValueText text tree) : 0 < text.length := by
  cases spelled with
  | null => decide
  | @boolean value => cases value <;> decide
  | @number token =>
    obtain ⟨first, others, begins⟩ := List.exists_cons_of_ne_nil token.whole.some_units
    rw [← List.append_nil token.text, NumberToken.text_append, begins]
    simp
  | _ => exact Nat.succ_pos _

theorem parseValue_length (parsed : parseValue fuel cursor = .ok (value, after)) : after.rest.length < cursor.rest.length := by
  obtain ⟨text, tree, spelled, consumes⟩ := (parse_takes fuel).1 parsed
  have whole := consumes.length
  have positive := valueText_length spelled
  omega

theorem parseMember_length {keys : List JsString} {named : JsString × Json Double}
    (parsed : parseMember (parseValue fuel) keys cursor.skipWhitespace = .ok (named, after)) :
    after.skipWhitespace.rest.length < cursor.rest.length := by
  obtain ⟨text, tree, spelled, consumes⟩ := parseMember_takes (parse_takes fuel).1 parsed
  have whole := consumes.length
  cases spelled
  simp only [List.length_append, List.length_cons] at whole
  omega

theorem parseMember_ends {keys : List JsString}
    (values : ∀ cursor : Cursor, 2 * cursor.rest.length + 1 ≤ fuel → Ends (parseValue fuel cursor)) (enough : 2 * cursor.rest.length + 1 ≤ fuel) :
    Ends (parseMember (parseValue fuel) keys cursor) := by
  unfold parseMember
  split
  · exact ends_error
  refine parseString_ends.then fun (key, closed) named => ?_
  obtain ⟨name, _, consumes⟩ := parseString_iff.mp named
  have whole := consumes.length
  have blank := @skipWhitespace_length closed
  dsimp only
  split
  · exact ends_error
  refine expect_ends.then fun colon expects => ?_
  have less := expect_length expects
  have blank' := @skipWhitespace_length colon
  exact (values _ (by omega)).then fun _ _ => ends_ok

/-- A fuel that counts what is left to read is enough. -/
theorem parse_ends (fuel : ℕ) :
    (∀ cursor : Cursor, 2 * cursor.rest.length + 1 ≤ fuel → Ends (parseValue fuel cursor)) ∧
      (∀ result (cursor : Cursor), 2 * cursor.rest.length + 2 ≤ fuel → Ends (parseElements fuel result cursor)) ∧
      ∀ keys held (cursor : Cursor), 2 * cursor.rest.length + 2 ≤ fuel → Ends (parseMembers fuel keys held cursor) := by
  induction fuel with
  | zero =>
    refine ⟨?_, ?_, ?_⟩
    · intro cursor enough
      omega
    · intro _ cursor enough
      omega
    · intro _ _ cursor enough
      omega
  | succ fuel ih =>
    obtain ⟨values, items, fields⟩ := ih
    refine ⟨?_, ?_, ?_⟩
    · intro cursor enough
      rw [parseValue]
      split
      · refine expect_ends.then fun opened expects => ?_
        have less := expect_length expects
        have blank := @skipWhitespace_length opened
        dsimp only
        split
        · exact ends_ok
        · exact (fields _ _ _ (by omega)).then fun _ _ => ends_ok
      split
      · refine expect_ends.then fun opened expects => ?_
        have less := expect_length expects
        have blank := @skipWhitespace_length opened
        dsimp only
        split
        · exact ends_ok
        · exact (items _ _ (by omega)).then fun _ _ => ends_ok
      split
      · exact parseString_ends.map
      split
      · exact ends_ok
      split
      · exact ends_ok
      split
      · exact ends_ok
      · exact parseNumber_ends.map
    · intro result cursor enough
      rw [parseElements]
      have blank := @skipWhitespace_length cursor
      refine (values _ (by omega)).then fun (value, valued) here => ?_
      have less := parseValue_length here
      have blank' := @skipWhitespace_length valued
      dsimp only
      split
      · exact ends_ok
      · refine expect_ends.then fun comma expects => ?_
        have further := expect_length expects
        exact items _ _ (by omega)
    · intro keys held cursor enough
      rw [parseMembers]
      have blank := @skipWhitespace_length cursor
      refine (parseMember_ends values (by omega)).then fun ((key, value), valued) here => ?_
      have less := parseMember_length here
      dsimp only
      split
      · exact ends_ok
      · refine expect_ends.then fun comma expects => ?_
        have further := expect_length expects
        exact fields _ _ _ (by omega)

end Ending

section Complete

variable {before blank : JsString} {closed : Cursor} {keys : List JsString} {named : JsString × Json Double} {key : JsString}

theorem Consumes.split {other : JsString} (consumes : Consumes cursor (text ++ other) after) :
    ∃ middle, Consumes cursor text middle ∧ Consumes middle other after := by
  obtain ⟨rest, index⟩ := consumes
  rw [List.append_assoc] at rest
  have first := consumes_advance rest
  refine ⟨_, first, ?_, ?_⟩
  · rw [Cursor.advance, rest, List.drop_left]
  · rw [index, first.index, List.length_append, Nat.add_assoc]

theorem Consumes.same (consumes : Consumes cursor text after) (also : Consumes cursor text last) : after = last := by
  rw [← consumes.advance, also.advance]

/-- A unit that a value in an array or object is followed by. -/
def Closes (unit : UInt16) : Prop := NoBlank unit ∧ EndsNumber unit

theorem closes_comma : Closes 0x2c := ⟨rfl, rfl, by decide, by decide, by decide⟩
theorem closes_bracket : Closes 0x5d := ⟨rfl, rfl, by decide, by decide, by decide⟩
theorem closes_brace : Closes 0x7d := ⟨rfl, rfl, by decide, by decide, by decide⟩

theorem decimal_visible {unit : UInt16} (decimal : isDecimal unit = true) : NoBlank unit := by
  unfold NoBlank
  by_contra blank
  rw [Bool.not_eq_false] at blank
  rw [(blank_ends blank).1] at decimal
  cases decimal

/-- What a value starts with is no blank, and closes no array. -/
theorem valueText_starts (spelled : ValueText text tree) : Follows (fun unit => NoBlank unit ∧ unit ≠ 0x5d) (text ++ rest) := by
  cases spelled with
  | null => exact follows_cons ⟨rfl, by decide⟩
  | @boolean value => cases value <;> exact follows_cons ⟨rfl, by decide⟩
  | @number token =>
    rw [NumberToken.text_append]
    cases token.negative with
    | true => exact follows_cons ⟨rfl, by decide⟩
    | false =>
      obtain ⟨unit, others, begins⟩ := List.exists_cons_of_ne_nil token.whole.some_units
      have decimal := List.all_eq_true.mp token.whole.decimal unit (by rw [begins]; exact List.mem_cons_self)
      rw [begins]
      refine follows_cons ⟨decimal_visible decimal, ?_⟩
      rintro rfl
      cases decimal
  | _ => exact follows_cons ⟨rfl, by decide⟩

/-- The blanks around a value are skipped. -/
theorem padded_value (blanks : Blank before) (spelled : ValueText text tree) (blanks_after : Blank blank)
    (consumes : Consumes cursor (before ++ text ++ blank) closed) (closes : Follows Closes closed.rest) :
    ∃ valued : Cursor, valued.skipWhitespace = closed ∧ Consumes cursor.skipWhitespace text valued ∧ Follows EndsNumber valued.rest := by
  obtain ⟨_, first, second⟩ := consumes.split
  obtain ⟨_, start, middle⟩ := first.split
  refine ⟨_, skipWhitespace_of second blanks_after fun unit head => (closes unit head).1, ?_, ?_⟩
  · rw [skipWhitespace_of start blanks]
    · exact middle
    · rw [middle.rest]
      exact fun unit head => (valueText_starts spelled unit head).1
  · rw [second.rest]
    exact follows_blank blanks_after fun unit head => (closes unit head).2

/-- On a text of the grammar, the parser succeeds on what has no repeated name and no infinite number. -/
def Decides (tree : Json NumberToken) (attempt : Attempt (Json Double × Cursor)) (after : Cursor) : Prop :=
  ∀ value last, attempt = .ok (value, last) ↔ (tree.Unrepeated ∧ tree.parsed = some value) ∧ last = after

def DecidesItems (trees : List (Json NumberToken)) (result : List (Json Double)) (attempt : Attempt (List (Json Double) × Cursor))
    (after : Cursor) : Prop :=
  ∀ items last, attempt = .ok (items, last) ↔
    (Json.EachUnrepeated trees ∧ ∃ values, Json.parsedItems trees = some values ∧ items = result ++ values) ∧ last = after

def puts (held fields : Fields Double) : Fields Double := fields.foldl (fun held field => put held field.1 field.2) held

def DecidesFields (trees : Fields NumberToken) (keys : List JsString) (held : Fields Double) (attempt : Attempt (Fields Double × Cursor))
    (after : Cursor) : Prop :=
  ∀ fields last, attempt = .ok (fields, last) ↔
    (((trees.map Prod.fst).Nodup ∧ ∀ key ∈ trees.map Prod.fst, key ∉ keys) ∧ Json.FieldsUnrepeated trees ∧
      ∃ values, Json.parsedFields trees = some values ∧ fields = puts held values) ∧ last = after

theorem decides_literal {attempt : Attempt (Json Double × Cursor)} {value : Json Double} (unrepeated : tree.Unrepeated)
    (parsed : tree.parsed = some value) (takes : attempt = .ok (value, after)) : Decides tree attempt after := by
  intro other last
  rw [takes, parsed]
  simp only [Except.ok.injEq, Prod.mk.injEq, Option.some.injEq, unrepeated, true_and, eq_comm]

theorem parsedItems_cons {trees : List (Json NumberToken)} {values : List (Json Double)} : Json.parsedItems (tree :: trees) = some values ↔
    ∃ value others, tree.parsed = some value ∧ Json.parsedItems trees = some others ∧ values = value :: others := by
  rw [Json.parsedItems]
  cases tree.parsed <;> cases Json.parsedItems trees <;> simp [eq_comm]

theorem parsedFields_cons {trees : Fields NumberToken} {fields : Fields Double} : Json.parsedFields ((key, tree) :: trees) = some fields ↔
    ∃ value others, tree.parsed = some value ∧ Json.parsedFields trees = some others ∧ fields = (key, value) :: others := by
  rw [Json.parsedFields]
  cases tree.parsed <;> cases Json.parsedFields trees <;> simp [eq_comm]

theorem number_decided {token : NumberToken} (consumes : Consumes cursor token.text after) (ends : Follows EndsNumber after.rest) :
    Decides (.number token) (parseValue (fuel + 1) cursor) after := by
  intro value last
  rw [parseValue_number consumes.rest, map_ok, Json.parsed]
  constructor
  · rintro ⟨⟨number, closed⟩, parsed, same⟩
    obtain ⟨finite, rfl⟩ := (parseNumber_of_text consumes ends).mp parsed
    cases same
    exact ⟨⟨trivial, by rw [finite]; rfl⟩, rfl⟩
  · rintro ⟨⟨_, found⟩, rfl⟩
    obtain ⟨number, finite, rfl⟩ := Option.map_eq_some_iff.mp found
    exact ⟨(number, last), (parseNumber_of_text consumes ends).mpr ⟨finite, rfl⟩, rfl⟩

variable {valued comma : Cursor}

theorem elements_last {result : List (Json Double)} (decides : Decides tree (parseValue fuel cursor.skipWhitespace) valued)
    (skips : valued.skipWhitespace = closed) (closes : Consumes closed [0x5d] after) :
    DecidesItems [tree] result (parseElements (fuel + 1) result cursor) after := by
  intro items last
  rw [parseElements, then_ok]
  constructor
  · rintro ⟨⟨value, here⟩, parsed, rest⟩
    obtain ⟨⟨unrepeated, found⟩, rfl⟩ := (decides _ _).mp parsed
    dsimp only at rest
    rw [skips, if_pos (next_of_rest closes.rest)] at rest
    cases rest
    exact ⟨⟨⟨unrepeated, trivial⟩, [value], parsedItems_cons.mpr ⟨value, [], found, rfl, rfl⟩, rfl⟩, closes.advance⟩
  · rintro ⟨⟨⟨unrepeated, _⟩, values, found, rfl⟩, rfl⟩
    obtain ⟨value, others, here, none_left, rfl⟩ := parsedItems_cons.mp found
    cases none_left
    refine ⟨(value, valued), (decides _ _).mpr ⟨⟨unrepeated, here⟩, rfl⟩, ?_⟩
    dsimp only
    rw [skips, if_pos (next_of_rest closes.rest), ← closes.advance]
    rfl

theorem elements_more {trees : List (Json NumberToken)} {result : List (Json Double)}
    (decides : Decides tree (parseValue fuel cursor.skipWhitespace) valued) (skips : valued.skipWhitespace = closed)
    (separates : Consumes closed [0x2c] comma) (others : ∀ result, DecidesItems trees result (parseElements fuel result comma) after) :
    DecidesItems (tree :: trees) result (parseElements (fuel + 1) result cursor) after := by
  intro items last
  have open_still : ¬ closed.next = some 0x5d := by
    rw [next_of_rest separates.rest]
    decide
  rw [parseElements, then_ok]
  constructor
  · rintro ⟨⟨value, here⟩, parsed, rest⟩
    obtain ⟨⟨unrepeated, found⟩, rfl⟩ := (decides _ _).mp parsed
    dsimp only at rest
    rw [skips, if_neg open_still, expect_iff.mpr separates] at rest
    obtain ⟨⟨later, values, found', rfl⟩, rfl⟩ := (others _ _ _).mp rest
    exact ⟨⟨⟨unrepeated, later⟩, value :: values, parsedItems_cons.mpr ⟨value, values, found, found', rfl⟩, by simp⟩, rfl⟩
  · rintro ⟨⟨⟨unrepeated, later⟩, values, found, rfl⟩, rfl⟩
    obtain ⟨value, rest, here, found', rfl⟩ := parsedItems_cons.mp found
    refine ⟨(value, valued), (decides _ _).mpr ⟨⟨unrepeated, here⟩, rfl⟩, ?_⟩
    dsimp only
    rw [skips, if_neg open_still, expect_iff.mpr separates]
    exact (others _ _ _).mpr ⟨⟨later, rest, found', by simp⟩, rfl⟩

/-- A property is taken if its name is not among the keys before it and its value is taken. -/
def DecidesMember (key : JsString) (tree : Json NumberToken) (keys : List JsString)
    (attempt : Attempt ((JsString × Json Double) × Cursor)) (after : Cursor) : Prop :=
  ∀ named last, attempt = .ok (named, last) ↔
    (key ∉ keys ∧ tree.Unrepeated ∧ ∃ value, tree.parsed = some value ∧ named = (key, value)) ∧ last = after

theorem member_decides {name : JsString} {start colon : Cursor} (spelled : StringText name key)
    (names : Consumes start (0x22 :: (name ++ [0x22])) closed) (separates : Consumes closed.skipWhitespace [0x3a] colon)
    (decides : Decides tree (parseValue fuel colon.skipWhitespace) valued) :
    DecidesMember key tree keys (parseMember (parseValue fuel) keys start) valued := by
  intro named last
  unfold parseMember
  rw [if_neg (not_not.mpr (next_of_rest names.rest)), parseString_iff.mpr ⟨name, spelled, names⟩, then_ok]
  constructor
  · rintro ⟨_, same, rest⟩
    cases same
    dsimp only at rest
    split at rest
    · cases rest
    next fresh =>
      obtain ⟨_, expects, rest⟩ := then_ok.mp rest
      cases (expect_iff.mp expects).same separates
      obtain ⟨⟨value, here⟩, parsed, same⟩ := then_ok.mp rest
      obtain ⟨⟨unrepeated, found⟩, rfl⟩ := (decides _ _).mp parsed
      cases same
      exact ⟨⟨fresh, unrepeated, value, found, rfl⟩, rfl⟩
  · rintro ⟨⟨fresh, unrepeated, value, found, rfl⟩, rfl⟩
    refine ⟨(key, closed), rfl, ?_⟩
    dsimp only
    rw [if_neg fresh]
    exact then_ok.mpr ⟨colon, expect_iff.mpr separates, then_ok.mpr ⟨(value, last), (decides _ _).mpr ⟨⟨unrepeated, found⟩, rfl⟩, rfl⟩⟩

theorem members_last {held : Fields Double} (decides : DecidesMember key tree keys (parseMember (parseValue fuel) keys cursor.skipWhitespace) valued)
    (skips : valued.skipWhitespace = closed) (closes : Consumes closed [0x7d] after) :
    DecidesFields [(key, tree)] keys held (parseMembers (fuel + 1) keys held cursor) after := by
  intro fields last
  rw [parseMembers, then_ok]
  constructor
  · rintro ⟨⟨⟨name, value⟩, here⟩, parsed, rest⟩
    obtain ⟨⟨fresh, unrepeated, _, found, same⟩, rfl⟩ := (decides _ _).mp parsed
    cases same
    dsimp only at rest
    rw [skips, if_pos (next_of_rest closes.rest)] at rest
    cases rest
    exact ⟨⟨⟨List.nodup_singleton _, by simpa using fresh⟩, ⟨unrepeated, trivial⟩, [(key, value)],
      parsedFields_cons.mpr ⟨value, [], found, rfl, rfl⟩, rfl⟩, closes.advance⟩
  · rintro ⟨⟨⟨_, fresh⟩, ⟨unrepeated, _⟩, values, found, rfl⟩, rfl⟩
    obtain ⟨value, others, here, none_left, rfl⟩ := parsedFields_cons.mp found
    cases none_left
    refine ⟨((key, value), valued), (decides _ _).mpr ⟨⟨fresh key List.mem_cons_self, unrepeated, value, here, rfl⟩, rfl⟩, ?_⟩
    dsimp only
    rw [skips, if_pos (next_of_rest closes.rest), ← closes.advance]
    rfl

theorem members_more {trees : Fields NumberToken} {held : Fields Double}
    (decides : DecidesMember key tree keys (parseMember (parseValue fuel) keys cursor.skipWhitespace) valued)
    (skips : valued.skipWhitespace = closed) (separates : Consumes closed [0x2c] comma)
    (others : ∀ held, DecidesFields trees (key :: keys) held (parseMembers fuel (key :: keys) held comma) after) :
    DecidesFields ((key, tree) :: trees) keys held (parseMembers (fuel + 1) keys held cursor) after := by
  intro fields last
  have open_still : ¬ closed.next = some 0x7d := by
    rw [next_of_rest separates.rest]
    decide
  rw [parseMembers, then_ok, List.map_cons, List.nodup_cons, List.forall_mem_cons]
  constructor
  · rintro ⟨⟨⟨name, value⟩, here⟩, parsed, rest⟩
    obtain ⟨⟨fresh, unrepeated, _, found, same⟩, rfl⟩ := (decides _ _).mp parsed
    cases same
    dsimp only at rest
    rw [skips, if_neg open_still, expect_iff.mpr separates] at rest
    obtain ⟨⟨⟨distinct, apart⟩, later, values, found', rfl⟩, rfl⟩ := (others _ _ _).mp rest
    have alone : key ∉ trees.map Prod.fst := fun listed => apart key listed List.mem_cons_self
    exact ⟨⟨⟨⟨alone, distinct⟩, fresh, fun other listed before => apart other listed (List.mem_cons_of_mem _ before)⟩,
      ⟨unrepeated, later⟩, (key, value) :: values, parsedFields_cons.mpr ⟨value, values, found, found', rfl⟩, rfl⟩, rfl⟩
  · rintro ⟨⟨⟨⟨alone, distinct⟩, fresh, apart⟩, ⟨unrepeated, later⟩, values, found, rfl⟩, rfl⟩
    obtain ⟨value, rest, here, found', rfl⟩ := parsedFields_cons.mp found
    refine ⟨((key, value), valued), (decides _ _).mpr ⟨⟨fresh, unrepeated, value, here, rfl⟩, rfl⟩, ?_⟩
    dsimp only
    rw [skips, if_neg open_still, expect_iff.mpr separates]
    refine (others _ _ _).mpr ⟨⟨⟨distinct, fun other listed before => ?_⟩, later, rest, found', rfl⟩, rfl⟩
    rcases List.mem_cons.mp before with rfl | before
    · exact alone listed
    · exact apart other listed before

theorem skipWhitespace_twice : cursor.skipWhitespace.skipWhitespace = cursor.skipWhitespace := by
  refine skipWhitespace_of .nil rfl fun unit head => ?_
  have left : cursor.skipWhitespace.rest = cursor.rest.dropWhile isBlank := by
    have whole := (@skipWhitespace_consumes cursor).rest
    exact (List.append_cancel_left (List.takeWhile_append_dropWhile.trans whole)).symm
  have visible := List.head?_dropWhile_not isBlank cursor.rest
  rw [← left, head] at visible
  exact visible

theorem parseElements_skip {result : List (Json Double)} : parseElements fuel result cursor.skipWhitespace = parseElements fuel result cursor := by
  cases fuel with
  | zero => rfl
  | succ fuel => rw [parseElements, parseElements, skipWhitespace_twice]

theorem parseMembers_skip {held : Fields Double} : parseMembers fuel keys held cursor.skipWhitespace = parseMembers fuel keys held cursor := by
  cases fuel with
  | zero => rfl
  | succ fuel => rw [parseMembers, parseMembers, skipWhitespace_twice]

theorem array_decided {trees : List (Json NumberToken)} {opened : Cursor} (opens : Consumes cursor [0x5b] opened)
    (some_items : opened.skipWhitespace.next ≠ some 0x5d)
    (decides : DecidesItems trees [] (parseElements fuel [] opened) after) : Decides (.array trees) (parseValue (fuel + 1) cursor) after := by
  intro value last
  rw [parseValue_array (next_of_rest opens.rest), parseArray, expect_iff.mpr opens, then_ok]
  constructor
  · rintro ⟨_, same, rest⟩
    cases same
    dsimp only at rest
    rw [if_neg some_items, parseElements_skip] at rest
    obtain ⟨⟨items, closed⟩, parsed, same⟩ := then_ok.mp rest
    cases same
    obtain ⟨⟨unrepeated, values, found, rfl⟩, rfl⟩ := (decides _ _).mp parsed
    exact ⟨⟨unrepeated, by rw [Json.parsed, found]; rfl⟩, rfl⟩
  · rintro ⟨⟨unrepeated, whole⟩, rfl⟩
    obtain ⟨values, found, rfl⟩ := Option.map_eq_some_iff.mp whole
    refine ⟨opened, rfl, ?_⟩
    dsimp only
    rw [if_neg some_items, parseElements_skip]
    exact then_ok.mpr ⟨(values, last), (decides _ _).mpr ⟨⟨unrepeated, values, found, rfl⟩, rfl⟩, rfl⟩

theorem object_decided {trees : Fields NumberToken} {opened : Cursor} (opens : Consumes cursor [0x7b] opened)
    (some_fields : opened.skipWhitespace.next ≠ some 0x7d)
    (decides : DecidesFields trees [] [] (parseMembers fuel [] [] opened) after) : Decides (.object trees) (parseValue (fuel + 1) cursor) after := by
  intro value last
  rw [parseValue_object (next_of_rest opens.rest), parseObject, expect_iff.mpr opens, then_ok]
  constructor
  · rintro ⟨_, same, rest⟩
    cases same
    dsimp only at rest
    rw [if_neg some_fields, parseMembers_skip] at rest
    obtain ⟨⟨fields, closed⟩, parsed, same⟩ := then_ok.mp rest
    cases same
    obtain ⟨⟨⟨distinct, _⟩, unrepeated, values, found, rfl⟩, rfl⟩ := (decides _ _).mp parsed
    exact ⟨⟨⟨distinct, unrepeated⟩, by rw [Json.parsed, found]; rfl⟩, rfl⟩
  · rintro ⟨⟨⟨distinct, unrepeated⟩, whole⟩, rfl⟩
    obtain ⟨values, found, rfl⟩ := Option.map_eq_some_iff.mp whole
    refine ⟨opened, rfl, ?_⟩
    dsimp only
    rw [if_neg some_fields, parseMembers_skip]
    exact then_ok.mpr ⟨(_, last), (decides _ _).mpr ⟨⟨⟨distinct, fun _ _ => List.not_mem_nil⟩, unrepeated, values, found, rfl⟩, rfl⟩, rfl⟩

theorem emptyArray_decided (blanks : Blank blank) (consumes : Consumes cursor (0x5b :: (blank ++ [0x5d])) after) :
    Decides (.array []) (parseValue (fuel + 1) cursor) after := by
  obtain ⟨_, opens, rest⟩ := @Consumes.split _ _ [0x5b] _ consumes
  obtain ⟨_, begins, closes⟩ := rest.split
  refine decides_literal trivial rfl ?_
  rw [parseValue_array (next_of_rest consumes.rest), parseArray, expect_iff.mpr opens, then_ok]
  refine ⟨_, rfl, ?_⟩
  dsimp only
  rw [skipWhitespace_of begins blanks (by rw [closes.rest]; exact follows_cons rfl), if_pos (next_of_rest closes.rest), ← closes.advance]
  rfl

theorem emptyObject_decided (blanks : Blank blank) (consumes : Consumes cursor (0x7b :: (blank ++ [0x7d])) after) :
    Decides (.object []) (parseValue (fuel + 1) cursor) after := by
  obtain ⟨_, opens, rest⟩ := @Consumes.split _ _ [0x7b] _ consumes
  obtain ⟨_, begins, closes⟩ := rest.split
  refine decides_literal ⟨List.nodup_nil, trivial⟩ rfl ?_
  rw [parseValue_object (next_of_rest consumes.rest), parseObject, expect_iff.mpr opens, then_ok]
  refine ⟨_, rfl, ?_⟩
  dsimp only
  rw [skipWhitespace_of begins blanks (by rw [closes.rest]; exact follows_cons rfl), if_pos (next_of_rest closes.rest), ← closes.advance]
  rfl

theorem items_start {trees : List (Json NumberToken)} {opened : Cursor} (spelled : ItemsText text trees)
    (consumes : Consumes opened (text ++ rest) after) : opened.skipWhitespace.next ≠ some 0x5d := by
  have starts {before text tail : JsString} {tree : Json NumberToken} (blanks : Blank before) (here : ValueText text tree)
      (consumes : Consumes opened (before ++ (text ++ tail)) after) : opened.skipWhitespace.next ≠ some 0x5d := by
    obtain ⟨_, first, second⟩ := consumes.split
    rw [skipWhitespace_of first blanks]
    · intro closes
      rw [Cursor.next, second.rest, List.append_assoc] at closes
      exact (valueText_starts here 0x5d closes).2 rfl
    · rw [second.rest, List.append_assoc]
      exact fun unit head => (valueText_starts here unit head).1
  cases spelled with
  | last blanks here _ => exact starts blanks here (by simpa only [List.append_assoc] using consumes)
  | more blanks here _ _ => exact starts blanks here (by simpa only [List.append_assoc] using consumes)

theorem fields_start {trees : Fields NumberToken} {opened : Cursor} (spelled : FieldsText text trees)
    (consumes : Consumes opened (text ++ rest) after) : opened.skipWhitespace.next ≠ some 0x7d := by
  have starts {text tail : JsString} {field : JsString × Json NumberToken} (here : FieldText text field)
      (consumes : Consumes opened (text ++ tail) after) : opened.skipWhitespace.next ≠ some 0x7d := by
    cases here with
    | field blanks _ _ _ _ _ =>
      rw [List.append_assoc] at consumes
      obtain ⟨_, first, second⟩ := consumes.split
      rw [skipWhitespace_of first blanks (by rw [second.rest]; exact follows_cons rfl), next_of_rest second.rest]
      decide
  cases spelled with
  | last here => exact starts here consumes
  | more here _ => exact starts here (by simpa only [List.append_assoc] using consumes)

mutual

theorem value_decided : {text : JsString} → {tree : Json NumberToken} → ValueText text tree → {fuel : ℕ} → {cursor after : Cursor} →
    Consumes cursor text after → Follows EndsNumber after.rest → 2 * cursor.rest.length + 1 ≤ fuel →
    Decides tree (parseValue fuel cursor) after
  | _, _, .null, fuel + 1, cursor, after, consumes, _, _ =>
    decides_literal trivial rfl (by rw [parseValue_null consumes.rest, ← consumes.advance]; rfl)
  | _, _, .boolean, fuel + 1, cursor, after, consumes, _, _ =>
    decides_literal trivial rfl (by rw [parseValue_boolean consumes.rest, ← consumes.advance])
  | _, _, .number, fuel + 1, cursor, after, consumes, ends, _ => number_decided consumes ends
  | _, _, .string inside, fuel + 1, cursor, after, consumes, _, _ =>
    decides_literal trivial rfl (by
      rw [parseValue_string (next_of_rest consumes.rest), parseString_iff.mpr ⟨_, inside, consumes⟩]
      rfl)
  | _, _, .emptyArray blanks, fuel + 1, cursor, after, consumes, _, _ => emptyArray_decided blanks consumes
  | _, _, .array inside, fuel + 1, cursor, after, consumes, _, enough => by
    obtain ⟨_, opens, rest⟩ := @Consumes.split _ _ [0x5b] _ consumes
    have less := opens.length
    rw [List.length_singleton] at less
    exact array_decided opens (items_start inside rest) (items_decided inside rest (by omega))
  | _, _, .emptyObject blanks, fuel + 1, cursor, after, consumes, _, _ => emptyObject_decided blanks consumes
  | _, _, .object inside, fuel + 1, cursor, after, consumes, _, enough => by
    obtain ⟨_, opens, rest⟩ := @Consumes.split _ _ [0x7b] _ consumes
    have less := opens.length
    rw [List.length_singleton] at less
    exact object_decided opens (fields_start inside rest) (fields_decided inside rest (by omega))

theorem items_decided : {text : JsString} → {trees : List (Json NumberToken)} → ItemsText text trees → {fuel : ℕ} →
    {result : List (Json Double)} → {cursor after : Cursor} → Consumes cursor (text ++ [0x5d]) after → 2 * cursor.rest.length + 2 ≤ fuel →
    DecidesItems trees result (parseElements fuel result cursor) after
  | _, _, .last blanks here blanks_after, fuel + 1, result, cursor, after, consumes, enough => by
    obtain ⟨_, inside, closes⟩ := consumes.split
    obtain ⟨valued, skips, takes, ends⟩ := padded_value blanks here blanks_after inside (by rw [closes.rest]; exact follows_cons closes_bracket)
    have less := @skipWhitespace_length cursor
    exact elements_last (value_decided here takes ends (by omega)) skips closes
  | _, _, .more blanks here blanks_after others, fuel + 1, result, cursor, after, consumes, enough => by
    rw [List.append_assoc] at consumes
    obtain ⟨_, inside, rest⟩ := consumes.split
    obtain ⟨_, separates, later⟩ := @Consumes.split _ _ [0x2c] _ rest
    obtain ⟨valued, skips, takes, ends⟩ := padded_value blanks here blanks_after inside (by rw [rest.rest]; exact follows_cons closes_comma)
    have less := @skipWhitespace_length cursor
    have whole := inside.length
    have comma := separates.length
    rw [List.length_singleton] at comma
    exact elements_more (value_decided here takes ends (by omega)) skips separates fun result => items_decided others later (by omega)

theorem fields_decided : {text : JsString} → {trees : Fields NumberToken} → FieldsText text trees → {fuel : ℕ} → {keys : List JsString} →
    {held : Fields Double} → {cursor after : Cursor} → Consumes cursor (text ++ [0x7d]) after → 2 * cursor.rest.length + 2 ≤ fuel →
    DecidesFields trees keys held (parseMembers fuel keys held cursor) after
  | _, _, .last here, fuel + 1, keys, held, cursor, after, consumes, enough => by
    obtain ⟨_, inside, closes⟩ := consumes.split
    obtain ⟨valued, skips, decides⟩ := @field_decided _ _ here fuel _ _ inside (by rw [closes.rest]; exact follows_cons closes_brace) (by omega)
    exact members_last (decides keys) skips closes
  | _, _, .more here others, fuel + 1, keys, held, cursor, after, consumes, enough => by
    rw [List.append_assoc] at consumes
    obtain ⟨_, inside, rest⟩ := consumes.split
    obtain ⟨_, separates, later⟩ := @Consumes.split _ _ [0x2c] _ rest
    obtain ⟨valued, skips, decides⟩ := @field_decided _ _ here fuel _ _ inside (by rw [rest.rest]; exact follows_cons closes_comma) (by omega)
    have whole := inside.length
    have comma := separates.length
    rw [List.length_singleton] at comma
    exact members_more (decides keys) skips separates fun held => fields_decided others later (by omega)

theorem field_decided : {text : JsString} → {field : JsString × Json NumberToken} → FieldText text field → {fuel : ℕ} →
    {cursor closed : Cursor} → Consumes cursor text closed → Follows Closes closed.rest → 2 * cursor.rest.length + 1 ≤ fuel →
    ∃ valued : Cursor, valued.skipWhitespace = closed ∧
      ∀ keys, DecidesMember field.1 field.2 keys (parseMember (parseValue fuel) keys cursor.skipWhitespace) valued
  | _, _, @FieldText.field before name between around text after _ _ blanks named blanks_between blanks_around here blanks_after, fuel,
      cursor, closed, consumes, closes, enough => by
    have whole : Consumes cursor (before ++ ((0x22 :: (name ++ [0x22])) ++ (between ++ ([0x3a] ++ (around ++ text ++ after))))) closed := by
      simpa using consumes
    obtain ⟨start, begins, rest⟩ := whole.split
    obtain ⟨_, names, rest⟩ := rest.split
    obtain ⟨_, spaces, rest⟩ := rest.split
    obtain ⟨colon, separates, rest⟩ := rest.split
    obtain ⟨valued, skips, takes, ends⟩ := padded_value blanks_around here blanks_after rest closes
    have some_units := begins.length
    have further := names.length
    have blank := spaces.length
    have colon_length := separates.length
    have less := @skipWhitespace_length colon
    refine ⟨valued, skips, fun keys => ?_⟩
    rw [skipWhitespace_of begins blanks (by rw [names.rest]; exact follows_cons rfl)]
    refine member_decides named names ?_ (value_decided here takes ends (by omega))
    rw [skipWhitespace_of spaces blanks_between (by rw [separates.rest]; exact follows_cons rfl)]
    exact separates

end

end Complete

section Exact

variable {tree : Json NumberToken}

mutual

theorem parsed_isSome : (tree : Json NumberToken) → (tree.parsed.isSome ↔ tree.Finite)
  | .null => by simp [Json.parsed, Json.Finite]
  | .boolean _ => by simp [Json.parsed, Json.Finite]
  | .number token => by rw [Json.parsed, Option.isSome_map, Json.Finite, NumberToken.number_isSome]
  | .string _ => by simp [Json.parsed, Json.Finite]
  | .array items => by rw [Json.parsed, Option.isSome_map, Json.Finite, parsedItems_isSome items]
  | .object fields => by rw [Json.parsed, Option.isSome_map, Json.Finite, parsedFields_isSome fields]

theorem parsedItems_isSome : (trees : List (Json NumberToken)) → ((Json.parsedItems trees).isSome ↔ Json.EachFinite trees)
  | [] => by simp [Json.parsedItems, Json.EachFinite]
  | tree :: trees => by
    rw [Json.EachFinite, ← parsed_isSome tree, ← parsedItems_isSome trees, Json.parsedItems]
    cases tree.parsed <;> cases Json.parsedItems trees <;> simp

theorem parsedFields_isSome : (trees : List (JsString × Json NumberToken)) → ((Json.parsedFields trees).isSome ↔ Json.FieldsFinite trees)
  | [] => by simp [Json.parsedFields, Json.FieldsFinite]
  | (_, tree) :: trees => by
    rw [Json.FieldsFinite, ← parsed_isSome tree, ← parsedFields_isSome trees, Json.parsedFields]
    cases tree.parsed <;> cases Json.parsedFields trees <;> simp

end

/-- A value that the parser gives is the one of a text of the grammar. -/
theorem jsonText_of_parsed (parsed : parseStrictJson text = .ok value) : ∃ tree, JsonText text tree := by
  obtain ⟨⟨_, closed⟩, here, rest⟩ := then_ok.mp parsed
  dsimp only at rest
  split at rest
  · cases rest
  next ended =>
    obtain ⟨inside, tree, spelled, consumes⟩ := (parse_takes _).1 here
    refine ⟨tree, _, inside, _, @blank_taken text, spelled, @blank_taken closed.rest, ?_⟩
    have whole := (((@skipWhitespace_consumes ⟨0, text⟩).trans consumes).trans (@skipWhitespace_consumes closed)).rest
    rw [not_not.mp ended, List.append_nil] at whole
    exact whole

/-- On a text of the grammar, the parser decides. -/
theorem parse_decided (spelled : JsonText text tree) : parseStrictJson text = .ok value ↔ tree.Unrepeated ∧ tree.parsed = some value := by
  obtain ⟨before, inside, after, blanks, spelled, blanks_after, rfl⟩ := spelled
  have whole : Consumes ⟨0, before ++ inside ++ after⟩ (before ++ inside ++ after) ⟨(before ++ inside ++ after).length, []⟩ :=
    ⟨(List.append_nil _).symm, (Nat.zero_add _).symm⟩
  have ends : Follows Closes ([] : JsString) := nofun
  obtain ⟨valued, skips, takes, ends⟩ := padded_value blanks spelled blanks_after whole ends
  have less := @skipWhitespace_length ⟨0, before ++ inside ++ after⟩
  change _ ≤ (before ++ inside ++ after).length at less
  have decides := value_decided spelled takes ends (by omega : _ ≤ 2 * (before ++ inside ++ after).length + 1)
  unfold parseStrictJson parse
  rw [then_ok]
  constructor
  · rintro ⟨⟨_, closed⟩, here, rest⟩
    obtain ⟨good, rfl⟩ := (decides _ _).mp here
    dsimp only at rest
    rw [skips] at rest
    cases rest
    exact good
  · intro good
    refine ⟨(value, valued), (decides _ _).mpr ⟨good, rfl⟩, ?_⟩
    dsimp only
    rw [skips]
    rfl

theorem parse_ended : parseStrictJson text ≠ .error .exhausted := by
  have less := @skipWhitespace_length ⟨0, text⟩
  refine Ends.then ((parse_ends _).1 _ (by omega)) fun (value, closed) _ => ?_
  dsimp only
  split
  · exact ends_error
  · exact ends_ok

/-- The parser ends on every text; it succeeds exactly on the texts of JSON with no name repeated in an object and no
number too large, with the value `JSON.parse` gives the text, and throws on every other. -/
theorem parse_exact (text : JsString) :
    ((∃ value, parseStrictJson text = .ok value) ↔ ∃ tree, JsonText text tree ∧ tree.Unrepeated ∧ tree.Finite) ∧
      (∀ value tree, parseStrictJson text = .ok value → JsonText text tree → tree.parsed = some value) ∧
      ((¬ ∃ tree, JsonText text tree ∧ tree.Unrepeated ∧ tree.Finite) →
        ∃ message index, parseStrictJson text = .error (.thrown message index)) := by
  have succeeds : (∃ value, parseStrictJson text = .ok value) ↔ ∃ tree, JsonText text tree ∧ tree.Unrepeated ∧ tree.Finite := by
    constructor
    · rintro ⟨value, parsed⟩
      obtain ⟨tree, spelled⟩ := jsonText_of_parsed parsed
      obtain ⟨unrepeated, found⟩ := (parse_decided spelled).mp parsed
      exact ⟨tree, spelled, unrepeated, (parsed_isSome tree).mp (by rw [found]; rfl)⟩
    · rintro ⟨tree, spelled, unrepeated, finite⟩
      obtain ⟨value, found⟩ := Option.isSome_iff_exists.mp ((parsed_isSome tree).mpr finite)
      exact ⟨value, (parse_decided spelled).mpr ⟨unrepeated, found⟩⟩
  refine ⟨succeeds, ?_, ?_⟩
  · intro value tree parsed spelled
    exact ((parse_decided spelled).mp parsed).2
  · intro refused
    cases ended : parseStrictJson text with
    | ok value => exact absurd (succeeds.mp ⟨value, ended⟩) refused
    | error failure =>
      cases failure with
      | thrown message index => exact ⟨message, index, rfl⟩
      | exhausted => exact absurd ended parse_ended

end Exact

end SecureHome.Governance
