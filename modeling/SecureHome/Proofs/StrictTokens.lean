import Mathlib.Data.List.TakeWhile
import SecureHome.Lib.Fallible
import SecureHome.Lib.Reading
import SecureHome.Governance.StrictJson

/-! The strings and numbers the strict parser takes are the ones of the grammar. -/

namespace SecureHome.Governance
open Lib

variable {cursor after : Cursor} {text string slice rest : JsString} {index : ℕ}

/-- A text between two cursors. -/
structure Consumes (before : Cursor) (text : JsString) (after : Cursor) : Prop where
  rest : before.rest = text ++ after.rest
  index : after.index = before.index + text.length

theorem Consumes.nil : Consumes cursor [] cursor := ⟨rfl, rfl⟩

theorem Consumes.trans {before : Cursor} {other : JsString} (first : Consumes before text cursor) (second : Consumes cursor other after) :
    Consumes before (text ++ other) after :=
  ⟨by rw [first.rest, second.rest, List.append_assoc], by rw [second.index, first.index, List.length_append, Nat.add_assoc]⟩

theorem consumes_advance (starts : cursor.rest = text ++ rest) : Consumes cursor text (cursor.advance text.length) :=
  ⟨by rw [Cursor.advance, starts, List.drop_left], rfl⟩

/-- A text leads to one cursor. -/
theorem Consumes.advance (consumes : Consumes cursor text after) : cursor.advance text.length = after := by
  obtain ⟨index, rest⟩ := after
  obtain ⟨starts, reaches⟩ := consumes
  rw [Cursor.advance, starts, List.drop_left]
  exact congrArg (Cursor.mk · rest) reaches.symm

theorem expect_iff {character : UInt16} : cursor.expect character = .ok after ↔ Consumes cursor [character] after := by
  obtain ⟨index, rest⟩ := cursor
  unfold Cursor.expect Cursor.next
  cases rest with
  | nil =>
    refine ⟨fun met => ?_, fun consumes => ?_⟩
    · cases met
    · cases consumes.rest
  | cons unit rest =>
    by_cases same : unit = character
    · subst same
      rw [if_neg (by simp), Except.ok.injEq]
      constructor
      · rintro rfl
        exact consumes_advance rfl
      · exact fun consumes => consumes.advance
    · rw [if_pos (by simpa using same)]
      refine ⟨fun met => ?_, fun consumes => ?_⟩
      · cases met
      · exact absurd (List.cons.inj consumes.rest).1 same

section Strings

theorem parseHex_digits {digits : JsString} (hexadecimals : digits.all isHexadecimal = true) :
    parseHex digits = digits.foldl (fun value unit => value * 0x10 + hexadecimal unit) 0 := by
  unfold parseHex
  rw [List.takeWhile_eq_self_iff.mpr (List.all_eq_true.mp hexadecimals)]

theorem decodeUnits_short {letter unit : UInt16} (escapes : shortEscapes.lookup letter = some unit) :
    decodeUnits (0x5c :: letter :: rest) = unit :: decodeUnits rest := by
  match rest with
  | [] | [_] | [_, _] | [_, _, _] | _ :: _ :: _ :: _ :: _ => simp only [decodeUnits, escapes]

theorem decodeUnits_stringText (spelled : StringText text string) : decodeUnits text = string := by
  induction spelled with
  | nil => exact decodeUnits_nil
  | plain printed no_quote no_escape rest ih =>
    rw [decodeUnits]
    · rw [ih]
    · intro same
      exact absurd same no_escape
    · intro _ _ same
      exact absurd same no_escape
  | short escapes rest ih => rw [decodeUnits_short escapes, ih]
  | @code first second third fourth text string digits rest ih =>
    have other : shortEscapes.lookup 0x75 = none := by decide
    simp only [decodeUnits, other]
    rw [parseHex_digits digits, ih]
    congr 2
    simp only [List.foldl_cons, List.foldl_nil]
    omega

theorem isEscapeLetter_iff {letter : UInt16} : isEscapeLetter letter = true ↔ ∃ unit, shortEscapes.lookup letter = some unit := by
  rw [← Option.isSome_iff_exists, List.lookup_isSome_iff]
  unfold isEscapeLetter
  rw [List.contains_iff_mem]
  simp [shortEscapes]

theorem not_letter : isEscapeLetter 0x75 = false := by decide

theorem scanString_plain {unit : UInt16} (printed : 0x20 ≤ unit.toNat) (no_quote : unit ≠ 0x22) (no_escape : unit ≠ 0x5c) :
    scanString index (unit :: rest) = (scanString (index + 1) rest).map fun (slice, cursor) => (unit :: slice, cursor) := by
  rw [scanString.eq_def]
  simp only [if_neg (Nat.not_lt.mpr printed), if_neg no_quote, if_neg no_escape]

theorem scanString_short {letter : UInt16} (escapes : isEscapeLetter letter = true) :
    scanString index (0x5c :: letter :: rest) =
      (scanString (index + 2) rest).map fun (slice, cursor) => ([0x5c, letter] ++ slice, cursor) := by
  have apart : letter ≠ 0x75 := by
    rintro rfl
    rw [not_letter] at escapes
    cases escapes
  rw [scanString.eq_def]
  simp only [if_neg apart, if_pos escapes]
  rfl

theorem scanString_code {first second third fourth : UInt16} (digits : [first, second, third, fourth].all isHexadecimal = true) :
    scanString index (0x5c :: 0x75 :: first :: second :: third :: fourth :: rest) =
      (scanString (index + 6) rest).map fun (slice, cursor) => ([0x5c, 0x75, first, second, third, fourth] ++ slice, cursor) := by
  have good : [first, second, third, fourth].findIdx? (!isHexadecimal ·) = none := by
    rw [List.findIdx?_eq_none_iff]
    intro unit member
    rw [List.all_eq_true.mp digits unit member]
    rfl
  rw [scanString.eq_def]
  simp only [List.take_succ_cons, List.take_zero, good]
  rfl

/-- A string that the grammar has is scanned to its quote. -/
theorem scanString_of_text (spelled : StringText text string) :
    scanString index (text ++ 0x22 :: rest) = .ok (text ++ [0x22], ⟨index + text.length + 1, rest⟩) := by
  induction spelled generalizing index with
  | nil =>
    rw [List.nil_append, scanString.eq_def]
    rfl
  | plain printed no_quote no_escape _ ih =>
    rw [List.cons_append, scanString_plain printed no_quote no_escape, ih, List.length_cons]
    simp only [Except.map, List.cons_append]
    rw [Nat.add_right_comm index 1, Nat.add_assoc index]
  | short escapes _ ih =>
    rw [List.cons_append, List.cons_append, scanString_short (isEscapeLetter_iff.mpr ⟨_, escapes⟩), ih]
    simp only [Except.map, List.cons_append, List.nil_append, List.length_cons]
    congr 3
    omega
  | code digits _ ih =>
    simp only [List.cons_append]
    rw [scanString_code digits, ih]
    simp only [Except.map, List.cons_append, List.nil_append, List.length_cons]
    congr 3
    omega

/-- A slice up to a quote, and the string before it. -/
def Scanned (index : ℕ) (rest slice : JsString) (after : Cursor) : Prop :=
  ∃ text string, StringText text string ∧ slice = text ++ [0x22] ∧ rest = slice ++ after.rest ∧ after.index = index + slice.length

theorem Scanned.longer {before : JsString} {unit : UInt16}
    (extends_text : ∀ {text string}, StringText text string → StringText (before ++ text) (unit :: string))
    (scanned : Scanned (index + before.length) rest slice after) : Scanned index (before ++ rest) (before ++ slice) after := by
  obtain ⟨text, string, spelled, rfl, rfl, reaches⟩ := scanned
  refine ⟨_, _, extends_text spelled, by simp, by simp, ?_⟩
  simp only [reaches, List.length_append]
  omega

/-- A string that is scanned is one of the grammar. -/
theorem scanString_text (scanned : scanString index rest = .ok (slice, after)) : Scanned index rest slice after := by
  induction index, rest using scanString.induct generalizing slice with
  | case1 index => cases scanned
  | case2 index unit rest control =>
    rw [scanString.eq_def] at scanned
    simp only [if_pos control] at scanned
    cases scanned
  | case3 index rest =>
    have closes := @scanString_of_text [] [] rest index .nil
    rw [List.nil_append] at closes
    cases closes.symm.trans scanned
    exact ⟨[], [], .nil, rfl, rfl, rfl⟩
  | case4 index => cases scanned
  | case5 index rest place found =>
    rw [scanString.eq_def] at scanned
    simp only [found] at scanned
    cases scanned
  | case6 index first second third fourth rest _ _ good ih =>
    have digits : [first, second, third, fourth].all isHexadecimal = true := by
      simpa [List.findIdx?_eq_none_iff] using good
    rw [scanString_code digits, map_ok] at scanned
    obtain ⟨⟨inside, _⟩, scanned, same⟩ := scanned
    cases same
    exact (ih scanned).longer fun spelled => .code digits spelled
  | case7 index digits short _ _ good =>
    rw [scanString.eq_def] at scanned
    simp only [good] at scanned
    cases scanned
  | case8 index letter rest no_code escapes _ _ ih =>
    rw [scanString_short escapes, map_ok] at scanned
    obtain ⟨⟨inside, _⟩, scanned, same⟩ := scanned
    cases same
    obtain ⟨unit, stands⟩ := isEscapeLetter_iff.mp escapes
    exact (ih scanned).longer fun spelled => .short stands spelled
  | case9 index letter rest no_code no_escape =>
    rw [scanString.eq_def] at scanned
    simp only [if_neg no_code, if_neg no_escape] at scanned
    cases scanned
  | case10 index unit rest no_control no_quote no_escape ih =>
    rw [scanString_plain (Nat.not_lt.mp no_control) no_quote no_escape, map_ok] at scanned
    obtain ⟨⟨inside, _⟩, scanned, same⟩ := scanned
    cases same
    exact @Scanned.longer _ _ _ _ [unit] _ (fun spelled => .plain (Nat.not_lt.mp no_control) no_quote no_escape spelled) (ih scanned)

/-- The parser takes the strings of the grammar. -/
theorem parseString_iff : parseString cursor = .ok (string, after) ↔
    ∃ text, StringText text string ∧ Consumes cursor (0x22 :: (text ++ [0x22])) after := by
  unfold parseString
  rw [then_ok]
  constructor
  · rintro ⟨inside, opens, rest⟩
    obtain ⟨⟨slice, after'⟩, scanned, same⟩ := then_ok.mp rest
    cases same
    obtain ⟨text, string, spelled, rfl, goes_on, reaches⟩ := scanString_text scanned
    rw [decodeJsonString, List.drop_succ_cons, List.drop_zero, List.dropLast_concat, decodeUnits_stringText spelled]
    exact ⟨text, spelled, (expect_iff.mp opens).trans ⟨goes_on, reaches⟩⟩
  · rintro ⟨text, spelled, consumes⟩
    refine ⟨cursor.advance 1, expect_iff.mpr (consumes_advance consumes.rest), then_ok.mpr ⟨(text ++ [0x22], after), ?_, ?_⟩⟩
    · have inside : (cursor.advance 1).rest = text ++ 0x22 :: after.rest := by
        rw [Cursor.advance, consumes.rest]
        simp
      rw [inside, scanString_of_text spelled, ← consumes.advance]
      simp only [Cursor.advance, List.length_cons, List.length_append, List.length_nil, consumes.rest]
      congr 3
      omega
    · change Except.ok (decodeJsonString (0x22 :: (text ++ [0x22])), after) = _
      rw [decodeJsonString, List.drop_succ_cons, List.drop_zero, List.dropLast_concat, decodeUnits_stringText spelled]

end Strings

section Numbers

variable {digits : Digits} {token : NumberToken}

/-- Not what a number could go on with. -/
def EndsNumber (unit : UInt16) : Prop := isDecimal unit = false ∧ unit ≠ 0x2e ∧ unit ≠ 0x65 ∧ unit ≠ 0x45

def NoDigit (unit : UInt16) : Prop := isDecimal unit = false

theorem takeDigits_split (taken : takeDigits text = some (digits, rest)) : text = digits.units ++ rest := by
  unfold takeDigits at taken
  split at taken
  · cases taken
    exact List.takeWhile_append_dropWhile.symm
  · cases taken

theorem takeDigits_append (ends : Follows NoDigit rest) : takeDigits (digits.units ++ rest) = some (digits, rest) := by
  have run : (digits.units ++ rest).takeWhile isDecimal = digits.units ∧ (digits.units ++ rest).dropWhile isDecimal = rest := by
    have all := List.all_eq_true.mp digits.decimal
    rw [List.takeWhile_append_of_pos all, List.dropWhile_append_of_pos all]
    cases rest with
    | nil => simp
    | cons unit rest =>
      have stops : isDecimal unit = false := ends unit rfl
      rw [List.takeWhile_cons_of_neg (by simp [stops]), List.dropWhile_cons_of_neg (by simp [stops]), List.append_nil]
      exact ⟨rfl, rfl⟩
  obtain ⟨units, some_units, decimal⟩ := digits
  unfold takeDigits
  rw [dif_pos (by rw [run.1]; exact some_units)]
  simp only [run.1, run.2]

theorem takeWhole_split {whole : { digits : Digits // digits.units.head? = some 0x30 → digits.units = [0x30] }}
    (taken : takeWhole text = some (whole, rest)) : text = whole.val.units ++ rest := by
  unfold takeWhole at taken
  split at taken
  next zero =>
    cases taken
    obtain ⟨tail, rfl⟩ := List.head?_eq_some_iff.mp zero
    rfl
  next =>
    obtain ⟨⟨digits, after⟩, found, rest⟩ := Option.bind_eq_some_iff.mp taken
    dsimp only at rest
    split at rest
    · cases rest
    · cases rest
      exact takeDigits_split found

theorem takeWhole_append (shortest : digits.units.head? = some 0x30 → digits.units = [0x30]) (ends : Follows NoDigit rest) :
    takeWhole (digits.units ++ rest) = some (⟨digits, shortest⟩, rest) := by
  have head : (digits.units ++ rest).head? = digits.units.head? := List.head?_append_of_ne_nil _ digits.some_units
  unfold takeWhole
  rw [head]
  split
  next zero =>
    have alone := shortest zero
    obtain ⟨units, _, _⟩ := digits
    subst alone
    rfl
  next larger =>
    rw [takeDigits_append ends, Option.bind_some]
    dsimp only
    rw [dif_neg larger]

def fractionText (fraction : Option Digits) : JsString := (fraction.map fun digits => 0x2e :: digits.units).getD []

def exponentText (exponent : Option Exponent) : JsString := (exponent.map Exponent.text).getD []

theorem takeFraction_split : text = fractionText (takeFraction text).1 ++ (takeFraction text).2 := by
  unfold takeFraction
  split
  next rest =>
    cases found : takeDigits rest with
    | none => rfl
    | some taken => exact congrArg (0x2e :: ·) (takeDigits_split found)
  next => rfl

theorem takeFraction_none (ends : Follows (· ≠ 0x2e) rest) : takeFraction rest = (none, rest) := by
  unfold takeFraction
  split
  next rest => exact absurd rfl (ends 0x2e rfl)
  next => rfl

theorem takeFraction_some (ends : Follows NoDigit rest) : takeFraction (0x2e :: (digits.units ++ rest)) = (some digits, rest) := by
  rw [takeFraction, takeDigits_append ends]

theorem takeSign_split : text = ((takeSign text).1.map Sign.text).getD [] ++ (takeSign text).2 := by
  unfold takeSign
  split <;> rfl

theorem takeSign_digits (sign : Option Sign) :
    takeSign ((sign.map Sign.text).getD [] ++ (digits.units ++ rest)) = (sign, digits.units ++ rest) := by
  cases sign with
  | some sign => cases sign <;> rfl
  | none =>
    obtain ⟨first, others, whole⟩ := List.exists_cons_of_ne_nil digits.some_units
    have decimal := List.all_eq_true.mp digits.decimal first (by rw [whole]; exact List.mem_cons_self)
    rw [whole]
    simp only [Option.map_none, Option.getD_none, List.nil_append, List.cons_append]
    unfold takeSign
    split
    next same =>
      cases same
      cases decimal
    next same =>
      cases same
      cases decimal
    next => rfl

theorem takeExponent_split : text = exponentText (takeExponent text).1 ++ (takeExponent text).2 := by
  unfold takeExponent
  split
  next => rfl
  next letter rest =>
    split
    next marks =>
      cases found : takeDigits (takeSign rest).2 with
      | none => rfl
      | some taken =>
        obtain ⟨digits, after⟩ := taken
        have marker : letter = if decide (letter = 0x45) then 0x45 else 0x65 := by
          rcases marks with rfl | rfl <;> rfl
        have tail : rest = ((takeSign rest).1.map Sign.text).getD [] ++ (digits.units ++ after) := by
          rw [← takeDigits_split found]
          exact takeSign_split
        change letter :: rest = (if decide (letter = 0x45) then 0x45 else 0x65) :: (_ ++ digits.units ++ after)
        rw [← marker, List.append_assoc, ← tail]
    next => rfl

theorem takeExponent_none (ends : Follows (fun unit => unit ≠ 0x65 ∧ unit ≠ 0x45) rest) : takeExponent rest = (none, rest) := by
  unfold takeExponent
  split
  next => rfl
  next letter rest =>
    obtain ⟨small, capital⟩ := ends letter rfl
    rw [if_neg (by simp [small, capital])]

theorem takeExponent_some (exponent : Exponent) (ends : Follows NoDigit rest) : takeExponent (exponent.text ++ rest) = (some exponent, rest) := by
  obtain ⟨capital, sign, digits⟩ := exponent
  have after : ((sign.map Sign.text).getD [] ++ digits.units) ++ rest = (sign.map Sign.text).getD [] ++ (digits.units ++ rest) :=
    List.append_assoc _ _ _
  cases capital <;>
  · simp only [Exponent.text, takeExponent, List.cons_append, after, takeSign_digits, takeDigits_append ends]
    rfl

theorem NumberToken.text_append : token.text ++ rest = (if token.negative then [0x2d] else []) ++
    (token.whole.units ++ (fractionText token.fraction ++ (exponentText token.exponent ++ rest))) := by
  unfold NumberToken.text fractionText exponentText
  simp only [List.append_assoc]

/-- What is taken off a text is the text of a number. -/
theorem takeNumber_split (taken : takeNumber text = some (token, rest)) : text = token.text ++ rest := by
  unfold takeNumber at taken
  obtain ⟨⟨whole, after⟩, found, same⟩ := Option.map_eq_some_iff.mp taken
  obtain ⟨rfl, rfl⟩ : (⟨decide (text.head? = some 0x2d), whole.val, whole.property, (takeFraction after).1,
      (takeExponent (takeFraction after).2).1⟩ : NumberToken) = token ∧ (takeExponent (takeFraction after).2).2 = rest := Prod.mk.inj same
  rw [NumberToken.text_append, ← takeExponent_split, ← takeFraction_split, ← takeWhole_split found]
  by_cases minus : text.head? = some 0x2d
  · obtain ⟨tail, rfl⟩ := List.head?_eq_some_iff.mp minus
    rfl
  · simp only [minus]
    rfl

/-- A number that ends where its text does is taken. -/
theorem takeNumber_append (ends : Follows EndsNumber rest) : takeNumber (token.text ++ rest) = some (token, rest) := by
  obtain ⟨negative, whole, shortest, fraction, exponent⟩ := token
  have exponent_taken : takeExponent (exponentText exponent ++ rest) = (exponent, rest) := by
    cases exponent with
    | none => exact takeExponent_none fun unit head => (ends unit head).2.2
    | some exponent => exact takeExponent_some exponent fun unit head => (ends unit head).1
  have exponent_starts : Follows (fun unit => NoDigit unit ∧ unit ≠ 0x2e) (exponentText exponent ++ rest) := by
    cases exponent with
    | none => exact fun unit head => ⟨(ends unit head).1, (ends unit head).2.1⟩
    | some exponent =>
      obtain ⟨capital, sign, digits⟩ := exponent
      apply follows_cons
      cases capital
      · exact ⟨rfl, fun same => absurd same (by decide : (0x65 : UInt16) ≠ 0x2e)⟩
      · exact ⟨rfl, fun same => absurd same (by decide : (0x45 : UInt16) ≠ 0x2e)⟩
  have fraction_taken : takeFraction (fractionText fraction ++ (exponentText exponent ++ rest)) = (fraction, exponentText exponent ++ rest) := by
    cases fraction with
    | none => exact takeFraction_none fun unit head => (exponent_starts unit head).2
    | some digits =>
      rw [← takeFraction_some fun unit head => (exponent_starts unit head).1]
      rfl
  have fraction_starts : Follows NoDigit (fractionText fraction ++ (exponentText exponent ++ rest)) := by
    cases fraction with
    | none => exact fun unit head => (exponent_starts unit head).1
    | some digits => exact follows_cons rfl
  have whole_taken := takeWhole_append shortest fraction_starts
  obtain ⟨first, others, begins⟩ := List.exists_cons_of_ne_nil whole.some_units
  have plus : (whole.units ++ (fractionText fraction ++ (exponentText exponent ++ rest))).head? ≠ some 0x2d := by
    have decimal := List.all_eq_true.mp whole.decimal first (by rw [begins]; exact List.mem_cons_self)
    rw [begins]
    intro same
    cases same
    cases decimal
  rw [NumberToken.text_append]
  unfold takeNumber
  cases negative with
  | true =>
    simp only [if_true, List.cons_append, List.nil_append, List.head?_cons, List.drop_succ_cons, List.drop_zero, decide_true, whole_taken,
      Option.map_some, fraction_taken, exponent_taken]
  | false =>
    simp only [Bool.false_eq_true, if_false, List.nil_append, decide_eq_false plus, whole_taken, Option.map_some, fraction_taken,
      exponent_taken]

/-- The parser takes a number of the grammar if a double is near it. -/
theorem parseNumber_text {number : Double} (parsed : parseNumber cursor = .ok (number, after)) :
    ∃ token : NumberToken, token.number = some number ∧ Consumes cursor token.text after := by
  unfold parseNumber at parsed
  split at parsed
  · cases parsed
  next token rest taken =>
    split at parsed
    · cases parsed
    next value finite =>
      cases parsed
      exact ⟨token, finite, consumes_advance (takeNumber_split taken)⟩

theorem parseNumber_of_text {number : Double} {last : Cursor} (consumes : Consumes cursor token.text after) (ends : Follows EndsNumber after.rest) :
    parseNumber cursor = .ok (number, last) ↔ token.number = some number ∧ last = after := by
  unfold parseNumber
  rw [consumes.rest, takeNumber_append ends]
  dsimp only
  cases token.number with
  | none => simp [Cursor.error]
  | some value => simp [consumes.advance, eq_comm]

end Numbers

end SecureHome.Governance
