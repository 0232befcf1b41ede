import SecureHome.Lib.Folding
import SecureHome.Core.Terminal
import SecureHome.Adapters.Coding.ClaudeObserve
import SecureHome.Adapters.Coding.CopilotObserve

/-! The words the coding adapters report a terminal with, against the words the trusted
classifier reads. -/

namespace SecureHome.Adapters.Coding
open Core Lib

namespace Numeral

private theorem digits_spell {number : Nat} {character : Char} (member : character ∈ Nat.toDigits 10 number) :
    character ≠ 's' := by
  have digit := Nat.isDigit_of_mem_toDigits (by omega) (by omega) member
  rintro rfl
  exact absurd digit (by decide)

private theorem significant_spell {digits exponent : Int} {character : Char}
    (member : character ∈ (significant digits exponent).1) : character ≠ 's' := by
  apply @digits_spell digits.natAbs
  have trimmed := List.mem_reverse.mp member
  exact List.mem_reverse.mp ((List.dropWhile_sublist _).subset trimmed)

private theorem mantissa_spell {shown : List Char} (spelt : ∀ character ∈ shown, character ≠ 's') :
    ∀ character ∈ shown.take 1 ++ (if shown.length = 1 then [] else '.' :: shown.drop 1), character ≠ 's' := by
  intro character member
  rcases List.mem_append.mp member with inside | inside
  · exact spelt character (List.mem_of_mem_take inside)
  · split at inside
    · exact absurd inside List.not_mem_nil
    · rcases List.mem_cons.mp inside with rfl | inside
      · decide
      · exact spelt character (List.mem_of_mem_drop inside)

private theorem written_spell {shown : List Char} (spelt : ∀ character ∈ shown, character ≠ 's') (point : Int) :
    ∀ character ∈ written shown point, character ≠ 's' := by
  intro character member
  unfold written at member
  split at member
  · rcases List.mem_append.mp member with inside | inside
    · exact spelt character inside
    · rw [List.eq_of_mem_replicate inside]
      decide
  · split at member
    · rcases List.mem_append.mp member with inside | inside
      · exact spelt character (List.mem_of_mem_take inside)
      · rcases List.mem_cons.mp inside with rfl | inside
        · decide
        · exact spelt character (List.mem_of_mem_drop inside)
    · split at member
      · simp only [List.mem_append, List.mem_cons, List.mem_replicate] at member
        rcases member with (rfl | rfl | ⟨_, rfl⟩) | inside
        · decide
        · decide
        · decide
        · exact spelt character inside
      · rcases List.mem_append.mp member with mantissa | scale
        · exact mantissa_spell spelt character mantissa
        · rcases List.mem_cons.mp scale with rfl | scale
          · decide
          · rcases List.mem_cons.mp scale with sign | inside
            · split at sign <;> (subst sign; decide)
            · exact digits_spell inside

private theorem constant_spell {text : String} (free : (text.toList.all fun character => character != 's') = true)
    {character : Char} (member : character ∈ text.toList) : character ≠ 's' := by
  have apart := List.all_eq_true.mp free character member
  simpa using apart

/-- No number is written with the letter a success claim begins with. -/
theorem text_spell (numeral : Numeral) : ∀ character ∈ numeral.text.toList, character ≠ 's' := by
  intro character member
  unfold text at member
  split at member
  · split_ifs at member
    · exact constant_spell (by decide) member
    · exact constant_spell (by decide) member
  · split_ifs at member with zero negative
    · exact constant_spell (by decide) member
    · simp only [String.toList_ofList, List.mem_append, List.mem_singleton] at member
      rcases member with rfl | inside
      · decide
      · exact written_spell (fun _ => significant_spell) _ character inside
    · simp only [String.toList_ofList, List.nil_append] at member
      exact written_spell (fun _ => significant_spell) _ character member

theorem text_ne_success (numeral : Numeral) : numeral.text ≠ "success" := by
  intro same
  apply numeral.text_spell 's' _ rfl
  rw [same]
  decide

end Numeral

variable (parse : String → Option Value)

/-- What a transcript's own last terminal frame reports. -/
inductive Reported where
  | success
  | failure
  deriving DecidableEq, Repr

/-- A process end and a reported outcome that cannot both be right: a clean exit with a
signal, a failing exit beside a success, or a clean exit beside a failure. -/
def Disagree (exitCode : Option Int) (signalled : Option String) (reported : Option Reported) : Prop :=
  exitCode = some 0 ∧ signalled ≠ none ∨
  exitCode ≠ none ∧ exitCode ≠ some 0 ∧ reported = some .success ∨
  exitCode = some 0 ∧ reported = some .failure

instance (exitCode : Option Int) (signalled : Option String) (reported : Option Reported) :
    Decidable (Disagree exitCode signalled reported) :=
  inferInstanceAs (Decidable (_ ∨ _ ∧ _ ∧ _ ∨ _ ∧ _))

/-- What the classifier finds unestablished, in one line. -/
theorem unestablished_iff {observations : TerminalObservations} :
    classifyTerminalObservations observations ≠ .established ↔
      observations.exitCode = some 0 ∧ observations.signalled ≠ none ∨
      observations.exitCode ≠ none ∧ observations.exitCode ≠ some 0 ∧ observations.reportedOutcome = some "success" ∨
      observations.transcriptTerminal ≠ none ∧ observations.exitCode = some 0 ∧
        observations.transcriptTerminal ≠ some "success" := by
  rw [ne_eq, established_iff]
  unfold terminalConflict
  split_ifs with signalled success transcript
  · simp only [not_false_eq_true, true_iff]
    exact .inl signalled
  · simp only [not_false_eq_true, true_iff]
    exact .inr (.inl success)
  · simp only [not_false_eq_true, true_iff]
    exact .inr (.inr transcript)
  · simp only [not_true_eq_false, false_iff]
    rintro (held | held | held)
    · exact signalled held
    · exact success held
    · exact transcript held

/-- A fold over the lines that only frames take part in. -/
theorem lines_latest {consume : Reading → String → Reading} {report : Record → Option TerminalScratch}
    (each : ∀ reading line,
      (consume reading line).terminal = ((frameOf parse line).bind report).getD reading.terminal)
    (text : String) (reading : Reading) :
    ((lines text).foldl consume reading).terminal =
      ((frames parse text).filterMap report).getLast?.getD reading.terminal := by
  rw [foldl_latest Reading.terminal each, frames, List.filterMap_filterMap]

namespace Claude

def isResult (frame : Record) : Bool := asString (frame.lookup "type") = some "result"

/-- The last result frame of a transcript. -/
def lastResult (text : String) : Option Record := ((frames parse text).filter isResult).getLast?

def saysSuccess (frame : Record) : Bool := asString (frame.lookup "subtype") = some "success"

def saysError (frame : Record) : Bool :=
  match frame.lookup "is_error" with
  | some (.boolean failed) => failed
  | _ => false

def reported (frame : Record) : Reported := if saysSuccess frame ∧ ¬ saysError frame then .success else .failure

/-- Where the adapter's words come to what the transcript says: no clean end without a
signal after a success, and no success that its own frame calls an error beside a
failing exit. -/
def Understood (captured : CapturedRun) : Prop :=
  ¬ (captured.exitCode = some 0 ∧ captured.signalled = none ∧
      (lastResult parse captured.stdout).map reported = some .success) ∧
  ¬ (captured.exitCode ≠ none ∧ captured.exitCode ≠ some 0 ∧
      ∃ frame, lastResult parse captured.stdout = some frame ∧ saysSuccess frame ∧ saysError frame)

private theorem consumeBlock_terminal (reading : Reading) (block : Value) :
    (consumeBlock reading block).terminal = reading.terminal := by
  unfold consumeBlock
  repeat' split
  all_goals rfl

private theorem consumeDenial_terminal (reading : Reading) (denial : Value) :
    (consumeDenial reading denial).terminal = reading.terminal := by
  unfold consumeDenial
  repeat' split
  all_goals rfl

private theorem consumeResult_terminal (reading : Reading) (frame : Record) :
    (consumeResult reading frame).terminal = ⟨some (reportedOutcome frame), some "result"⟩ := by
  unfold consumeResult consumeDenials
  cases asString (frame.lookup "result") <;> cases asArray (frame.lookup "permission_denials") <;>
    simp only [foldl_keeps Reading.terminal consumeDenial_terminal]

def resultScratch (frame : Record) : Option TerminalScratch :=
  if isResult frame then some ⟨some (reportedOutcome frame), some "result"⟩ else none

private theorem consumeMessage_terminal (reading : Reading) (frame : Record) (time : String) :
    (consumeMessage reading frame time).terminal = reading.terminal := by
  unfold consumeMessage
  cases messageContent frame with
  | none => rfl
  | some content => exact foldl_keeps Reading.terminal consumeBlock_terminal content reading

private theorem consumeFrame_terminal (reading : Reading) (frame : Record) :
    (consumeFrame reading frame).terminal = (resultScratch frame).getD reading.terminal := by
  unfold consumeFrame resultScratch isResult
  split
  next type => simp [type]
  next type => simp [type, consumeMessage_terminal]
  next type => simp [type, consumeMessage_terminal]
  next type => simp [type, consumeResult_terminal]
  next other => rw [if_neg (by simpa using other), Option.getD_none]

private theorem consumeLine_terminal (reading : Reading) (line : String) :
    (consumeLine parse reading line).terminal =
      ((frameOf parse line).bind resultScratch).getD reading.terminal := by
  unfold consumeLine frameOf
  split
  · rfl
  · cases parse line with
    | none => rfl
    | some value =>
      cases held : value.record? with
      | none => simp [held]
      | some frame => simpa [held] using consumeFrame_terminal reading frame

theorem observed_terminal (captured : CapturedRun) (budget : Numeral) :
    (observeRun parse captured budget).terminal =
      ⟨captured.exitCode, (lastResult parse captured.stdout).map reportedOutcome,
        (lastResult parse captured.stdout).map fun _ => "result", captured.signalled⟩ := by
  have terminal := lines_latest parse (consumeLine_terminal parse) captured.stdout { out := { budget } }
  have results : (frames parse captured.stdout).filterMap resultScratch =
      ((frames parse captured.stdout).filter isResult).map
        fun frame => ⟨some (reportedOutcome frame), some "result"⟩ := by
    induction frames parse captured.stdout with
    | nil => rfl
    | cons frame rest ih => cases holds : isResult frame <;> simp [resultScratch, holds, ih]
  rw [results, List.getLast?_map] at terminal
  unfold observeRun lastResult
  rw [Reading.observe_terminal, terminal]
  cases ((frames parse captured.stdout).filter isResult).getLast? <;> rfl

private theorem reportedOutcome_success {frame : Record} :
    reportedOutcome frame = "success" ↔ saysSuccess frame = true := by
  unfold reportedOutcome saysSuccess
  cases asString (frame.lookup "subtype") with
  | some subtype => simp
  | none =>
    simp only [reduceCtorEq, decide_false, Bool.false_eq_true, iff_false]
    split
    next failed _ => cases failed <;> decide
    next => decide

/-- The adapter's observations are found unestablished just where the process's end and
the transcript's own report disagree, if and only if the words are understood. -/
theorem understood_iff (captured : CapturedRun) (budget : Numeral) :
    (classifyTerminalObservations (observeRun parse captured budget).terminal ≠ .established ↔
      Disagree captured.exitCode captured.signalled ((lastResult parse captured.stdout).map reported)) ↔
    Understood parse captured := by
  rw [unestablished_iff, observed_terminal]
  unfold Disagree Understood
  cases lastResult parse captured.stdout with
  | none => simp
  | some frame =>
    unfold reported
    cases success : saysSuccess frame <;> cases error : saysError frame <;>
      by_cases clean : captured.exitCode = some 0 <;> cases captured.signalled <;>
      simp [reportedOutcome_success, success, error, clean]

end Claude

namespace Copilot

/-- The type and the exit code of a frame that no other kind claims. -/
def terminalFrame (frame : Record) : Option (String × Numeral) :=
  match frameType frame with
  | none => none
  | some type =>
    if type ∈ ["assistant.message", "tool.execution_complete", "permission.completed", "session.shutdown"] then none
    else (frameExit frame).map fun exitCode => (type, exitCode)

def lastTerminal (captured : CapturedRun) : Option (String × Numeral) :=
  ((bothSurfaces parse captured).filterMap terminalFrame).getLast?

def reported (terminal : String × Numeral) : Reported := if terminal.2.isZero then .success else .failure

/-- Where the adapter's words come to what the transcript says: beside a clean end
without a signal a terminal frame is of the type `success` just when it exits zero, and
beside a failing exit it does not exit zero. -/
def Understood (captured : CapturedRun) : Prop :=
  ∀ terminal, lastTerminal parse captured = some terminal →
    (captured.exitCode = some 0 → captured.signalled = none →
      (terminal.1 = "success" ↔ reported terminal = .success)) ∧
    (captured.exitCode ≠ none → captured.exitCode ≠ some 0 → reported terminal ≠ .success)

def terminalScratch (frame : Record) : Option TerminalScratch :=
  (terminalFrame frame).map fun terminal => ⟨some terminal.2.text, some terminal.1⟩

private theorem consumeRequest_terminal (reading : Reading) (request : Value) :
    (consumeRequest reading request).terminal = reading.terminal := by
  unfold consumeRequest
  repeat' split
  all_goals rfl

private theorem consumeContent_terminal (reading : Reading) (frame : Record) :
    (consumeContent reading frame).terminal = reading.terminal := by
  unfold consumeContent
  repeat' split
  all_goals rfl

private theorem consumeMessage_terminal (reading : Reading) (frame : Record) :
    (consumeMessage reading frame).terminal = reading.terminal := by
  unfold consumeMessage
  cases asArray (frame.lookup "toolRequests") with
  | none => exact consumeContent_terminal reading frame
  | some requests =>
    exact (foldl_keeps Reading.terminal consumeRequest_terminal requests _).trans
      (consumeContent_terminal reading frame)

private theorem consumeCompletion_terminal (surface : Surface) (reading : Reading) (frame : Record) (time : String) :
    (consumeCompletion surface reading frame time).terminal = reading.terminal := by
  unfold consumeCompletion
  repeat' split
  all_goals rfl

private theorem consumeOther_terminal (surface : Surface) (reading : Reading) (frame : Record) (type time : String) :
    (consumeOther surface reading frame type time).terminal =
      ((frameExit frame).map fun exitCode => (⟨some exitCode.text, some type⟩ : TerminalScratch)).getD
        reading.terminal := by
  unfold consumeOther
  cases frameExit frame with
  | none =>
    dsimp only
    split <;> rfl
  | some exitCode => rfl

private theorem consumeFrame_terminal (surface : Surface) (reading : Reading) (frame : Record) :
    (consumeFrame surface reading frame).terminal = (terminalScratch frame).getD reading.terminal := by
  unfold consumeFrame terminalScratch terminalFrame
  split
  next type => simp [type]
  next type => simp [type, consumeMessage_terminal]
  next type => simp [type, consumeCompletion_terminal]
  next type => simp [type, consumePermission]
  next type => simp [type]
  next type message completion permission shutdown held =>
    have unclaimed : type ∉
        ["assistant.message", "tool.execution_complete", "permission.completed", "session.shutdown"] := by
      simp only [List.mem_cons, List.not_mem_nil, or_false, not_or]
      exact ⟨message, completion, permission, shutdown⟩
    rw [held]
    simp only [if_neg unclaimed]
    rw [consumeOther_terminal, Option.map_map]
    rfl

private theorem consumeLine_terminal (surface : Surface) (reading : Reading) (line : String) :
    (consumeLine parse surface reading line).terminal =
      ((frameOf parse line).bind terminalScratch).getD reading.terminal := by
  unfold consumeLine frameOf
  split
  · rfl
  · cases parse line with
    | none => rfl
    | some value =>
      cases held : value.record? with
      | none => simp [held]
      | some frame => simpa [held] using consumeFrame_terminal surface reading frame

private theorem consumeSurface_terminal (surface : Surface) (bytes : String) (reading : Reading) :
    (consumeSurface parse bytes surface reading).terminal =
      ((frames parse bytes).filterMap terminalScratch).getLast?.getD reading.terminal :=
  lines_latest parse (consumeLine_terminal parse surface) bytes reading

private theorem scratch_frames (held : List Record) :
    held.filterMap terminalScratch =
      (held.filterMap terminalFrame).map fun terminal => ⟨some terminal.2.text, some terminal.1⟩ := by
  rw [List.map_filterMap]
  rfl

theorem observed_terminal (captured : CapturedRun) (budget : Numeral) :
    (observeRun parse captured budget).terminal =
      ⟨captured.exitCode, (lastTerminal parse captured).map fun terminal => terminal.2.text,
        (lastTerminal parse captured).map Prod.fst, captured.signalled⟩ := by
  have scratch : ∀ last : Option (String × Numeral),
      ((last.map fun terminal => (⟨some terminal.2.text, some terminal.1⟩ : TerminalScratch)).getD {}) =
        ⟨last.map fun terminal => terminal.2.text, last.map Prod.fst⟩ := by
    intro last
    cases last <;> rfl
  unfold observeRun lastTerminal bothSurfaces
  rw [Reading.observe_terminal]
  cases captured.eventsJsonl with
  | none =>
    dsimp only
    rw [consumeSurface_terminal, scratch_frames, List.getLast?_map, scratch]
    simp
  | some bytes =>
    dsimp only
    rw [consumeSurface_terminal, consumeSurface_terminal, scratch_frames, scratch_frames, List.getLast?_map,
      List.getLast?_map, Option.map_some, Option.getD_some, List.filterMap_append, List.getLast?_append]
    -- What the persisted surface reports last stands for both.
    cases ((frames parse bytes).filterMap terminalFrame).getLast? with
    | none => rw [Option.map_none, Option.getD_none, scratch, Option.none_or]
    | some terminal => rfl

/-- The adapter's observations are found unestablished just where the process's end and
the transcript's own report disagree, if and only if the words are understood. -/
theorem understood_iff (captured : CapturedRun) (budget : Numeral) :
    (classifyTerminalObservations (observeRun parse captured budget).terminal ≠ .established ↔
      Disagree captured.exitCode captured.signalled ((lastTerminal parse captured).map reported)) ↔
    Understood parse captured := by
  rw [unestablished_iff, observed_terminal]
  unfold Disagree Understood
  cases lastTerminal parse captured with
  | none => simp
  | some terminal =>
    unfold reported
    by_cases word : terminal.1 = "success" <;> cases zero : terminal.2.isZero <;>
      by_cases clean : captured.exitCode = some 0 <;> cases captured.signalled <;>
      simp [terminal.2.text_ne_success, word, zero, clean]

end Copilot

/-- Both adapters and the classifier agree on what cannot be established in just the
runs whose words both sides understand. -/
theorem vocabulary_shared_iff :
    (∀ (captured : Claude.CapturedRun) (budget : Numeral),
      (classifyTerminalObservations (Claude.observeRun parse captured budget).terminal ≠ .established ↔
        Disagree captured.exitCode captured.signalled
          ((Claude.lastResult parse captured.stdout).map Claude.reported)) ↔
      Claude.Understood parse captured) ∧
    ∀ (captured : Copilot.CapturedRun) (budget : Numeral),
      (classifyTerminalObservations (Copilot.observeRun parse captured budget).terminal ≠ .established ↔
        Disagree captured.exitCode captured.signalled ((Copilot.lastTerminal parse captured).map Copilot.reported)) ↔
      Copilot.Understood parse captured := by
  refine ⟨?_, ?_⟩
  · intro captured budget
    exact Claude.understood_iff parse captured budget
  · intro captured budget
    exact Copilot.understood_iff parse captured budget

/-- The transcript of a run that ended in success, and what it parses to. -/
def cleanTranscript : String := "\x7b\"type\":\"result\",\"subtype\":\"success\",\"is_error\":false\x7d"

def parseClean (line : String) : Option Value :=
  if line = cleanTranscript then
    some (.object [("type", .text "result"), ("subtype", .text "success"), ("is_error", .boolean false)])
  else none

/-- A clean exit without a signal after a success is not established: the adapter
reports the frame's type where the classifier reads for the word of success. -/
theorem clean_success_unestablished :
    ¬ (classifyTerminalObservations
        (Claude.observeRun parseClean ⟨cleanTranscript, some 0, none⟩ (.decimal 65536 0)).terminal ≠ .established ↔
      Disagree (some 0) none ((Claude.lastResult parseClean cleanTranscript).map Claude.reported)) := by
  decide +kernel

end SecureHome.Adapters.Coding
