import Abacus.Session

/-!
# Turns and lines

A session reads as it goes, into one buffer. Here its input is cut into lines beforehand, and the
answer to a line is given as a function of the line alone. A session is proved to be that
conversation (`holdFrom_eq_converse`): each turn takes the next of the lines off the input, and what
an earlier turn left in the buffer makes no difference to it.
-/

namespace Abacus.Session

section Turn

/-- What is written about a line, given without the blanks around it. -/
def response (handler : ReportHandler) (layout : Layout) (text : String) : String :=
  if text = "" then ""
  else match parseSource text with
    | .ok program => program.render layout
    | .error e => Text.trimEnd (e.rendered handler sourceName text) ++ "\n"

/-- Whether a line, given without the blanks around it, is counted as a program. -/
def isProgram (text : String) : Bool := decide (text ≠ "") && (parseSource text).isOk

variable {handler : ReportHandler} {layout : Layout} {tape : Tape} {line rest : List UInt8}
  {text : String}

/-- A line that is no text breaks a session off. -/
theorem turnOn_of_none (hcut : cutLine tape.input = (line, rest))
    (hline : String.fromUTF8? ⟨line.toArray⟩ = none) (memory : Memory) :
    turnOn handler layout memory tape =
      (.broken, memory.clear, ⟨rest, tape.output ++ prompt⟩) := by
  simp [turnOn, turn, Tape.console, Memory.append?, hcut, hline]

/-- The line `exit` ends a session. -/
theorem turnOn_of_exit (hcut : cutLine tape.input = (line, rest)) (hne : line ≠ [])
    (hline : String.fromUTF8? ⟨line.toArray⟩ = some text) (hexit : Text.trim text = "exit")
    (memory : Memory) :
    turnOn handler layout memory tape =
      (.over, ⟨text, memory.parsed⟩, ⟨rest, tape.output ++ prompt⟩) := by
  simp [turnOn, turn, Tape.console, Memory.append?, Memory.clear, hcut, hne, hline, hexit]

/-- Any other line is answered by the response to it and counted if it is a program. -/
theorem turnOn_of_ne_exit (hcut : cutLine tape.input = (line, rest)) (hne : line ≠ [])
    (hline : String.fromUTF8? ⟨line.toArray⟩ = some text) (hexit : Text.trim text ≠ "exit")
    (memory : Memory) :
    turnOn handler layout memory tape =
      (.goOn, ⟨text, memory.parsed + (isProgram (Text.trim text)).toNat⟩,
        ⟨rest, tape.output ++ prompt ++ response handler layout (Text.trim text)⟩) := by
  have happend : memory.clear.append? line = some ⟨text, memory.parsed⟩ := by
    simp [Memory.append?, Memory.clear, hline]
  by_cases hblank : Text.trim text = ""
  · simp [turnOn, turn, Tape.console, happend, hcut, hne, hblank, response, isProgram]
  · cases hresult : parseSource (Text.trim text) with
    | ok program =>
      simp [turnOn, turn, Tape.console, happend, hcut, hne, hexit, hblank, hresult, response,
        isProgram, Memory.count, Except.isOk, Except.toBool]
    | error e =>
      simp [turnOn, turn, Tape.console, happend, hcut, hne, hexit, hblank, hresult, response,
        isProgram, Except.isOk, Except.toBool]

end Turn

section Cutting

/-- Puts a byte in front of lines: a line feed closes a line of its own. -/
def consByte (b : UInt8) : List (List UInt8) → List (List UInt8)
  | [] => [[b]]
  | line :: rest => if b = 10 then [b] :: line :: rest else (b :: line) :: rest

/-- The lines of an input, each with the line feed that closes it. -/
def lines (input : List UInt8) : List (List UInt8) := input.foldr consByte []

@[simp] theorem lines_nil : lines [] = [] := rfl

@[simp] theorem lines_cons (b : UInt8) (input : List UInt8) :
    lines (b :: input) = consByte b (lines input) := rfl

/-- A line feed closes a line of its own in front of any others. -/
theorem consByte_feed (ls : List (List UInt8)) : consByte 10 ls = [10] :: ls := by
  cases ls <;> rfl

/-- Any other byte belongs to the line behind it. -/
theorem consByte_of_ne {b : UInt8} (hb : b ≠ 10) (line : List UInt8) (ls : List (List UInt8)) :
    consByte b (line :: ls) = (b :: line) :: ls := by
  simp [consByte, hb]

/-- A byte other than a line feed is cut off with the line behind it. -/
theorem cutLine_cons_of_ne {b : UInt8} (hb : b ≠ 10) (input : List UInt8) :
    cutLine (b :: input) = (b :: (cutLine input).1, (cutLine input).2) := by
  simp only [cutLine, List.takeWhile_cons, List.dropWhile_cons, hb, ne_eq, not_false_eq_true,
    decide_true, if_true]
  split <;> rfl

/-- What is cut off an input is the first of its lines. -/
theorem lines_eq_cons {input line rest : List UInt8} (h : input ≠ [])
    (hcut : cutLine input = (line, rest)) : line ≠ [] ∧ lines input = line :: lines rest := by
  induction input generalizing line with
  | nil => exact absurd rfl h
  | cons b input ih =>
    by_cases hb : b = 10
    · subst hb
      obtain ⟨rfl, rfl⟩ := Prod.mk.inj hcut
      exact ⟨List.cons_ne_nil _ _, consByte_feed _⟩
    · rw [cutLine_cons_of_ne hb] at hcut
      obtain ⟨rfl, hrest⟩ := Prod.mk.inj hcut
      refine ⟨List.cons_ne_nil _ _, ?_⟩
      cases input with
      | nil =>
        subst hrest
        rfl
      | cons c input =>
        obtain ⟨-, hlines⟩ := ih (List.cons_ne_nil c input) (Prod.ext rfl hrest)
        rw [lines_cons, hlines, consByte_of_ne hb]

end Cutting

section Conversation

/-- Goes on with a session behind the given output and number of programs. -/
def converse (handler : ReportHandler) (layout : Layout) (output : String) (parsed : Nat) :
    List (List UInt8) → Transcript
  | [] => ⟨output ++ prompt ++ "\n", parsed, false⟩
  | line :: rest =>
    match String.fromUTF8? ⟨line.toArray⟩ with
    | none => ⟨output ++ prompt, parsed, true⟩
    | some text =>
      if Text.trim text = "exit" then ⟨output ++ prompt, parsed, false⟩
      else
        converse handler layout (output ++ prompt ++ response handler layout (Text.trim text))
          (parsed + (isProgram (Text.trim text)).toNat) rest

variable {handler : ReportHandler} {layout : Layout}

/-- A session is its first turn and, if that goes on, the turns to come. -/
theorem holdFrom_eq (memory : Memory) (tape : Tape) :
    holdFrom handler layout memory tape =
      match turnOn handler layout memory tape with
      | (.goOn, memory', tape') => holdFrom handler layout memory' tape'
      | (.over, memory', tape') => ⟨tape'.output, memory'.parsed, false⟩
      | (.broken, memory', tape') => ⟨tape'.output, memory'.parsed, true⟩ := by
  rw [holdFrom]
  split <;> simp_all only

/-- A session is the conversation on the lines of its input, whatever its buffer holds. -/
theorem holdFrom_eq_converse (memory : Memory) (tape : Tape) :
    holdFrom handler layout memory tape =
      converse handler layout tape.output memory.parsed (lines tape.input) := by
  rw [holdFrom_eq]
  by_cases hinput : tape.input = []
  · obtain ⟨_, output⟩ := tape
    obtain rfl := hinput
    rw [turnOn_of_nil]
    rfl
  · obtain ⟨line, rest, hcut⟩ : ∃ line rest, cutLine tape.input = (line, rest) := ⟨_, _, rfl⟩
    obtain ⟨hne, hlines⟩ := lines_eq_cons hinput hcut
    have hshorter : rest.length < tape.input.length := by
      simpa [hcut] using length_cutLine_lt hinput
    rw [hlines]
    cases hline : String.fromUTF8? ⟨line.toArray⟩ with
    | none => simp only [turnOn_of_none hcut hline memory, converse, hline, Memory.clear]
    | some text =>
      by_cases hexit : Text.trim text = "exit"
      · simp only [turnOn_of_exit hcut hne hline hexit memory, converse, hline, hexit, if_true]
      · -- The buffer now holds this line, and the turns to come do not depend on it.
        simp only [turnOn_of_ne_exit hcut hne hline hexit memory, converse, hline, hexit, if_false]
        exact holdFrom_eq_converse _ _
  termination_by tape.input.length

/-- A session is the conversation on the lines of its input. -/
theorem hold_eq_converse (input : List UInt8) :
    hold handler layout input = converse handler layout banner 0 (lines input) :=
  holdFrom_eq_converse ⟨"", 0⟩ ⟨input, banner⟩

end Conversation

end Abacus.Session
