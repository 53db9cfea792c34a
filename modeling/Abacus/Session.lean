import Abacus.Diagnostic.Position
import Abacus.Program.Layout
import Abacus.Text.Blank

/-!
# Sessions

A session reads lines and answers each: a program is written back in the layout of the session, and
an error is shown. Blank lines get no answer, and the line `exit` ends the session, as does the end
of the input. Input arrives as bytes; a line that is no text ends the session with a failure.

A session goes by turns. One buffer serves for the lines of all turns; a turn clears it and has the
next line appended to it. Where lines come from and where text goes is left to a console, so that
the same turn holds a session on streams and on bytes at hand.
-/

namespace Abacus.Session

/-- The lines that open a session. -/
def banner : String :=
  "arith v0.1.0\nType an expression to see its syntax tree, or `exit` to quit.\n"

/-- What invites the next line. -/
def prompt : String := ">>> "

/-- The name under which errors are shown. -/
def sourceName : String := "<repl>"

/-- Where a session reads and writes. -/
structure Console (m : Type → Type) where
  /-- Reads bytes up to the next line feed, which is among them, or up to the end of the input. -/
  readLine : m (List UInt8)
  /-- Writes a text at once. -/
  write : String → m Unit

/-- What a session keeps from one turn to the next. -/
structure Memory where
  /-- The buffer for lines. -/
  line : String
  /-- The number of programs read. -/
  parsed : Nat
  deriving DecidableEq

namespace Memory

/-- Empties the buffer. -/
def clear (memory : Memory) : Memory := { memory with line := "" }

/-- Appends bytes to the buffer, unless they are no text. -/
def append? (memory : Memory) (bytes : List UInt8) : Option Memory :=
  (String.fromUTF8? ⟨bytes.toArray⟩).map fun text => { memory with line := memory.line ++ text }

/-- Counts a program. -/
def count (memory : Memory) : Memory := { memory with parsed := memory.parsed + 1 }

end Memory

/-- How a turn ends. -/
inductive Verdict
  /-- Another turn follows. -/
  | goOn
  /-- The session is over. -/
  | over
  /-- The session breaks off at bytes that are no text. -/
  | broken
  deriving DecidableEq

/-- One turn of a session. -/
def turn {m : Type → Type} [Monad m] (console : Console m) (handler : ReportHandler)
    (layout : Layout) (memory : Memory) : m (Verdict × Memory) := do
  console.write prompt
  let memory := memory.clear
  let bytes ← console.readLine
  match memory.append? bytes with
  | none => return (.broken, memory)
  | some memory =>
    if bytes.length = 0 then
      console.write "\n"
      return (.over, memory)
    else
      let text := Text.trim memory.line
      if text = "exit" then
        return (.over, memory)
      else if text = "" then
        return (.goOn, memory)
      else
        match parseSource text with
        | .ok program =>
          console.write (program.render layout)
          return (.goOn, memory.count)
        | .error e =>
          console.write (Text.trimEnd (e.rendered handler sourceName text) ++ "\n")
          return (.goOn, memory)

/-- The bytes up to the first line feed, which is among them, and the rest. -/
def cutLine (input : List UInt8) : List UInt8 × List UInt8 :=
  let body := input.takeWhile (· ≠ 10)
  match input.dropWhile (· ≠ 10) with
  | [] => (body, [])
  | feed :: rest => (body ++ [feed], rest)

/-- The bytes still to be read and the text written so far. -/
structure Tape where
  input : List UInt8
  output : String
  deriving DecidableEq

/-- Reading and writing on a tape. -/
def Tape.console : Console (StateM Tape) where
  readLine := modifyGet fun tape =>
    ((cutLine tape.input).1, { tape with input := (cutLine tape.input).2 })
  write text := modify fun tape => { tape with output := tape.output ++ text }

/-- One turn of a session on a tape. -/
def turnOn (handler : ReportHandler) (layout : Layout) (memory : Memory) (tape : Tape) :
    Verdict × Memory × Tape :=
  let ((verdict, memory), tape) := ((turn Tape.console handler layout memory).run tape).run
  (verdict, memory, tape)

/-- Cutting a line off leaves less of an input. -/
theorem length_cutLine_lt {input : List UInt8} (h : input ≠ []) :
    (cutLine input).2.length < input.length := by
  have hsplit := List.takeWhile_append_dropWhile (p := (· ≠ 10)) (l := input)
  unfold cutLine
  split
  · exact List.length_pos_iff.mpr h
  · next feed rest hrest =>
    have hlength := congrArg List.length hsplit
    simp only [hrest, List.length_append, List.length_cons] at hlength ⊢
    omega

section Turn

variable {handler : ReportHandler} {layout : Layout}

/-- Whatever becomes of a turn, it takes one line off the input. -/
theorem input_turnOn (memory : Memory) (tape : Tape) :
    (turnOn handler layout memory tape).2.2.input = (cutLine tape.input).2 := by
  simp only [turnOn, turn, Tape.console, bind_pure_comp, StateT.run_bind, StateT.run_modify,
    StateT.run_modifyGet, pure_bind]
  split
  · rfl
  · split
    · rfl
    · split
      · rfl
      · split
        · rfl
        · split <;> rfl

/-- At the end of the input the session is over. -/
theorem turnOn_of_nil (memory : Memory) (output : String) :
    turnOn handler layout memory ⟨[], output⟩ =
      (.over, memory.clear, ⟨[], output ++ prompt ++ "\n"⟩) := by
  have hempty : String.fromUTF8? ⟨#[]⟩ = some "" := rfl
  simp [turnOn, turn, Tape.console, cutLine, Memory.append?, Memory.clear, hempty]

/-- Another turn has less to read. -/
theorem length_lt_of_turnOn {memory memory' : Memory} {tape tape' : Tape}
    (h : turnOn handler layout memory tape = (.goOn, memory', tape')) :
    tape'.input.length < tape.input.length := by
  have hinput := @input_turnOn handler layout memory tape
  rw [h] at hinput
  rw [hinput]
  apply length_cutLine_lt
  intro hnil
  obtain ⟨input, output⟩ := tape
  obtain rfl : input = [] := hnil
  rw [turnOn_of_nil] at h
  cases h

end Turn

/-- All that a session has written and read, and whether it broke off at bytes that are no text. -/
structure Transcript where
  output : String
  parsed : Nat
  failed : Bool
  deriving DecidableEq

/-- Holds the turns of a session on a tape until it ends. -/
def holdFrom (handler : ReportHandler) (layout : Layout) (memory : Memory) (tape : Tape) :
    Transcript :=
  match h : turnOn handler layout memory tape with
  | (.goOn, memory', tape') =>
    have := length_lt_of_turnOn h
    holdFrom handler layout memory' tape'
  | (.over, memory', tape') => ⟨tape'.output, memory'.parsed, false⟩
  | (.broken, memory', tape') => ⟨tape'.output, memory'.parsed, true⟩
  termination_by tape.input.length

/-- The session on an input. -/
def hold (handler : ReportHandler) (layout : Layout) (input : List UInt8) : Transcript :=
  holdFrom handler layout ⟨"", 0⟩ ⟨input, banner⟩

end Abacus.Session
