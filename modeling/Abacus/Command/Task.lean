import Abacus.Command.Directory
import Abacus.Session

/-!
# Tasks

A task reads one file. It writes to the standard output and leaves an exit code; when it fails, a
message goes to the standard error and the exit code is one. How errors in a text are drawn is left
to a handler of reports.
-/

namespace Abacus.Command

/-- The result of a command. -/
structure Outcome where
  exitCode : Nat
  output : String
  errors : String
  deriving DecidableEq

namespace Outcome

/-- A result with output and no complaint. -/
def success (output : String) : Outcome := ⟨0, output, ""⟩

/-- A failure with a message and the output written before it. -/
def failure (message : String) (output : String) : Outcome := ⟨1, output, message ++ "\n"⟩

end Outcome

/-- The greatest size of a source file in bytes. -/
def maxSourceSize : Nat := 1048576

/-- The message about bytes that are no text. -/
def notText : String := "stream did not contain valid UTF-8"

/-- The text at a path, or what to say when there is none. -/
def readSource (path : String) : Access → Except String String
  | .unreachable reason => .error ("Cannot access file '" ++ path ++ "': " ++ reason)
  | .unreadable size reason =>
    if maxSourceSize < size then tooLarge size else unreadable reason
  | .file bytes =>
    if maxSourceSize < bytes.size then tooLarge bytes.size
    else match String.fromUTF8? bytes with
      | some text => .ok text
      | none => unreadable notText
where
  tooLarge (size : Nat) : Except String String :=
    .error ("Source file '" ++ path ++ "' is too large (" ++ size.repr ++ " bytes, max " ++
      maxSourceSize.repr ++ " bytes)")
  unreadable (reason : String) : Except String String :=
    .error ("Error reading file '" ++ path ++ "': " ++ reason)

/-- What is said about an error in a file, without blanks at its end. -/
def failureReport (handler : ReportHandler) (path source : String) (e : Error) : String :=
  Text.trimEnd (e.rendered handler path source)

/-- A token on a line: its span, its kind and its text in quotes. -/
def describeToken (t : Token) : String :=
  Text.padStart 4 t.span.start.repr ++ ".." ++ Text.padEnd 4 t.span.stop.repr ++ " " ++
    Text.padEnd 16 t.kind.describe ++ " " ++ Text.quoted t.text ++ "\n"

/-- What the program does with one file. -/
inductive FileTask
  /-- Lists the tokens. -/
  | lex
  /-- Writes the program in detail. -/
  | parse
  /-- Writes the program in canonical form. -/
  | format
  /-- Tells whether the file is in canonical form. -/
  | check
  deriving DecidableEq

namespace FileTask

/-- Does a task on the text of a file. -/
def perform (path source : String) : FileTask → Except Error Outcome
  | lex => do
    let tokens ← tokenize source
    return .success (String.join (tokens.map describeToken))
  | parse => do
    let program ← parseSource source
    return .success (program.render { style := .debug })
  | format => do
    return .success (← formatSource source)
  | check => do
    if source = (← formatSource source) then
      return .success (path ++ " is formatted\n")
    else return ⟨1, "Would reformat: " ++ path ++ "\n", ""⟩

/-- Does a task on what stands at a path. -/
def run (task : FileTask) (handler : ReportHandler) (path : String) (access : Access) : Outcome :=
  match readSource path access with
  | .error message => .failure message ""
  | .ok source =>
    match task.perform path source with
    | .ok outcome => outcome
    | .error e => .failure (failureReport handler path source e) ""

end FileTask

end Abacus.Command
