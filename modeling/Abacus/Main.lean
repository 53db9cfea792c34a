import Abacus.Command.Run

/-!
# The program

Reads the arguments, looks at the file they name or holds a session on the standard input, and
writes the result.
-/

namespace Abacus.Main

open Command

/-- How the program is called. -/
def usage : String :=
  "Usage: arith [OPTIONS] [COMMAND]\n\n" ++
  "Commands:\n" ++
  "  repl [--style tree|source|debug]  Answer expressions line by line\n" ++
  "  fmt <FILE> [--check]              Print a file in canonical form, or check that it is\n" ++
  "  help                              Print this help\n\n" ++
  "Options:\n" ++
  "      --lex <FILE>    List the tokens of a file\n" ++
  "      --parse <FILE>  Print the syntax tree of a file\n" ++
  "  -h, --help          Print help\n" ++
  "  -V, --version       Print version\n"

/-- The words for a refusal of the arguments. -/
def explain : Refusal → String
  | .displayHelp => usage
  | .displayVersion => "arith 0.1.0\n"
  | .invalidValue => "error: a value is missing or empty\n"
  | .unknownArgument => "error: unexpected argument found\n"
  | .tooManyValues => "error: a flag takes no value\n"
  | .argumentConflict => "error: arguments cannot be used together or more than once\n"
  | .invalidSubcommand => "error: unrecognized subcommand\n"
  | .valueValidation => "error: invalid value\n"
  | .missingRequiredArgument => "error: a required argument was not provided\n"

/-- The words of the system for an error, without the name of the file. -/
def systemReason : IO.Error → String
  | .noFileOrDirectory _ code details => details ++ s!" (os error {code})"
  | .inappropriateType _ code details => details ++ s!" (os error {code})"
  | .permissionDenied _ code details => details ++ s!" (os error {code})"
  | e => toString e

/-- Reads an open file to its end. -/
def readAll (handle : IO.FS.Handle) : IO Access := do
  try
    return .file (← handle.readBinToEnd)
  catch e =>
    return .unreadable 0 (systemReason e)

/-- What stands at a path. -/
def accessPath (path : String) : IO Access := do
  try
    readAll (← IO.FS.Handle.mk path .read)
  catch e =>
    return .unreachable (systemReason e)

/-- The bytes of a stream up to the next line feed, or to its end. -/
partial def readLine (stream : IO.FS.Stream) (read : Array UInt8) : IO (List UInt8) := do
  let chunk ← stream.read 1
  match chunk.toList with
  | [] => return read.toList
  | b :: _ => if b = 10 then return (read.push b).toList else readLine stream (read.push b)

/-- A session that reads from one stream and writes to another. -/
def streamConsole (input output : IO.FS.Stream) : Session.Console IO where
  readLine := readLine input #[]
  write text := do
    output.putStr text
    output.flush

/-- Holds the turns of a session until it ends. -/
partial def converse (console : Session.Console IO) (layout : Layout) (memory : Session.Memory) :
    IO UInt32 := do
  match ← Session.turn console .graphical layout memory with
  | (.goOn, memory) => converse console layout memory
  | (.over, _) => return 0
  | (.broken, _) =>
    IO.eprintln sessionFailure
    return 1

end Abacus.Main

open Abacus Command Main in
/-- Runs the program on its arguments. -/
def main (args : List String) : IO UInt32 := do
  match readArguments args with
  | .error refusal =>
    if refusal.exitCode = 0 then IO.print (explain refusal) else IO.eprint (explain refusal)
    return refusal.exitCode.toUInt32
  | .ok invocation =>
    match invocation.action with
    | .session style =>
      let console := streamConsole (← IO.getStdin) (← IO.getStdout)
      console.write Session.banner
      converse console { style := style } ⟨"", 0⟩
    | .onFile task path =>
      let outcome := task.run .graphical path (← accessPath path)
      IO.print outcome.output
      IO.eprint outcome.errors
      return outcome.exitCode.toUInt32
