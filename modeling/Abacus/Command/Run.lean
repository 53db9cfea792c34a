import Abacus.Command.Arguments
import Abacus.Command.Task
import Abacus.Diagnostic.Report

/-!
# Carrying out commands

What arguments ask for is done on a file or on the standard input. Here errors are drawn as the
program draws them, with an excerpt of the text.
-/

namespace Abacus

/-- The session on an input, with errors drawn as the program draws them. -/
def Session.run (layout : Layout) (input : List UInt8) : Session.Transcript :=
  Session.hold .graphical layout input

namespace Command

/-- What the program does. -/
inductive Action
  | onFile (task : FileTask) (path : String)
  | session (style : Style)
  deriving DecidableEq

/-- What arguments ask for; a file to list or to parse goes before any subcommand. -/
def Invocation.action (i : Invocation) : Action :=
  match i.lexPath, i.parsePath, i.command with
  | some path, _, _ => .onFile .lex path
  | none, some path, _ => .onFile .parse path
  | none, none, some (.format path check) => .onFile (if check then .check else .format) path
  | none, none, some (.session style) => .session style
  | none, none, none => .session .tree

/-- The message of a session that broke off. -/
def sessionFailure : String := "REPL I/O error: " ++ notText

/-- The result of a session on an input. -/
def runSession (style : Style) (input : List UInt8) : Outcome :=
  let transcript := Session.run { style := style } input
  if transcript.failed then .failure sessionFailure transcript.output
  else .success transcript.output

/-- The result of an action among some files and with an input. -/
def Action.run (files : String → Access) (input : List UInt8) : Action → Outcome
  | onFile task path => task.run .graphical path (files path)
  | session style => runSession style input

end Command

end Abacus
