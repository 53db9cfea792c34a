import Abacus.Text.Padded

/-!
# Writing with indentation

A writer collects text and keeps a level of indentation. The spaces of the level are written right
before the first text on a line and not earlier, so that a line without text stays empty.
-/

namespace Abacus.Text

/-- What has been written, and how to go on. -/
structure Writer where
  output : String
  level : Nat
  /-- Spaces for every level. -/
  width : Nat
  /-- Whether the line has no text yet. -/
  atLineStart : Bool
  deriving DecidableEq

namespace Writer

/-- A writer that has written nothing. -/
def new (width : Nat) : Writer := ⟨"", 0, width, true⟩

/-- Goes one level in. -/
def indent (w : Writer) : Writer := { w with level := w.level + 1 }

/-- Goes one level out, unless there is none. -/
def dedent (w : Writer) : Writer := { w with level := w.level - 1 }

/-- Writes the spaces of the level where they are due. -/
def writeIndent (w : Writer) : Writer :=
  if w.atLineStart then
    { w with output := w.output ++ spaces (w.level * w.width), atLineStart := false }
  else w

/-- Writes a text, behind the spaces of the level if it is the first on its line. -/
def write (w : Writer) (text : String) : Writer :=
  if text = "" then w
  else
    let w := w.writeIndent
    { w with output := w.output ++ text }

/-- Ends the line. -/
def newline (w : Writer) : Writer := { w with output := w.output ++ "\n", atLineStart := true }

/-- Writes a text and ends the line. -/
def writeln (w : Writer) (text : String) : Writer := (w.write text).newline

end Writer

end Abacus.Text
