import Abacus.Program.Parser
import Abacus.Program.Outline
import Abacus.Program.Source
import Abacus.Program.Detail

/-!
# Layouts

A layout names one of the three ways to write a program and the indentation of outlines. The source
layout defines the canonical form of a text: `formatSource` brings a text into it and
`isFormatted` asks whether a text is in it already.
-/

namespace Abacus

/-- The ways to write a program. -/
inductive Style
  | tree
  | source
  | debug
  deriving DecidableEq

namespace Style

/-- All styles. -/
def all : List Style := [tree, source, debug]

/-- The name by which a style is chosen. -/
def name : Style → String
  | tree => "tree"
  | source => "source"
  | debug => "debug"

/-- The style with a name. -/
def ofName? (text : String) : Option Style := all.find? (·.name = text)

/-- What is said about a name that no style has. -/
def unknownMessage (text : String) : String :=
  "unknown output style '" ++ text ++ "' (expected tree, source, or debug)"

/-- Every style is found by its name. -/
theorem ofName?_name (style : Style) : ofName? style.name = some style := by
  cases style <;> decide

end Style

/-- How to write a program. -/
structure Layout where
  /-- Spaces for every level of an outline. -/
  indent : Nat := 2
  style : Style := .tree
  deriving DecidableEq

/-- A program in a layout. -/
def Program.render (p : Program) (layout : Layout) : String :=
  match layout.style with
  | .source => (p.writeSource (.new layout.indent)).output
  | .tree => (p.writeOutline (.new layout.indent)).output
  | .debug => Text.renderLines 4 p.detail

/-- The canonical form of a text. -/
def formatSource (source : String) : Except Error String :=
  (parseSource source).map (·.render { style := .source })

/-- Whether a text is in canonical form. -/
def isFormatted (source : String) : Except Error Bool :=
  (formatSource source).map fun formatted => decide (source = formatted)

end Abacus
