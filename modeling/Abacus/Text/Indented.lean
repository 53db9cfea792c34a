import Abacus.Text.Padded

/-!
# Indented text

A line of text with the depth at which it stands. A text is written line by line, each behind a
fixed number of spaces for every level of its depth and closed by a line feed.
-/

namespace Abacus.Text

/-- A line of text and its depth. -/
structure IndentedLine where
  depth : Nat
  text : String
  deriving DecidableEq

/-- One line with its indentation and its line feed. -/
def IndentedLine.render (width : Nat) (line : IndentedLine) : String :=
  spaces (width * line.depth) ++ line.text ++ "\n"

/-- Lines one below the other, with `width` spaces for every level. -/
def renderLines (width : Nat) (lines : List IndentedLine) : String :=
  String.join (lines.map (·.render width))

@[simp] theorem renderLines_nil (width : Nat) : renderLines width [] = "" := rfl

theorem renderLines_cons (width : Nat) (line : IndentedLine) (lines : List IndentedLine) :
    renderLines width (line :: lines) = line.render width ++ renderLines width lines := by
  rw [renderLines, List.map_cons, String.join_cons]
  rfl

theorem renderLines_append (width : Nat) (xs ys : List IndentedLine) :
    renderLines width (xs ++ ys) = renderLines width xs ++ renderLines width ys := by
  apply String.toList_injective
  simp [renderLines, String.toList_join]

end Abacus.Text
