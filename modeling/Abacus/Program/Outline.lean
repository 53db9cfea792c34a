import Abacus.Binary64.Text
import Abacus.Expr
import Abacus.Text.Writer

/-!
# Programs as outlines

The nodes of a program one per line, every node above its operands and one level further out.
-/

namespace Abacus

open Text (Writer)

/-- The node of an expression in words: its form, and its value, name or operator. -/
def Expr.headline : Expr → String
  | e@(.number value) => e.nodeType ++ " " ++ value.plainText
  | e@(.ident name) => e.nodeType ++ " " ++ name
  | e@(.binary op _ _) => e.nodeType ++ " (" ++ op.spelling ++ ")"

/-- Writes the nodes of an expression, each before its operands. -/
def Expr.writeOutline : Expr → Writer → Writer
  | e@(.number _), w => w.writeln e.headline
  | e@(.ident _), w => w.writeln e.headline
  | e@(.binary _ left right), w =>
    (right.writeOutline (left.writeOutline (w.writeln e.headline).indent)).dedent

/-- Writes the nodes of a program: the program itself and below it the statements in order. -/
def Program.writeOutline (p : Program) (w : Writer) : Writer :=
  (p.body.foldl (fun w e => e.writeOutline w) (w.writeln Program.nodeType).indent).dedent

end Abacus
