import Abacus.Binary64.Text
import Abacus.Expr
import Abacus.Text.Writer

/-!
# Programs as source text

One statement per line, one space around every operator, and parentheses only around an operand that
would otherwise group differently: one that binds less tightly than the operation around it, or as
tightly and stands on the side to which the operation does not group.
-/

namespace Abacus

/-- The two operands of an operation. -/
inductive Side
  | left
  | right
  deriving DecidableEq

namespace Expr

/-- Whether an expression takes parentheses as an operand of `parent`. -/
def needsParens (parent : BinaryOp) (side : Side) : Expr → Bool
  | number _ => false
  | ident _ => false
  | binary op _ _ =>
    if op.precedence = parent.precedence then
      match parent.associativity with
      | .left => side = .right
      | .right => side = .left
    else op.precedence < parent.precedence

/-- A text, in parentheses if asked. -/
def parenthesize (wrap : Bool) (text : String) : String :=
  if wrap then "(" ++ text ++ ")" else text

/-- The source text of an expression. -/
def source : Expr → String
  | number value => value.plainText
  | ident name => name
  | binary op left right =>
    parenthesize (left.needsParens op .left) left.source ++ " " ++ op.spelling ++ " " ++
      parenthesize (right.needsParens op .right) right.source

/-- Writes an operand, in parentheses if asked. -/
def writeOperand (wrap : Bool) (operand : Text.Writer → Text.Writer) (w : Text.Writer) :
    Text.Writer :=
  if wrap then (operand (w.write "(")).write ")" else operand w

/-- Writes an expression piece by piece. -/
def writeSource : Expr → Text.Writer → Text.Writer
  | number value, w => w.write value.plainText
  | ident name, w => w.write name
  | binary op left right, w =>
    let w := writeOperand (left.needsParens op .left) left.writeSource w
    let w := ((w.write " ").write op.spelling).write " "
    writeOperand (right.needsParens op .right) right.writeSource w

end Expr

/-- The source text of a program: every statement on a line of its own. -/
def Program.source (p : Program) : String := String.join (p.body.map (·.source ++ "\n"))

/-- Writes the statements of a program, each on a line of its own. -/
def Program.writeSource (p : Program) (w : Text.Writer) : Text.Writer :=
  p.body.foldl (fun w e => (e.writeSource w).newline) w

end Abacus
