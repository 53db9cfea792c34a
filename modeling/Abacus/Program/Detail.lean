import Abacus.Binary64.Text
import Abacus.Expr
import Abacus.Text.Indented
import Abacus.Text.Quoted

/-!
# Programs in detail

The full structure of a program: every constructor opens a bracket, every field stands on a line of
its own with a comma behind it, and the bracket closes below.
-/

namespace Abacus

open Text (IndentedLine)

/-- The name of an operation. -/
def BinaryOp.name : BinaryOp → String
  | add => "Add"
  | sub => "Sub"
  | mul => "Mul"
  | div => "Div"
  | mod => "Mod"

/-- A constructor with its fields, at a depth. -/
def Expr.detailNode (depth : Nat) (name : String) (fields : List IndentedLine) :
    List IndentedLine :=
  ⟨depth, name ++ "("⟩ :: (fields ++ [⟨depth, "),"⟩])

/-- The detail of an expression that stands at a depth. -/
def Expr.detail (depth : Nat) : Expr → List IndentedLine
  | .number value => detailNode depth "Number" [⟨depth + 1, value.debugText ++ ","⟩]
  | .ident name => detailNode depth "Ident" [⟨depth + 1, Text.quoted name ++ ","⟩]
  | .binary op left right =>
    detailNode depth "Binary"
      (left.detail (depth + 1) ++
        ⟨depth + 1, op.name ++ ","⟩ :: right.detail (depth + 1))

/-- The detail of the statements of a program. -/
def Program.detailBody : List Expr → List IndentedLine
  | [] => [⟨1, "body: [],"⟩]
  | body =>
    ⟨1, "body: ["⟩ ::
      (body.flatMap (fun e => Expr.detailNode 2 "Expr" (e.detail 3)) ++ [⟨1, "],"⟩])

/-- The detail of a program. -/
def Program.detail (p : Program) : List IndentedLine :=
  ⟨0, Program.nodeType ++ " \x7b"⟩ :: (detailBody p.body ++ [⟨0, "\x7d"⟩])

end Abacus
