import Abacus.Binary64.Basic
import Abacus.Vocabulary

/-!
# Expressions and programs

An expression is a number, a name, or an operation on two expressions. A program is a list of
expressions, its statements. Trees carry no positions and no parentheses: two texts that differ only
in spacing or in needless parentheses mean equal trees.
-/

namespace Abacus

/-- An expression of the language. -/
inductive Expr
  | number (value : Binary64)
  | ident (name : String)
  | binary (op : BinaryOp) (left right : Expr)
  deriving DecidableEq

namespace Expr

/-- The number of nodes on the longest way down; a leaf has height one. -/
def height : Expr → Nat
  | number _ => 1
  | ident _ => 1
  | binary _ left right => max left.height right.height + 1

/-- The name of a node by its form. -/
def nodeType : Expr → String
  | number _ => "NumberLiteral"
  | ident _ => "Identifier"
  | binary _ _ _ => "BinaryExpression"

/-- Equality of trees with numbers compared by value. -/
def sameValue : Expr → Expr → Bool
  | number x, number y => x.sameValue y
  | ident x, ident y => x == y
  | binary op l r, binary op' l' r' => decide (op = op') && l.sameValue l' && r.sameValue r'
  | _, _ => false

/-- Every tree has at least one node. -/
theorem height_pos (e : Expr) : 0 < e.height := by
  cases e <;> simp [height]

end Expr

/-- A program: its statements in order. -/
structure Program where
  body : List Expr
  deriving DecidableEq

namespace Program

/-- The name of the node above all statements. -/
def nodeType : String := "Program"

/-- Equality of programs with numbers compared by value. -/
def sameValue (p q : Program) : Bool :=
  p.body.length == q.body.length && (p.body.zip q.body).all fun (d, e) => d.sameValue e

end Program
end Abacus
