import Abacus.Binary64.Numeral
import Abacus.Expr
import Abacus.Token.Lexer

/-!
# Parsing

A program is any number of expressions, one behind the other. An expression is a sum of products of
operands, chains grouping to the left, and an operand is a number, a name or an expression in
parentheses, which leave no node.

The parser takes one token at a time. Between statements nothing is open. Inside a statement it
either waits for an operand or has just completed a product, and it remembers the groups that are
open around it, innermost first, each with the sum and the product that wait for the group's value.
At most `nestingLimit` groups may be open, and no tree may be higher than that.
-/

namespace Abacus

/-- The greatest number of open groups and the greatest height of a statement. -/
def nestingLimit : Nat := 256

/-- The operation of a token that joins products to a sum. -/
def Kind.additive? : Kind → Option BinaryOp
  | .operator .plus => some .add
  | .operator .minus => some .sub
  | _ => none

/-- The operation of a token that joins operands to a product. -/
def Kind.multiplicative? : Kind → Option BinaryOp
  | .operator .star => some .mul
  | .operator .slash => some .div
  | .operator .percent => some .mod
  | _ => none

namespace Parser

/-- A complete expression with its height. -/
structure Value where
  expr : Expr
  height : Nat
  deriving DecidableEq

/-- An operation that has its left side and waits for the right one. -/
structure Pending where
  left : Value
  op : BinaryOp
  /-- Where the operator stands. -/
  span : Span
  deriving DecidableEq

/-- An open parenthesis and what waits for the value inside. -/
structure Group where
  openedAt : Span
  sum : Option Pending
  product : Option Pending
  deriving DecidableEq

/-- What the parser knows between two tokens. The statements already complete come latest first. -/
inductive State
  /-- No statement is begun. -/
  | between (body : List Expr)
  /-- An operand has to follow. -/
  | operand (body : List Expr) (groups : List Group) (sum product : Option Pending)
  /-- A product is complete; an operator may follow. -/
  | operator (body : List Expr) (groups : List Group) (sum : Option Pending) (value : Value)
  deriving DecidableEq

/-- The statements already complete, in order. -/
def State.program : State → Program
  | .between body | .operand body _ _ _ | .operator body _ _ _ => ⟨body.reverse⟩

/-- The error of a tree or a group that exceeds the limit. -/
def tooDeep (span : Span) : Error := ⟨.nestingTooDeep nestingLimit, span⟩

/-- Gives a waiting operation, if there is one, its right side. -/
def complete : Option Pending → Value → Except Error Value
  | none, value => .ok value
  | some pending, value =>
    let height := max pending.left.height value.height + 1
    if nestingLimit < height then .error (tooDeep pending.span)
    else .ok ⟨.binary pending.op pending.left.expr value.expr, height⟩

/-- Takes a complete operand. -/
def supply (body : List Expr) (groups : List Group) (sum product : Option Pending)
    (value : Value) : Except Error State :=
  (complete product value).map (.operator body groups sum)

/-- Takes a token where an operand is due. -/
def stepOperand (body : List Expr) (groups : List Group) (sum product : Option Pending)
    (token : Token) : Except Error State :=
  match token.kind with
  | .number =>
    match Binary64.ofText? token.text with
    | some x => supply body groups sum product ⟨.number x, 1⟩
    | none => .error ⟨.invalidNumber token.text, token.span⟩
  | .identifier => supply body groups sum product ⟨.ident token.text, 1⟩
  | .punctuation .openParen =>
    if groups.length < nestingLimit then
      .ok (.operand body (⟨token.span, sum, product⟩ :: groups) none none)
    else .error (tooDeep token.span)
  | kind => .error ⟨.unexpectedToken kind token.text, token.span⟩

/-- Takes a token between two statements. -/
def stepBetween (body : List Expr) (token : Token) : Except Error State :=
  match token.kind with
  | .keyword .binding | .punctuation .equals =>
    .error ⟨.invalidStatement token.kind, token.span⟩
  | .endOfInput => .ok (.between body)
  | _ => stepOperand body [] none none token

/-- Takes a token that ends a sum with the given value. -/
def stepAfterSum (body : List Expr) (groups : List Group) (value : Value) (token : Token) :
    Except Error State :=
  match groups with
  | [] => stepBetween (value.expr :: body) token
  | group :: outer =>
    if token.kind = .punctuation .closeParen then
      supply body outer group.sum group.product value
    else .error ⟨.unclosedParenthesis token.kind group.openedAt, token.span⟩

/-- Takes a token behind a complete product. -/
def stepOperator (body : List Expr) (groups : List Group) (sum : Option Pending) (value : Value)
    (token : Token) : Except Error State :=
  match token.kind.multiplicative? with
  | some op => .ok (.operand body groups sum (some ⟨value, op, token.span⟩))
  | none => do
    let total ← complete sum value
    match token.kind.additive? with
    | some op => return .operand body groups (some ⟨total, op, token.span⟩) none
    | none => stepAfterSum body groups total token

/-- Takes one token. -/
def step : State → Token → Except Error State
  | .between body, token => stepBetween body token
  | .operand body groups sum product, token => stepOperand body groups sum product token
  | .operator body groups sum value, token => stepOperator body groups sum value token

/-- Takes tokens one after the other, up to the first error. -/
def run (state : State) (tokens : List Token) : Except Error State := tokens.foldlM step state

@[simp] theorem run_nil (state : State) : run state [] = .ok state := rfl

@[simp] theorem run_cons (state : State) (token : Token) (tokens : List Token) :
    run state (token :: tokens) = (step state token).bind (run · tokens) := rfl

theorem run_append (state : State) (xs ys : List Token) :
    run state (xs ++ ys) = (run state xs).bind (run · ys) := by
  induction xs generalizing state with
  | nil => rfl
  | cons x xs ih =>
    rw [List.cons_append, run_cons, run_cons]
    cases step state x with
    | error e => rfl
    | ok next => exact ih next

/-- The tokens up to the first end of input, which is left out. -/
def sentence (tokens : List Token) : List Token := tokens.takeWhile (·.kind ≠ .endOfInput)

/-- The first end of input of a stream. -/
def terminator? (tokens : List Token) : Option Token := tokens.find? (·.kind = .endOfInput)

end Parser

/-- The program that a stream of tokens means. The stream has to close with the end of input; what
follows its first end of input is not looked at. -/
def parse (tokens : List Token) : Except Error Program :=
  match tokens.getLast? with
  | none => .error ⟨.malformedStream "token stream is empty", .origin⟩
  | some last =>
    if last.kind = .endOfInput then
      (Parser.run (.between [])
        (Parser.sentence tokens ++ (Parser.terminator? tokens).toList)).map (·.program)
    else
      .error ⟨.malformedStream "token stream is not terminated by end of input", last.span⟩

/-- The program that a text means. -/
def parseSource (source : String) : Except Error Program := do
  parse (← tokenize source)

end Abacus
