/-!
# Vocabulary

The words and marks of the language: one keyword, six operators and three punctuation marks. Each
has a spelling and a stability; a reserved word or mark is recognised but no rule of the grammar
takes it. Operators also say how tightly they bind and to which side they group. Five of the six
operators join two expressions.
-/

namespace Abacus

/-- Whether the grammar takes a word or mark. -/
inductive Stability
  | stable
  | reserved
  deriving DecidableEq

/-- Whether some rule of the grammar takes the word or mark. -/
def Stability.isSupported : Stability → Bool
  | stable => true
  | reserved => false

/-- To which side a chain of equal operators groups. -/
inductive Associativity
  | left
  | right
  deriving DecidableEq

/-- The keywords. -/
inductive Keyword
  | binding
  deriving DecidableEq

namespace Keyword

/-- All keywords. -/
def all : List Keyword := [binding]

/-- How a keyword is written. -/
def spelling : Keyword → String
  | binding => "let"

/-- Whether the grammar takes a keyword. -/
def stability : Keyword → Stability
  | binding => .reserved

/-- The keyword with the given spelling. -/
def ofSpelling? (text : String) : Option Keyword := all.find? (·.spelling = text)

end Keyword

/-- The operators. -/
inductive Operator
  | plus
  | minus
  | star
  | slash
  | percent
  | caret
  deriving DecidableEq

namespace Operator

/-- All operators. -/
def all : List Operator := [plus, minus, star, slash, percent, caret]

/-- The character of an operator. -/
def symbol : Operator → Char
  | plus => '+'
  | minus => '-'
  | star => '*'
  | slash => '/'
  | percent => '%'
  | caret => '^'

/-- How an operator is written. -/
def spelling (op : Operator) : String := String.singleton op.symbol

/-- How tightly an operator binds; higher binds tighter. -/
def precedence : Operator → Nat
  | plus | minus => 50
  | star | slash | percent => 60
  | caret => 70

/-- To which side an operator groups. -/
def associativity : Operator → Associativity
  | caret => .right
  | _ => .left

/-- Whether the grammar takes an operator. -/
def stability : Operator → Stability
  | caret => .reserved
  | _ => .stable

/-- The operator with the given spelling. -/
def ofSpelling? (text : String) : Option Operator := all.find? (·.spelling = text)

/-- The operator with the given character. -/
def ofSymbol? (c : Char) : Option Operator := all.find? (·.symbol = c)

end Operator

/-- The punctuation marks. -/
inductive Punctuation
  | openParen
  | closeParen
  | equals
  deriving DecidableEq

namespace Punctuation

/-- All punctuation marks. -/
def all : List Punctuation := [openParen, closeParen, equals]

/-- The character of a punctuation mark. -/
def symbol : Punctuation → Char
  | openParen => '('
  | closeParen => ')'
  | equals => '='

/-- How a punctuation mark is written. -/
def spelling (mark : Punctuation) : String := String.singleton mark.symbol

/-- Whether the grammar takes a punctuation mark. -/
def stability : Punctuation → Stability
  | equals => .reserved
  | _ => .stable

/-- The punctuation mark with the given spelling. -/
def ofSpelling? (text : String) : Option Punctuation := all.find? (·.spelling = text)

/-- The punctuation mark with the given character. -/
def ofSymbol? (c : Char) : Option Punctuation := all.find? (·.symbol = c)

end Punctuation

/-- The operations of the language. -/
inductive BinaryOp
  | add
  | sub
  | mul
  | div
  | mod
  deriving DecidableEq

namespace BinaryOp

/-- All operations. -/
def all : List BinaryOp := [add, sub, mul, div, mod]

/-- The operator that writes an operation. -/
def operator : BinaryOp → Operator
  | add => .plus
  | sub => .minus
  | mul => .star
  | div => .slash
  | mod => .percent

/-- The operation that an operator writes. -/
def ofOperator? : Operator → Option BinaryOp
  | .plus => some add
  | .minus => some sub
  | .star => some mul
  | .slash => some div
  | .percent => some mod
  | .caret => none

/-- How an operation is written. -/
def spelling (op : BinaryOp) : String := op.operator.spelling

/-- How tightly an operation binds. -/
def precedence (op : BinaryOp) : Nat := op.operator.precedence

/-- To which side an operation groups. -/
def associativity (op : BinaryOp) : Associativity := op.operator.associativity

end BinaryOp
end Abacus
