import Abacus.Text.Quoted
import Abacus.Token

/-!
# Errors

A text that is no program is refused for one cause at one span. Each cause has a message, a code and
perhaps a piece of advice, and marks one or two spans of the text with a label.
-/

namespace Abacus

/-- Why a text or a stream of tokens is refused. -/
inductive Cause
  /-- No token starts with this character. -/
  | unexpectedCharacter (c : Char)
  /-- An operand was due and this token is none. -/
  | unexpectedToken (kind : Kind) (text : String)
  /-- A number token whose text denotes no finite number. -/
  | invalidNumber (text : String)
  /-- Another token stands where the parenthesis opened at `openedAt` should be closed. -/
  | unclosedParenthesis (found : Kind) (openedAt : Span)
  /-- No statement starts with this kind of token. -/
  | invalidStatement (kind : Kind)
  /-- More than `limit` groups are open, or an expression is more than `limit` nodes high. -/
  | nestingTooDeep (limit : Nat)
  /-- The stream of tokens itself is malformed. -/
  | malformedStream (reason : String)
  deriving DecidableEq

/-- A refusal: the cause and the offending span. -/
structure Error where
  cause : Cause
  span : Span
  deriving DecidableEq

/-- A span of the text with a note to the reader. -/
structure Label where
  text : String
  offset : Nat
  length : Nat
  deriving DecidableEq

/-- A note to the reader on a span. -/
def Label.over (text : String) (span : Span) : Label := ⟨text, span.start, span.length⟩

namespace Cause

/-- Whether the cause lies in the characters of a text, before any grammar. -/
def isLexical : Cause → Bool
  | unexpectedCharacter _ => true
  | _ => false

/-- What happened, in one line. -/
def message : Cause → String
  | unexpectedCharacter c => "unexpected character " ++ Text.quotedChar c
  | unexpectedToken kind _ =>
    "unexpected " ++ kind.describe ++ ", expected a number, an identifier, or '('"
  | invalidNumber text => "invalid number literal " ++ Text.quoted text
  | unclosedParenthesis found _ => "expected closing parenthesis, found " ++ found.describe
  | invalidStatement kind => kind.describe ++ " cannot start a statement"
  | nestingTooDeep limit => "expression nests deeper than " ++ limit.repr ++ " levels"
  | malformedStream reason => "internal parser error: " ++ reason

/-- A stable name for the cause. -/
def code : Cause → String
  | unexpectedCharacter _ => "arith::lex"
  | unexpectedToken _ _ => "arith::parse::unexpected_token"
  | invalidNumber _ => "arith::parse::invalid_number"
  | unclosedParenthesis _ _ => "arith::parse::unclosed_parenthesis"
  | invalidStatement _ => "arith::parse::invalid_statement"
  | nestingTooDeep _ => "arith::parse::nesting_too_deep"
  | malformedStream _ => "arith::parse::internal"

/-- Advice on how to mend the text, where there is any. -/
def help? : Cause → Option String
  | unexpectedCharacter _ =>
    some "expressions may contain digits, letters, '_', whitespace, and ( ) + - * / % ^ ="
  | unexpectedToken kind _ =>
    if kind.isReserved then
      some (kind.describe ++ " is reserved but not supported in expressions yet")
    else if kind = .endOfInput then some "the expression ends early; add an operand"
    else none
  | unclosedParenthesis _ _ => some "add a matching ')'"
  | invalidStatement _ => some "only expression statements are supported; bindings are not"
  | nestingTooDeep _ =>
    some "split the expression into several statements or drop redundant parentheses"
  | invalidNumber _ | malformedStream _ => none

end Cause

namespace Error

/-- What happened, in one line. -/
def message (e : Error) : String := e.cause.message

/-- The spans to show: where an unclosed parenthesis was opened, and the offending span. -/
def labels (e : Error) : List Label :=
  match e.cause with
  | .unclosedParenthesis _ openedAt => [.over "opened here" openedAt, .over "here" e.span]
  | _ => [.over "here" e.span]

end Error
end Abacus
