import Abacus.Span
import Abacus.Vocabulary

/-!
# Tokens

A token is a kind, the text it was read from and the span of that text. A stream of tokens closes
with a token of the kind `endOfInput`, whose text is empty.
-/

namespace Abacus

/-- What a token is to the grammar. -/
inductive Kind
  | number
  | identifier
  | keyword (word : Keyword)
  | operator (op : Operator)
  | punctuation (mark : Punctuation)
  | endOfInput
  deriving DecidableEq

namespace Kind

/-- The kind of a word: a keyword if it is spelled like one, an identifier otherwise. -/
def ofWord (text : String) : Kind :=
  match Keyword.ofSpelling? text with
  | some word => .keyword word
  | none => .identifier

/-- The kind of a single character that stands for itself. -/
def ofSymbol? : Char → Option Kind
  | '(' => some (.punctuation .openParen)
  | ')' => some (.punctuation .closeParen)
  | '=' => some (.punctuation .equals)
  | '+' => some (.operator .plus)
  | '-' => some (.operator .minus)
  | '*' => some (.operator .star)
  | '/' => some (.operator .slash)
  | '%' => some (.operator .percent)
  | '^' => some (.operator .caret)
  | _ => none

/-- The characters that stand for themselves are those of the punctuation marks and operators. -/
theorem ofSymbol?_eq_lookup (c : Char) :
    ofSymbol? c =
      ((Punctuation.ofSymbol? c).map punctuation).or ((Operator.ofSymbol? c).map operator) := by
  unfold ofSymbol?
  split
  case h_10 =>
    have hmark : Punctuation.ofSymbol? c = none := by
      rw [Punctuation.ofSymbol?, List.find?_eq_none]
      intro mark _ hsymbol
      obtain rfl : mark.symbol = c := of_decide_eq_true hsymbol
      cases mark <;> contradiction
    have hop : Operator.ofSymbol? c = none := by
      rw [Operator.ofSymbol?, List.find?_eq_none]
      intro op _ hsymbol
      obtain rfl : op.symbol = c := of_decide_eq_true hsymbol
      cases op <;> contradiction
    rw [hmark, hop]
    rfl
  all_goals decide

/-- The keyword of a kind. -/
def keyword? : Kind → Option Keyword
  | keyword word => some word
  | _ => none

/-- The operator of a kind. -/
def operator? : Kind → Option Operator
  | operator op => some op
  | _ => none

/-- The punctuation mark of a kind. -/
def punctuation? : Kind → Option Punctuation
  | punctuation mark => some mark
  | _ => none

/-- Whether the vocabulary keeps a kind back from the grammar. -/
def isReserved : Kind → Bool
  | keyword word => !word.stability.isSupported
  | operator op => !op.stability.isSupported
  | punctuation mark => !mark.stability.isSupported
  | _ => false

/-- How messages name a kind. -/
def describe : Kind → String
  | number => "number"
  | identifier => "identifier"
  | keyword word => "keyword '" ++ word.spelling ++ "'"
  | operator op => "operator '" ++ op.spelling ++ "'"
  | punctuation mark => "'" ++ mark.spelling ++ "'"
  | endOfInput => "end of input"

end Kind

/-- A piece of text with its place and its role. -/
structure Token where
  kind : Kind
  text : String
  span : Span
  deriving DecidableEq

/-- The token that closes a stream, at the given offset. -/
def Token.endOfInput (offset : Nat) : Token := ⟨.endOfInput, "", ⟨offset, offset⟩⟩

end Abacus
