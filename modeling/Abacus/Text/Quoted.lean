import Abacus.Text.Extending
import Abacus.Text.Hidden

/-!
# Quoted text

A quoted text stands between two quotation marks and shows every character on one line. The mark
itself and the backslash take a backslash before them; tabs, line ends and the null character have
letters; whatever could not be seen on its own is written by its code point.
-/

namespace Abacus.Text

/-- The code point of a character in hexadecimal, between braces after a backslash and a `u`. -/
def codePoint (c : Char) : List Char :=
  ['\\', 'u', '\x7b'] ++ Nat.toDigits 16 c.toNat ++ ['\x7d']

/-- One character as it stands between two quotation marks `mark`. -/
def escape (mark c : Char) : List Char :=
  if c = '\x00' then ['\\', '0']
  else if c = '\t' then ['\\', 't']
  else if c = '\r' then ['\\', 'r']
  else if c = '\n' then ['\\', 'n']
  else if c = '\\' ∨ c = mark then ['\\', c]
  else if isExtending c || isHidden c then codePoint c
  else [c]

/-- A text between two quotation marks. -/
def between (mark : Char) (text : List Char) : String :=
  String.ofList (mark :: (text.flatMap (escape mark) ++ [mark]))

/-- A text between double quotation marks. -/
def quoted (text : String) : String := between '\x22' text.toList

/-- A character between single quotation marks. -/
def quotedChar (c : Char) : String := between '\x27' [c]

end Abacus.Text
