import Abacus.Text.Ranges

/-!
# Blank characters and trimming

Blank means the Unicode property White_Space. Trimming removes blanks from the ends of a text and
nothing else.
-/

namespace Abacus.Text

/-- Code points with the property White_Space, in increasing order. -/
def blank : Ranges :=
  [(0x9, 0xd), (0x20, 0x20), (0x85, 0x85), (0xa0, 0xa0), (0x1680, 0x1680), (0x2000, 0x200a),
  (0x2028, 0x2029), (0x202f, 0x202f), (0x205f, 0x205f), (0x3000, 0x3000)]

/-- Whether a character is blank in any script. -/
def isBlank (c : Char) : Bool := blank.contains c.toNat

/-- A text without the blanks at its end. -/
def trimEnd (s : String) : String :=
  String.ofList (s.toList.reverse.dropWhile isBlank).reverse

/-- A text without the blanks at either end. -/
def trim (s : String) : String :=
  trimEnd (String.ofList (s.toList.dropWhile isBlank))

end Abacus.Text
