/-!
# Padded text

Spaces that bring a text to a given number of characters. A text that is long enough stays as it is.
-/

namespace Abacus.Text

/-- A number of spaces. -/
def spaces (n : Nat) : String := String.ofList (List.replicate n ' ')

/-- A text with spaces in front of it. -/
def padStart (n : Nat) (text : String) : String := spaces (n - text.length) ++ text

/-- A text with spaces behind it. -/
def padEnd (n : Nat) (text : String) : String := text ++ spaces (n - text.length)

end Abacus.Text
