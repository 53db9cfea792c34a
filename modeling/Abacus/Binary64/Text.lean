import Abacus.Binary64.Shortest

/-!
# Numbers as text

Both layouts write the shortest decimal. The plain layout is always positional and has no point
after whole numbers. The debug layout has a point or an exponent in every finite number: positional
from `10 ^ -4` up to but not including `10 ^ 16`, and by a power of ten outside.
-/

namespace Abacus

namespace Decimal

/-- The digits of the coefficient. -/
def digits (d : Decimal) : List Char := Nat.toDigits 10 d.coefficient

/-- The power of ten of the first digit. -/
def order (d : Decimal) : Int := d.exponent + (d.digits.length - 1 : Nat)

/-- Digits with the point, if any, where it belongs. -/
def positional (d : Decimal) : List Char :=
  match d.exponent with
  | .ofNat zeros => Nat.toDigits 10 (d.coefficient * Nat.pow 10 zeros)
  | .negSucc n =>
    Nat.toDigits 10 (d.coefficient / Nat.pow 10 (n + 1)) ++
      '.' :: (Nat.toDigits 10 (d.coefficient % Nat.pow 10 (n + 1))).leftpad (n + 1) '0'

/-- A whole number in decimal digits, behind a minus sign below zero. -/
def wholeNumber (n : Int) : List Char :=
  if n < 0 then '-' :: Nat.toDigits 10 n.natAbs else Nat.toDigits 10 n.natAbs

/-- One digit, the others behind a point, and the power of ten behind the letter `e`. -/
def scientific (d : Decimal) : List Char :=
  let fraction := match d.digits.tail with
    | [] => []
    | rest => '.' :: rest
  d.digits.take 1 ++ fraction ++ 'e' :: wholeNumber d.order

/-- Positional with a point in it, or scientific far from one. -/
def marked (d : Decimal) : List Char :=
  if d.coefficient ≠ 0 ∧ (d.order < -4 ∨ 16 ≤ d.order) then d.scientific
  else if 0 ≤ d.exponent then d.positional ++ ['.', '0']
  else d.positional

end Decimal

namespace Binary64

/-- A number in a layout for finite magnitudes, with its sign in front. -/
def textWith (layout : Decimal → List Char) (x : Binary64) : String :=
  if x.IsUndefined then "NaN"
  else
    let sign := if x.negative then ['-'] else []
    let size := if x.IsFinite then layout (shortest x.magnitude) else ['i', 'n', 'f']
    String.ofList (sign ++ size)

/-- A number in the plain layout. -/
def plainText : Binary64 → String := textWith Decimal.positional

/-- A number in the debug layout. -/
def debugText : Binary64 → String := textWith Decimal.marked

end Binary64
end Abacus
