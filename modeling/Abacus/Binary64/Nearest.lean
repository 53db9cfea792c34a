import Abacus.Binary64.Basic

/-!
# The nearest double-precision number

A ratio is rounded to the nearest number, a half going to the neighbour with the even magnitude. The
scale is read off the size of the ratio, so that rounding is one division of natural numbers.
-/

namespace Abacus.Binary64

/-- The natural number nearest to a ratio; a half goes to the even neighbour. -/
def roundHalfEven (num den : Nat) : Nat :=
  let twice := 2 * (num % den)
  if twice < den ∨ (twice = den ∧ num / den % 2 = 0) then num / den else num / den + 1

/-- The scale at which a ratio of smallest steps has a significand of 53 bits, or the smallest
scale. -/
def scaleOf (steps den : Nat) : Nat := (steps / den).log2 - 52

/-- How many of the smallest steps make one. -/
def unitsPerOne : Nat := 1 <<< 1074

/-- The magnitude nearest to a ratio. It is at least `infinity` when the ratio is too large for a
finite number. -/
def nearest (num den : Nat) : Nat :=
  let steps := num * unitsPerOne
  let scale := scaleOf steps den
  scale * binade + roundHalfEven steps (den <<< scale)

/-- The number of a given sign nearest to a ratio, infinite where the ratio is too large. -/
def ofRatio (negative : Bool) (num den : Nat) : Binary64 :=
  ⟨negative, min (nearest num den) infinity, Nat.lt_of_le_of_lt (Nat.min_le_right _ _) infinity_lt⟩

end Abacus.Binary64
