import Abacus.Binary64.Basic

/-!
# Shortest decimals

Every finite number is the nearest one to a whole interval of decimals. Of these the shortest is
chosen, the one on the coarsest grid of powers of ten; of two on the same grid the nearer to the
number, and of two equally near the larger. All comparisons are of natural numbers: the interval is
measured in quarters of the step at the number, and quarters and grid steps in a common measure.
-/

namespace Abacus

/-- A decimal: the coefficient counts powers of ten. -/
structure Decimal where
  coefficient : Nat
  exponent : Int
  deriving DecidableEq

namespace Binary64

/-- The exponent of two of a quarter of the step at a magnitude. -/
def quarterExponent (b : Nat) : Int := (scale b : Int) - 1076

/-- A quarter of the step at `b`, in a measure shared with the grid of `10 ^ e`. -/
def quarter (b : Nat) (e : Int) : Nat := Nat.pow 10 (-e).toNat <<< (quarterExponent b).toNat

/-- The distance of two points of the grid of `10 ^ e`, in a measure shared with quarters at `b`. -/
def gridStep (b : Nat) (e : Int) : Nat := Nat.pow 10 e.toNat <<< (-quarterExponent b).toNat

/-- The lower end of the decimals nearest to `b`, in quarters: half a step below, or a quarter where
the steps below are half as long. -/
def lowerQuarters (b : Nat) : Nat :=
  4 * significand b - if significand b = binade ∧ 0 < scale b then 1 else 2

/-- The upper end of the decimals nearest to `b`, in quarters: half a step above. -/
def upperQuarters (b : Nat) : Nat := 4 * significand b + 2

/-- Whether the point `n` of the grid of `10 ^ e` is a decimal nearest to `b`; a half goes to the
even magnitude, so the ends belong to even magnitudes only. -/
def readsBack (b : Nat) (e : Int) (n : Nat) : Bool :=
  let low := lowerQuarters b * quarter b e
  let high := upperQuarters b * quarter b e
  let point := n * gridStep b e
  if b % 2 = 0 then low ≤ point && point ≤ high else low < point && point < high

/-- The point of the grid of `10 ^ e` that stands for `b`, if one does. -/
def gridPoint? (b : Nat) (e : Int) : Option Nat :=
  let value := 4 * significand b * quarter b e
  let step := gridStep b e
  let below := value / step
  match readsBack b e below, readsBack b e (below + 1) with
  | true, true => some (if 2 * (value % step) < step then below else below + 1)
  | true, false => some below
  | false, true => some (below + 1)
  | false, false => none

/-- The first grid with a point for `b`, among `grids` of them from `10 ^ e` downwards. Behind them
stands the decimal that equals the number. -/
def decimalFrom (b : Nat) : (grids : Nat) → (e : Int) → Decimal
  | 0, _ => ⟨units b * Nat.pow 5 1074, -1074⟩
  | grids + 1, e =>
    match gridPoint? b e with
    | some n => ⟨n, e⟩
    | none => decimalFrom b grids (e - 1)

/-- An exponent of ten above every decimal nearest to `b`. -/
def topExponent (b : Nat) : Int :=
  ((significand b).log2 + 1 + scale b - 1074 : Int) * 30103 / 100000 + 1

/-- The shortest decimal nearest to the magnitude `b`; 20 grids hold the 17 digits that always
suffice. -/
def shortest (b : Nat) : Decimal :=
  if b = 0 then ⟨0, 0⟩ else decimalFrom b 20 (topExponent b)

end Binary64
end Abacus
