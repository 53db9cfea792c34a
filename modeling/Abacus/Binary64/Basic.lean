/-!
# Double-precision numbers

A number is a sign and a magnitude, the magnitude being the other 63 bits read as one natural
number. Magnitudes below `infinity` are finite, and their order is the order of the values: the
magnitude `b` stands for `units b` steps of `2 ^ -1074`, the distance between the smallest numbers.
The steps double in length with every further binade of magnitudes. Equality of `Binary64` is
equality of all 64 bits.
-/

namespace Abacus

/-- The place value of the sign among the 64 bits of a number. -/
def Binary64.signBit : Nat := 1 <<< 63

/-- A double-precision binary number. -/
structure Binary64 where
  /-- The sign bit. -/
  negative : Bool
  /-- The exponent and fraction bits, read as one number. -/
  magnitude : Nat
  magnitude_lt : magnitude < Binary64.signBit
  deriving DecidableEq

namespace Binary64

/-- How many magnitudes share one exponent. -/
def binade : Nat := 1 <<< 52

/-- The magnitude of infinity; above it stand the magnitudes that are not numbers. -/
def infinity : Nat := 2047 * binade

theorem signBit_pos : 0 < signBit := by decide

theorem binade_pos : 0 < binade := by decide

theorem infinity_lt : infinity < signBit := by decide

/-- The number with the given 64 bits. -/
def ofBits (bits : UInt64) : Binary64 where
  negative := decide (signBit ≤ bits.toNat)
  magnitude := bits.toNat % signBit
  magnitude_lt := Nat.mod_lt _ signBit_pos

/-- The 64 bits of a number. -/
def toBits (x : Binary64) : UInt64 :=
  UInt64.ofNat (x.magnitude + if x.negative then signBit else 0)

/-- Sign and magnitude determine a number. -/
theorem ext_parts {x y : Binary64} (hn : x.negative = y.negative)
    (hm : x.magnitude = y.magnitude) : x = y := by
  cases x
  cases y
  simp_all

/-- Neither infinite nor undefined. -/
def IsFinite (x : Binary64) : Prop := x.magnitude < infinity

instance (x : Binary64) : Decidable x.IsFinite := inferInstanceAs (Decidable (_ < _))

/-- The number itself if it is finite. -/
def finite? (x : Binary64) : Option Binary64 := if x.IsFinite then some x else none

/-- Undefined: not a number at all. -/
def IsUndefined (x : Binary64) : Prop := infinity < x.magnitude

instance (x : Binary64) : Decidable x.IsUndefined := inferInstanceAs (Decidable (_ < _))

/-- Infinity with a given sign. -/
def infinite (negative : Bool) : Binary64 := ⟨negative, infinity, infinity_lt⟩

/-- What is no number, with a given sign. -/
def undefined (negative : Bool) : Binary64 := ⟨negative, infinity + binade / 2, by decide⟩

/-- Comparison by value: the two zeros are one value, and what is undefined equals nothing. -/
def sameValue (x y : Binary64) : Bool :=
  !decide x.IsUndefined && (decide (x = y) || (x.magnitude == 0 && y.magnitude == 0))

/-- The power of two by which the steps at a magnitude exceed the smallest step. -/
def scale (b : Nat) : Nat := b / binade - 1

/-- How many steps of size `2 ^ scale b` the magnitude `b` stands for. -/
def significand (b : Nat) : Nat := b - scale b * binade

/-- How many of the smallest steps, `2 ^ -1074` each, the magnitude `b` stands for. -/
def units (b : Nat) : Nat := significand b <<< scale b

/-- A magnitude is its scale and its significand side by side. -/
theorem scale_significand (b : Nat) : scale b * binade + significand b = b := by
  have h : b / binade * binade ≤ b := Nat.div_mul_le_self b _
  have hs : scale b * binade ≤ b := Nat.le_trans (Nat.mul_le_mul_right _ (Nat.sub_le _ _)) h
  unfold significand
  omega

/-- A significand has at most 53 bits. -/
theorem significand_lt (b : Nat) : significand b < 2 * binade := by
  have hb := Nat.div_add_mod b binade
  have hm := Nat.mod_lt b binade_pos
  unfold significand scale
  rw [Nat.sub_mul, Nat.mul_comm (b / binade)]
  omega

/-- Above the smallest scale a significand has exactly 53 bits. -/
theorem le_significand {b : Nat} (h : 0 < scale b) : binade ≤ significand b := by
  have hb := Nat.div_add_mod b binade
  unfold scale at h
  unfold significand scale
  rw [Nat.sub_mul, Nat.mul_comm (b / binade)]
  have : binade * 2 ≤ binade * (b / binade) := Nat.mul_le_mul_left _ (by omega)
  omega

end Binary64
end Abacus
