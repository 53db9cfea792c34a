import Abacus.Binary64.Nearest

/-!
# Written numbers

A numeral is a run of digits with perhaps a point among them, at least one digit on one side of it,
then perhaps an exponent: the letter `e` in either case, a sign that may be left out, and at least
one digit. It denotes the double-precision number nearest to the decimal it spells, which is
infinite when that decimal is too large. The digits of an exponent count until its value is 65536 or
more, so that every exponent below 655360 is kept as written.

A text denotes a number if it is a numeral or a word for what is not finite, perhaps behind a sign.
The literals of the language are fewer: they start with a digit and denote a finite number.
-/

namespace Abacus

/-- The parts of a written number. -/
structure Numeral where
  /-- The digits before the point. -/
  whole : List Char
  /-- The digits after the point, none when there is no point. -/
  fraction : List Char
  /-- The power of ten behind the letter `e`, zero when there is none. -/
  exponent : Int
  deriving DecidableEq

namespace Numeral

/-- The value of a run of digits. A long run is read in two halves, which keeps the numbers that are
multiplied of equal size. -/
def digitsValue (run : List Char) : Nat :=
  if run.length ≤ 64 then Nat.ofDigitChars 10 run 0
  else
    let front := run.take (run.length / 2)
    let back := run.drop (run.length / 2)
    Nat.pow 10 back.length * digitsValue front + digitsValue back
  termination_by run.length
  decreasing_by all_goals grind

/-- Reading in halves gives the value of the digits from left to right. -/
theorem digitsValue_eq (run : List Char) : digitsValue run = Nat.ofDigitChars 10 run 0 := by
  fun_induction digitsValue run with
  | case1 => rfl
  | case2 run _ front back ihf ihb =>
    rw [ihf, ihb, Nat.pow_eq, ← Nat.ofDigitChars_eq_ofDigitChars_zero,
      ← Nat.ofDigitChars_append, List.take_append_drop]

/-- Digits behind a number do not make it smaller. -/
theorem le_ofDigitChars (run : List Char) (n : Nat) : n ≤ Nat.ofDigitChars 10 run n := by
  induction run generalizing n with
  | nil => exact Nat.le_refl n
  | cons digit run ih =>
    rw [Nat.ofDigitChars_cons]
    have := ih (10 * n + (digit.toNat - '0'.toNat))
    omega

/-- An exponent with one more digit. An exponent of 65536 or more is complete, and what follows does
not count. -/
def extendExponent (exponent : Nat) (digit : Char) : Nat :=
  if exponent < 65536 then 10 * exponent + (digit.toNat - '0'.toNat) else exponent

/-- A run of digits keeps its value as an exponent when that value is below 655360. -/
theorem foldl_extendExponent (run : List Char) (exponent : Nat)
    (h : Nat.ofDigitChars 10 run exponent < 655360) :
    run.foldl extendExponent exponent = Nat.ofDigitChars 10 run exponent := by
  induction run generalizing exponent with
  | nil => rfl
  | cons digit run ih =>
    rw [Nat.ofDigitChars_cons] at h ⊢
    have hle := le_ofDigitChars run (10 * exponent + (digit.toNat - '0'.toNat))
    have hlt : exponent < 65536 := by omega
    rw [List.foldl_cons, extendExponent, if_pos hlt]
    exact ih _ h

/-- The size of an exponent, written as one or more digits. -/
def magnitude? (text : List Char) : Option Nat :=
  if text ≠ [] ∧ text.all Char.isDigit then some (text.foldl extendExponent 0) else none

/-- An exponent of one or more digits, perhaps behind a sign. -/
def signed? : List Char → Option Int
  | '+' :: rest => (magnitude? rest).map Int.ofNat
  | '-' :: rest => (magnitude? rest).map fun n => -Int.ofNat n
  | rest => (magnitude? rest).map Int.ofNat

/-- The exponent that a text spells; the empty text spells zero. -/
def exponent? : List Char → Option Int
  | [] => some 0
  | mark :: rest => if mark = 'e' ∨ mark = 'E' then signed? rest else none

/-- The parts of a text that spells a number without a sign. -/
def ofText? (text : List Char) : Option Numeral :=
  let whole := text.takeWhile Char.isDigit
  match text.dropWhile Char.isDigit with
  | '.' :: rest =>
    let fraction := rest.takeWhile Char.isDigit
    if whole = [] ∧ fraction = [] then none
    else (exponent? (rest.dropWhile Char.isDigit)).map fun exponent => ⟨whole, fraction, exponent⟩
  | rest =>
    if whole = [] then none else (exponent? rest).map fun exponent => ⟨whole, [], exponent⟩

/-- All digits of a numeral in order. -/
def digits (n : Numeral) : List Char := n.whole ++ n.fraction

/-- The digits of a numeral as one natural number. -/
def coefficient (n : Numeral) : Nat := digitsValue n.digits

/-- The power of ten that the last digit counts. An exponent that outweighs every written digit by
400 places already decides that the value is zero or too large, so none beyond it is kept. -/
def power (n : Numeral) : Int :=
  let bound : Int := n.digits.length + 400
  max (-bound) (min bound n.exponent) - n.fraction.length

/-- The number that a numeral denotes behind a sign. -/
def value (negative : Bool) (n : Numeral) : Binary64 :=
  .ofRatio negative (n.coefficient * Nat.pow 10 n.power.toNat) (Nat.pow 10 (-n.power).toNat)

end Numeral

namespace Binary64

/-- What a word in small letters denotes that is not finite. -/
def ofWord? (negative : Bool) (word : List Char) : Option Binary64 :=
  if word = "inf".toList ∨ word = "infinity".toList then some (infinite negative)
  else if word = "nan".toList then some (undefined negative)
  else none

/-- Whether a text has a minus sign in front, and the text without its sign. -/
def cutSign : List Char → Bool × List Char
  | '-' :: rest => (true, rest)
  | '+' :: rest => (false, rest)
  | text => (false, text)

/-- The number that a text denotes. -/
def parse? (text : String) : Option Binary64 :=
  let (negative, size) := cutSign text.toList
  match Numeral.ofText? size with
  | some n => some (n.value negative)
  | none => ofWord? negative (size.map Char.toLower)

/-- The number that a literal denotes: its text has to start with a digit, to denote a number, and
the number has to be finite. -/
def ofText? (text : String) : Option Binary64 :=
  if text.toList.head?.any Char.isDigit then (parse? text).bind finite? else none

end Binary64
end Abacus
