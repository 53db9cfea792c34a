import Abacus.Proofs.Binary64.Plain
import Mathlib.Algebra.Order.Field.Rat
import Mathlib.Tactic.FieldSimp

/-!
# Which decimals are too large

A ratio is rounded past all finite numbers exactly from the middle between the largest of them and
the next power of two on, where a half goes up because the power has the even significand. The scale
of the ratio decides all but one case: below the topmost scale every rounding is finite, above it
none is, and at the topmost scale the significand must not round up to a further bit.
-/

namespace Abacus

namespace Binary64

section Rounding

variable {num den m : Nat}

theorem roundHalfEven_cases (num den : Nat) :
    roundHalfEven num den = num / den ∨ roundHalfEven num den = num / den + 1 := by
  simp only [roundHalfEven]
  split
  · exact .inl rfl
  · exact .inr rfl

/-- A ratio is rounded below an even number exactly when it is more than half a unit below it. -/
theorem roundHalfEven_lt_iff (hden : 0 < den) (hm : m % 2 = 0) :
    roundHalfEven num den < m ↔ 2 * num + den < 2 * (m * den) := by
  have hcases := roundHalfEven_cases num den
  have hdiv := Nat.div_add_mod' num den
  have hmod := Nat.mod_lt num hden
  rcases Nat.lt_trichotomy m (num / den + 1) with hlt | hnext | hgt
  · have hmul := Nat.mul_le_mul_right den (Nat.le_of_lt_succ hlt)
    omega
  · -- The even number is the upper neighbour, to which a half is rounded.
    have hmul : m * den = num / den * den + den := by rw [hnext, Nat.succ_mul]
    simp only [roundHalfEven]
    split <;> omega
  · have hmul := Nat.mul_le_mul_right den (Nat.succ_le_of_lt hgt)
    rw [Nat.succ_mul, Nat.succ_mul] at hmul
    omega

end Rounding

/-- The scale of a ratio gives it at most 53 binary places, and exactly 53 above the smallest. -/
theorem scaleOf_spec {steps den : Nat} (hden : 0 < den) :
    (scaleOf steps den = 0 ∨ binade * (2 ^ scaleOf steps den * den) ≤ steps) ∧
      steps < 2 * binade * (2 ^ scaleOf steps den * den) := by
  have hbinade : binade = 2 ^ 52 := by decide
  have hupper : steps / den < 2 ^ (scaleOf steps den + 53) :=
    Nat.lt_log2_self.trans_le (Nat.pow_le_pow_right Nat.two_pos (by unfold scaleOf; omega))
  constructor
  · by_cases hscale : scaleOf steps den = 0
    · exact .inl hscale
    · have hlog : (steps / den).log2 = scaleOf steps den + 52 := by
        unfold scaleOf at hscale ⊢
        omega
      have hne : steps / den ≠ 0 := by
        intro hzero
        rw [hzero] at hlog
        simp at hlog
      have hlower := (Nat.le_div_iff_mul_le hden).mp (Nat.log2_self_le hne)
      rw [hlog, pow_add] at hlower
      refine .inr ?_
      rw [hbinade]
      linarith
  · have hlt := (Nat.div_lt_iff_lt_mul hden).mp hupper
    rw [pow_add] at hlt
    rw [hbinade]
    linarith

/-- The steps at a smaller scale are at most half as long. -/
theorem two_mul_step_le {s t : Nat} (h : s < t) (den : Nat) :
    2 * (2 ^ s * den) ≤ 2 ^ t * den := by
  have hpow : 2 ^ (s + 1) ≤ 2 ^ t := Nat.pow_le_pow_right Nat.two_pos h
  have hmul := Nat.mul_le_mul_right den hpow
  rw [pow_succ] at hmul
  linarith

/-- Rounding is finite exactly for ratios more than half a step of the topmost scale below the first
power of two that is too large. -/
theorem nearest_lt_infinity_iff {num den : Nat} (hden : 0 < den) :
    nearest num den < infinity ↔
      2 * (num * unitsPerOne) + 2 ^ 2045 * den < 2 * (2 * binade * (2 ^ 2045 * den)) := by
  have hnearest : nearest num den = scaleOf (num * unitsPerOne) den * binade +
      roundHalfEven (num * unitsPerOne) (2 ^ scaleOf (num * unitsPerOne) den * den) := by
    simp only [nearest, Nat.shiftLeft_eq, Nat.mul_comm den]
  obtain ⟨hlow, hhigh⟩ := @scaleOf_spec (num * unitsPerOne) den hden
  rw [hnearest, infinity]
  generalize num * unitsPerOne = steps at *
  generalize scaleOf steps den = s at *
  have hunit (k : Nat) : 0 < 2 ^ k * den := Nat.mul_pos (Nat.two_pow_pos k) hden
  have hcases := roundHalfEven_cases steps (2 ^ s * den)
  have hbinade := binade_pos
  rcases Nat.lt_trichotomy s 2045 with hlt | rfl | hgt
  · have hhalf := Nat.mul_le_mul_left (2 * binade) (two_mul_step_le hlt den)
    have hscale := Nat.mul_le_mul_right binade (Nat.le_of_lt_succ hlt)
    have hsteps : steps / (2 ^ s * den) < 2 * binade := (Nat.div_lt_iff_lt_mul (hunit s)).mpr hhigh
    refine iff_of_true (by omega) ?_
    have htop := Nat.mul_pos hbinade (hunit 2045)
    have hle := Nat.mul_le_mul_right (2 ^ 2045 * den) (Nat.succ_le_of_lt hbinade)
    generalize 2 ^ 2045 * den = top at *
    generalize 2 ^ s * den = unit at *
    linarith
  · rw [← roundHalfEven_lt_iff (hunit 2045) (Nat.mul_mod_right 2 binade)]
    omega
  · have hhalf := Nat.mul_le_mul_left binade (two_mul_step_le hgt den)
    have hscale := Nat.mul_le_mul_right binade (Nat.succ_le_of_lt hgt)
    have hle := hlow.resolve_left (by omega)
    have hsteps : binade ≤ steps / (2 ^ s * den) := (Nat.le_div_iff_mul_le (hunit s)).mpr hle
    refine iff_of_false (by omega) ?_
    generalize 2 ^ 2045 * den = top at *
    generalize 2 ^ s * den = unit at *
    linarith

/-- Half a step of a scale and a power of two, both counted in smallest steps and in ones. -/
theorem half_step_lt_iff (num den half places : Nat) :
    2 * (num * 1 <<< places) + 2 ^ (half + (places + 1)) * den <
        2 * (2 * binade * (2 ^ (half + (places + 1)) * den)) ↔
      num + 2 ^ half * den < 2 ^ (54 + half) * den := by
  have hbinade : 2 * (2 * binade) = 2 ^ 54 := by decide
  have hleft : 2 * (num * 2 ^ places) + 2 ^ (half + (places + 1)) * den =
      (num + 2 ^ half * den) * 2 ^ (places + 1) := by ring
  have hright : 2 * (2 * binade * (2 ^ (half + (places + 1)) * den)) =
      2 ^ (54 + half) * den * 2 ^ (places + 1) := by
    rw [← Nat.mul_assoc 2, hbinade]
    ring
  rw [Nat.one_shiftLeft, hleft, hright, Nat.mul_lt_mul_right (Nat.two_pow_pos _)]

/-- A ratio is rounded to a finite number exactly below the middle between the largest finite number
and the next power of two. -/
theorem nearest_lt_infinity_iff_div_lt {num den : Nat} (hden : 0 < den) :
    nearest num den < infinity ↔ (num / den : ℚ) < 2 ^ 1024 - 2 ^ 970 := by
  have hpos : (0 : ℚ) < den := by exact_mod_cast hden
  rw [nearest_lt_infinity_iff hden, unitsPerOne, show 2045 = 970 + (1074 + 1) from rfl,
    half_step_lt_iff, show 54 + 970 = 1024 from rfl, div_lt_iff₀ hpos, sub_mul,
    lt_sub_iff_add_lt]
  exact_mod_cast Iff.rfl

end Binary64

section Text

/-- The exact value of a plain number: the number in front of the point, and the number behind it
divided by ten for each of its digits. -/
def plainValue (text : List Char) : ℚ :=
  let digits := text.takeWhile Char.isDigit
  let places := (text.dropWhile Char.isDigit).drop 1
  Nat.ofDigitChars 10 digits 0 + Nat.ofDigitChars 10 places 0 / 10 ^ places.length

/-- Digits without a point have the value of a natural number. -/
theorem IsDigitRun.plainValue_eq {digits : List Char} (h : IsDigitRun digits) :
    plainValue digits = Nat.ofDigitChars 10 digits 0 := by
  have hcut := h.cut [] (by simp)
  rw [List.append_nil] at hcut
  simp [plainValue, hcut.1, hcut.2]

/-- A plain number denotes the double-precision number nearest to its exact value. -/
theorem IsPlainNumber.exists_ratio {text : List Char} (h : IsPlainNumber text) :
    ∃ num den : Nat, 0 < den ∧ plainValue text = num / den ∧
      (Numeral.ofText? text).bind Numeral.value? = Binary64.ofRatio? num den := by
  cases h with
  | whole hd =>
    refine ⟨Nat.ofDigitChars 10 text 0, 1, Nat.one_pos, by simp [hd.plainValue_eq], ?_⟩
    rw [Numeral.ofText?_whole hd, Option.bind_some, Numeral.value?_of_exponent_eq_zero rfl]
    simp [Numeral.digits]
  | @fraction digits places hd hp =>
    have hcut := hd.cut ('.' :: places) (by simp)
    refine ⟨Nat.ofDigitChars 10 (digits ++ places) 0, 10 ^ places.length,
      Nat.pow_pos (by decide), ?_, ?_⟩
    · have hjoin : Nat.ofDigitChars 10 (digits ++ places) 0 =
          10 ^ places.length * Nat.ofDigitChars 10 digits 0 + Nat.ofDigitChars 10 places 0 := by
        rw [Nat.ofDigitChars_append, Nat.ofDigitChars_eq_ofDigitChars_zero]
      simp only [plainValue, hcut.1, hcut.2, List.drop_succ_cons, List.drop_zero, hjoin]
      push_cast
      field_simp
    · rw [Numeral.ofText?_fraction hd hp, Option.bind_some, Numeral.value?_of_exponent_eq_zero rfl]
      rfl

/-- A plain number is read unless its exact value is too large to be rounded to a finite one. -/
theorem Binary64.ofText?_eq_none_iff {text : String} (h : IsPlainNumber text.toList) :
    Binary64.ofText? text = none ↔ 2 ^ 1024 - 2 ^ 970 ≤ plainValue text.toList := by
  obtain ⟨num, den, hden, hvalue, hread⟩ := h.exists_ratio
  obtain ⟨c, cs, hhead, hc⟩ := h.exists_head
  rw [ofText?_of_isDigit hhead hc, hread, hvalue, Binary64.ofRatio?, dite_eq_right_iff, ← not_lt,
    ← nearest_lt_infinity_iff_div_lt hden]
  simp

end Text

end Abacus
