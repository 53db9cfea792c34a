import Abacus.Binary64.Nearest
import Abacus.Binary64.Shortest
import Mathlib.Tactic.Linarith
import Mathlib.Tactic.Ring

/-!
# Ratios that round to a given magnitude

The ratios nearest to a magnitude form an interval around it, measured in quarters of the step at
the magnitude. Rounding is proved to send every ratio of the interval to the magnitude it surrounds,
across the change of scale at the lower end of a binade: a ratio just below such a magnitude is
rounded at the next smaller scale and still reaches it.
-/

namespace Abacus.Binary64

/-- Division rounded to even is the natural number within half a unit of the ratio; a ratio half a
unit away belongs to even numbers only. -/
theorem roundHalfEven_eq {num den m : Nat} (hden : 0 < den)
    (hlow : 2 * m * den ≤ 2 * num + den) (hhigh : 2 * num ≤ 2 * m * den + den)
    (hends : m % 2 = 1 → 2 * m * den ≠ 2 * num + den ∧ 2 * num ≠ 2 * m * den + den) :
    roundHalfEven num den = m := by
  have hdiv := Nat.div_add_mod num den
  have hmod := Nat.mod_lt num hden
  unfold roundHalfEven
  generalize num / den = q at *
  generalize num % den = r at *
  have hq : q ≤ m := by
    by_contra h
    have := Nat.mul_le_mul_right den (show m + 1 ≤ q by omega)
    nlinarith
  have hm : m ≤ q + 1 := by
    by_contra h
    have := Nat.mul_le_mul_right den (show q + 2 ≤ m by omega)
    nlinarith
  -- The quotient is the result or one below it, and the remainder tells which.
  rcases (show m = q ∨ m = q + 1 by omega) with rfl | rfl
  · have hprod : 2 * m * den = 2 * (den * m) := by ring
    simp only [hprod] at hhigh hends
    have hcond : 2 * r < den ∨ 2 * r = den ∧ m % 2 = 0 := by omega
    simp only [hcond, ite_true]
  · have hprod : 2 * (q + 1) * den = 2 * (den * q) + 2 * den := by ring
    simp only [hprod] at hlow hends
    have hcond : ¬ (2 * r < den ∨ 2 * r = den ∧ q % 2 = 0) := by omega
    simp only [hcond, ite_false]

/-- The scale of a ratio is the one at which the ratio has 53 binary places, or the smallest. -/
theorem scaleOf_eq {steps den s : Nat} (hden : 0 < den)
    (hlow : s = 0 ∨ 2 ^ (s + 52) * den ≤ steps) (hhigh : steps < 2 ^ (s + 53) * den) :
    scaleOf steps den = s := by
  have hlt : steps / den < 2 ^ (s + 53) := (Nat.div_lt_iff_lt_mul hden).mpr hhigh
  unfold scaleOf
  by_cases hzero : steps / den = 0
  · rcases hlow with rfl | hlow
    · simp [hzero]
    · have hle : 2 ^ (s + 52) ≤ steps / den := (Nat.le_div_iff_mul_le hden).mpr hlow
      have := Nat.two_pow_pos (s + 52)
      omega
  · have hlog := (Nat.log2_lt hzero).mpr hlt
    rcases hlow with rfl | hlow
    · omega
    · have hle : 2 ^ (s + 52) ≤ steps / den := (Nat.le_div_iff_mul_le hden).mpr hlow
      have := (Nat.le_log2 hzero).mpr hle
      omega

/-- A magnitude and its significand are even together. -/
theorem significand_mod_two (b : Nat) : significand b % 2 = b % 2 := by
  have hb := scale_significand b
  have hbinade : binade = 2 * (1 <<< 51) := by decide
  rw [hbinade] at hb
  generalize 1 <<< 51 = half at hb
  have : scale b * (2 * half) = 2 * (scale b * half) := by ring
  omega

/-- The ratio lies among those nearest to the magnitude `b`: no further from it than the ends of its
interval, which belong to even magnitudes only. -/
def Surrounds (b num den : Nat) : Prop :=
  let unit := 2 ^ scale b * den
  let value := 4 * (num * unitsPerOne)
  lowerQuarters b * unit ≤ value ∧ value ≤ upperQuarters b * unit ∧
    (b % 2 = 1 → lowerQuarters b * unit ≠ value ∧ value ≠ upperQuarters b * unit)

/-- Rounding at the scale of the ratio. -/
theorem nearest_eq_of_scale {num den s m : Nat} (hden : 0 < den)
    (hlow : s = 0 ∨ binade * (2 ^ s * den) ≤ num * unitsPerOne)
    (hhigh : num * unitsPerOne < 2 * binade * (2 ^ s * den))
    (hround : roundHalfEven (num * unitsPerOne) (2 ^ s * den) = m) :
    nearest num den = s * binade + m := by
  have hbinade : binade = 2 ^ 52 := by decide
  have hdown : 2 ^ (s + 52) * den = binade * (2 ^ s * den) := by rw [hbinade, pow_add]; ring
  have hup : 2 ^ (s + 53) * den = 2 * binade * (2 ^ s * den) := by
    rw [hbinade, pow_add]
    ring
  have hscale : scaleOf (num * unitsPerOne) den = s :=
    scaleOf_eq hden (by rwa [hdown]) (by rwa [hup])
  unfold nearest
  simp only [hscale, Nat.shiftLeft_eq, Nat.mul_comm den, hround]

/-- The lower end stands half a step below a magnitude, or a quarter below the first one of a
binade. -/
theorem lowerQuarters_cases (b : Nat) :
    4 * significand b ≤ lowerQuarters b + 2 ∧
      (0 < significand b → lowerQuarters b + 2 = 4 * significand b ∨
        lowerQuarters b + 1 = 4 * significand b) ∧
      (0 < scale b → significand b = binade → lowerQuarters b + 1 = 4 * significand b) := by
  have := binade_pos
  unfold lowerQuarters
  refine ⟨?_, ?_, ?_⟩ <;> split <;> omega

/-- A ratio not below the binade of a magnitude that surrounds it is rounded to its significand. -/
theorem roundHalfEven_of_surrounds {b num den : Nat} (hden : 0 < den)
    (h : Surrounds b num den) :
    roundHalfEven (num * unitsPerOne) (2 ^ scale b * den) = significand b := by
  obtain ⟨hlow, hhigh, hends⟩ := h
  obtain ⟨hquarters, hcases, -⟩ := lowerQuarters_cases b
  have hparity := significand_mod_two b
  have hunit : 0 < 2 ^ scale b * den := Nat.mul_pos (Nat.two_pow_pos _) hden
  simp only [upperQuarters] at hhigh hends
  generalize 2 ^ scale b * den = unit at *
  generalize num * unitsPerOne = steps at *
  have hmul := Nat.mul_le_mul_right unit hquarters
  apply roundHalfEven_eq hunit
  · nlinarith
  · nlinarith
  · intro hodd
    obtain ⟨hnlow, hnhigh⟩ := hends (by omega)
    refine ⟨?_, fun heq => hnhigh (by nlinarith)⟩
    intro heq
    rcases hcases (by omega) with hlower | hlower
    · exact hnlow (by nlinarith)
    · nlinarith

/-- A ratio within a quarter of a step below the first magnitude of a binade is rounded at the next
smaller scale, to twice as many of the shorter steps. -/
theorem nearest_eq_below_binade {num den s : Nat} (hden : 0 < den)
    (hlow : (4 * binade - 1) * (2 ^ (s + 1) * den) ≤ 4 * (num * unitsPerOne))
    (hunder : num * unitsPerOne < binade * (2 ^ (s + 1) * den)) :
    nearest num den = s * binade + 2 * binade := by
  have hhalf : 2 ^ (s + 1) * den = 2 * (2 ^ s * den) := by rw [pow_succ]; ring
  rw [hhalf] at hlow hunder
  have hunit : 0 < 2 ^ s * den := Nat.mul_pos (Nat.two_pow_pos _) hden
  obtain ⟨k, hk⟩ : ∃ k, binade = k + 1 := Nat.exists_eq_succ_of_ne_zero binade_pos.ne'
  have hquarters : 4 * binade - 1 = 4 * k + 3 := by omega
  rw [hquarters] at hlow
  refine nearest_eq_of_scale hden (Or.inr ?_) ?_ ?_
  · rw [hk] at hunder ⊢
    generalize 2 ^ s * den = unit at *
    nlinarith
  · generalize 2 ^ s * den = unit at *
    linarith
  · generalize 2 ^ s * den = unit at *
    apply roundHalfEven_eq hunit
    · rw [hk]
      linarith
    · linarith
    · omega

/-- Every ratio that a magnitude surrounds is rounded to that magnitude. -/
theorem nearest_eq_of_surrounds {b num den : Nat} (hden : 0 < den) (h : Surrounds b num den) :
    nearest num den = b := by
  have hround := roundHalfEven_of_surrounds hden h
  obtain ⟨hlow, hhigh, -⟩ := h
  obtain ⟨hquarters, -, hfirst⟩ := lowerQuarters_cases b
  have hb := scale_significand b
  have hlt := significand_lt b
  have hunit : 0 < 2 ^ scale b * den := Nat.mul_pos (Nat.two_pow_pos _) hden
  simp only [upperQuarters] at hhigh
  have hbelow : num * unitsPerOne < 2 * binade * (2 ^ scale b * den) := by
    have := Nat.mul_le_mul_right (2 ^ scale b * den) (show significand b + 1 ≤ 2 * binade by omega)
    linarith
  by_cases hsame : scale b = 0 ∨ binade * (2 ^ scale b * den) ≤ num * unitsPerOne
  · rw [nearest_eq_of_scale hden hsame hbelow hround, hb]
  · -- The ratio falls below the binade, so the magnitude is the first of it.
    push Not at hsame
    obtain ⟨hscale, hunder⟩ := hsame
    have hle := le_significand (Nat.pos_of_ne_zero hscale)
    have hsig : significand b = binade := by
      by_contra hne
      have hmul := Nat.mul_le_mul_right (2 ^ scale b * den)
        (show 4 * binade + 4 ≤ lowerQuarters b + 2 by omega)
      linarith
    have hlower := hfirst (Nat.pos_of_ne_zero hscale) hsig
    obtain ⟨s, hs⟩ := Nat.exists_eq_add_one_of_ne_zero hscale
    rw [hsig, hs, Nat.add_mul] at hb
    rw [show lowerQuarters b = 4 * binade - 1 by omega, hs] at hlow
    rw [hs] at hunder
    rw [nearest_eq_below_binade hden hlow hunder]
    omega

end Abacus.Binary64
