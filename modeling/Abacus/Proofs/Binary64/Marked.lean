import Abacus.Proofs.Binary64.Plain

/-!
# Marked numbers read back

The debug layout is positional with a point in it, or scientific far from one, and either way it
spells the ratio of the decimal chosen for the number. In the scientific layout the exponent has to
be kept as written, which it is because a decimal among those nearest to a finite number is neither
very large nor very small. Together: the debug text of a finite number without a sign denotes
exactly that number, so that different numbers have different debug texts.
-/

namespace Abacus

namespace Binary64

/-- A ratio that is extended is still surrounded. -/
theorem Surrounds.mul_right {b num den k : Nat} (h : Surrounds b num den) (hk : 0 < k) :
    Surrounds b (num * k) (den * k) := by
  have hvalue : 4 * (num * k * unitsPerOne) = 4 * (num * unitsPerOne) * k := by ring
  have hunit (q : Nat) : q * (2 ^ scale b * (den * k)) = q * (2 ^ scale b * den) * k := by ring
  simp only [Surrounds, hvalue, hunit, Nat.mul_le_mul_right_iff hk, ne_eq, Nat.mul_left_inj hk.ne']
  exact h

/-- The scale of a finite magnitude. -/
theorem scale_le_of_lt {b : Nat} (h : b < infinity) : scale b ≤ 2045 := by
  have hdiv : b / binade < 2047 := (Nat.div_lt_iff_lt_mul binade_pos).mpr h
  unfold scale
  omega

end Binary64

namespace Decimal

open Binary64

theorem length_digits_pos (d : Decimal) : 0 < d.digits.length := Nat.length_toDigits_pos

/-- A coefficient is below the power of ten of its length. -/
theorem coefficient_lt (d : Decimal) : d.coefficient < 10 ^ d.digits.length :=
  (Nat.length_toDigits_le_iff (by decide) d.length_digits_pos).mp (Nat.le_refl _)

/-- A coefficient above zero is not below the power of ten of its first digit. -/
theorem le_coefficient {d : Decimal} (h : 0 < d.coefficient) :
    10 ^ (d.digits.length - 1) ≤ d.coefficient := by
  by_cases hone : d.digits.length - 1 = 0
  · rwa [hone, pow_zero]
  · by_contra hlt
    have hle := (Nat.length_toDigits_le_iff (by decide) (Nat.pos_of_ne_zero hone)).mpr
      (Nat.not_le.mp hlt)
    have := d.length_digits_pos
    exact absurd hle (Nat.not_le.mpr (Nat.sub_lt this Nat.one_pos))

/-- The ratio of a decimal in quarters of the smallest step. -/
theorem quarters_numerator (d : Decimal) :
    4 * (d.numerator * unitsPerOne) =
      d.coefficient * 10 ^ d.exponent.toNat * (4 * unitsPerOne) := by
  unfold numerator
  ring

private theorem quarters_lt : 4 * unitsPerOne < 10 ^ 324 := by decide +kernel

private theorem two_pow_le_quarters : 2 ^ 56 * 2 ^ 2045 ≤ 10 ^ 309 * (4 * unitsPerOne) := by
  decide +kernel

/-- A decimal surrounded by a magnitude above zero is not too small. -/
theorem le_order {b : Nat} {d : Decimal} (hb : 0 < significand b)
    (h : Surrounds b d.numerator d.denominator) : 0 < d.coefficient ∧ -400 ≤ d.order := by
  obtain ⟨-, hcases, -⟩ := lowerQuarters_cases b
  have hlower : 1 ≤ lowerQuarters b := by
    rcases hcases hb with h | h <;> omega
  have hsmall : d.denominator ≤ d.coefficient * 10 ^ d.exponent.toNat * (4 * unitsPerOne) := by
    calc d.denominator
        ≤ 2 ^ scale b * d.denominator := Nat.le_mul_of_pos_left _ (Nat.two_pow_pos _)
      _ ≤ lowerQuarters b * (2 ^ scale b * d.denominator) := Nat.le_mul_of_pos_left _ hlower
      _ ≤ 4 * (d.numerator * unitsPerOne) := h.1
      _ = d.coefficient * 10 ^ d.exponent.toNat * (4 * unitsPerOne) := d.quarters_numerator
  have hpos : 0 < d.coefficient := by
    by_contra hzero
    rw [Nat.eq_zero_of_not_pos hzero, Nat.zero_mul, Nat.zero_mul] at hsmall
    exact absurd d.denominator_pos (Nat.not_lt.mpr hsmall)
  refine ⟨hpos, ?_⟩
  have hscaled : 0 < d.coefficient * 10 ^ d.exponent.toNat := by positivity
  have hlt : 10 ^ (-d.exponent).toNat < 10 ^ (d.digits.length + d.exponent.toNat + 324) := by
    calc 10 ^ (-d.exponent).toNat
        ≤ d.coefficient * 10 ^ d.exponent.toNat * (4 * unitsPerOne) := hsmall
      _ < d.coefficient * 10 ^ d.exponent.toNat * 10 ^ 324 :=
          (Nat.mul_lt_mul_left hscaled).mpr quarters_lt
      _ ≤ 10 ^ d.digits.length * 10 ^ d.exponent.toNat * 10 ^ 324 :=
          Nat.mul_le_mul_right _ (Nat.mul_le_mul_right _ d.coefficient_lt.le)
      _ = 10 ^ (d.digits.length + d.exponent.toNat + 324) := by rw [pow_add, pow_add]
  have hexponent := (Nat.pow_lt_pow_iff_right (by decide : 1 < 10)).mp hlt
  have := d.length_digits_pos
  unfold order
  omega

/-- A decimal surrounded by a finite magnitude is not too large. -/
theorem order_le {b : Nat} {d : Decimal} (hpos : 0 < d.coefficient) (hfinite : b < infinity)
    (h : Surrounds b d.numerator d.denominator) : d.order ≤ 400 := by
  have hquarters : upperQuarters b ≤ 2 ^ 56 := by
    have hsignificand := significand_lt b
    have hbinade : 4 * (2 * binade) + 2 ≤ 2 ^ 56 := by decide
    unfold upperQuarters
    omega
  have hscale : 2 ^ scale b ≤ 2 ^ 2045 := by
    gcongr
    · decide
    · exact scale_le_of_lt hfinite
  have hupper : upperQuarters b * 2 ^ scale b ≤ 10 ^ 309 * (4 * unitsPerOne) := by
    calc upperQuarters b * 2 ^ scale b
        ≤ 2 ^ 56 * 2 ^ 2045 := Nat.mul_le_mul hquarters hscale
      _ ≤ 10 ^ 309 * (4 * unitsPerOne) := two_pow_le_quarters
  have hlarge : d.coefficient * 10 ^ d.exponent.toNat * (4 * unitsPerOne) ≤
      10 ^ 309 * d.denominator * (4 * unitsPerOne) := by
    calc d.coefficient * 10 ^ d.exponent.toNat * (4 * unitsPerOne)
        = 4 * (d.numerator * unitsPerOne) := d.quarters_numerator.symm
      _ ≤ upperQuarters b * 2 ^ scale b * d.denominator := by
          rw [Nat.mul_assoc (upperQuarters b)]
          exact h.2.1
      _ ≤ 10 ^ 309 * (4 * unitsPerOne) * d.denominator := Nat.mul_le_mul_right _ hupper
      _ = 10 ^ 309 * d.denominator * (4 * unitsPerOne) := Nat.mul_right_comm _ _ _
  have hunits : 0 < 4 * unitsPerOne := by decide +kernel
  have hle : 10 ^ (d.digits.length - 1 + d.exponent.toNat) ≤ 10 ^ (309 + (-d.exponent).toNat) := by
    calc 10 ^ (d.digits.length - 1 + d.exponent.toNat)
        = 10 ^ (d.digits.length - 1) * 10 ^ d.exponent.toNat := pow_add _ _ _
      _ ≤ d.coefficient * 10 ^ d.exponent.toNat := Nat.mul_le_mul_right _ (le_coefficient hpos)
      _ ≤ 10 ^ 309 * d.denominator := Nat.le_of_mul_le_mul_right hlarge hunits
      _ = 10 ^ (309 + (-d.exponent).toNat) := by rw [denominator, pow_add]
  have hexponent := (Nat.pow_le_pow_iff_right (by decide : 1 < 10)).mp hle
  unfold order
  omega

end Decimal

namespace Numeral

/-- Digits of an exponent below 655360 keep their value. -/
theorem magnitude?_toDigits {n : Nat} (h : n < 655360) :
    magnitude? (Nat.toDigits 10 n) = some n := by
  obtain ⟨hne, hdigits⟩ := isDigitRun_toDigits n
  have hvalue : (Nat.toDigits 10 n).foldl extendExponent 0 = n := by
    rw [foldl_extendExponent _ 0 (by rwa [Nat.ofDigitChars_ten_toDigits]),
      Nat.ofDigitChars_ten_toDigits]
  rw [magnitude?, if_pos ⟨hne, List.all_eq_true.mpr hdigits⟩, hvalue]

/-- Digits without a sign in front of them are an exponent above or at zero. -/
theorem signed?_of_isDigitRun {text : List Char} (h : IsDigitRun text) :
    signed? text = (magnitude? text).map Int.ofNat := by
  unfold signed?
  split
  · exact absurd (h.2 '+' List.mem_cons_self) (by decide)
  · exact absurd (h.2 '-' List.mem_cons_self) (by decide)
  · rfl

/-- A whole number that is not too large is read as the exponent it is written for. -/
theorem signed?_wholeNumber {n : Int} (h : n.natAbs < 655360) :
    signed? (Decimal.wholeNumber n) = some n := by
  unfold Decimal.wholeNumber
  split
  · next hneg =>
    rw [signed?, magnitude?_toDigits h, Option.map_some, Int.ofNat_eq_natCast]
    exact congrArg some (by omega)
  · next hpos =>
    rw [signed?_of_isDigitRun (isDigitRun_toDigits _), magnitude?_toDigits h, Option.map_some,
      Int.ofNat_eq_natCast]
    exact congrArg some (by omega)

/-- The scientific layout is read as its digits and its exponent. -/
theorem ofText?_scientific {d : Decimal} {first : Char} {rest : List Char}
    (hdigits : d.digits = first :: rest) (h : d.order.natAbs < 655360) :
    ofText? d.scientific = some ⟨[first], rest, d.order⟩ := by
  have hrun : IsDigitRun d.digits := isDigitRun_toDigits _
  rw [hdigits] at hrun
  obtain ⟨hfirst, hrest⟩ := List.forall_mem_cons.mp hrun.2
  have hexponent := signed?_wholeNumber h
  simp only [Decimal.scientific, hdigits, List.take_succ_cons, List.take_zero, List.tail_cons]
  cases rest with
  | nil => simp [ofText?, exponent?, hfirst, hexponent]
  | cons c cs =>
    have hcut := IsDigitRun.cut ⟨List.cons_ne_nil c cs, hrest⟩ ('e' :: Decimal.wholeNumber d.order)
      (by simp)
    rw [List.cons_append] at hcut
    simp [ofText?, exponent?, hfirst, hcut.1, hcut.2, hexponent]

/-- The value of a numeral whose exponent is within 400 places. -/
theorem value?_of_exponent_le {n : Numeral} (hlow : -400 ≤ n.exponent) (hhigh : n.exponent ≤ 400) :
    n.value? =
      Binary64.ofRatio? (Nat.ofDigitChars 10 n.digits 0 *
        10 ^ (n.exponent - n.fraction.length).toNat)
        (10 ^ (-(n.exponent - n.fraction.length)).toNat) := by
  have hpower : n.power = n.exponent - n.fraction.length := by
    simp only [power]
    omega
  rw [value?, coefficient, digitsValue_eq, hpower, Nat.pow_eq, Nat.pow_eq]

end Numeral

namespace Decimal

/-- Reading the scientific layout of a decimal rounds the ratio of that decimal. -/
theorem value?_scientific {d : Decimal} (hlow : -400 ≤ d.order) (hhigh : d.order ≤ 400) :
    (Numeral.ofText? d.scientific).bind Numeral.value? =
      Binary64.ofRatio? d.numerator d.denominator := by
  obtain ⟨first, rest, hdigits⟩ : ∃ first rest, d.digits = first :: rest :=
    List.exists_cons_of_ne_nil (isDigitRun_toDigits d.coefficient).1
  have hexponent : d.order - (rest.length : Nat) = d.exponent := by
    simp [order, hdigits]
  rw [Numeral.ofText?_scientific hdigits (by omega), Option.bind_some,
    Numeral.value?_of_exponent_le hlow hhigh]
  simp only [Numeral.digits, List.singleton_append, hexponent]
  rw [← hdigits, digits, Nat.ofDigitChars_ten_toDigits]
  rfl

/-- Reading a decimal without places behind the point, with a point and a zero behind it, rounds the
ratio of that decimal in tenths. -/
theorem value?_positional_point {d : Decimal} (h : 0 ≤ d.exponent) :
    (Numeral.ofText? (d.positional ++ ['.', '0'])).bind Numeral.value? =
      Binary64.ofRatio? (d.numerator * 10) (d.denominator * 10) := by
  obtain ⟨c, e⟩ := d
  obtain ⟨zeros, rfl⟩ := Int.eq_ofNat_of_zero_le h
  have hread : Numeral.ofText? (positional ⟨c, zeros⟩ ++ ['.', '0']) =
      some ⟨Nat.toDigits 10 (c * 10 ^ zeros), ['0'], 0⟩ :=
    Numeral.ofText?_fraction (isDigitRun_toDigits _) ⟨by simp, by simp⟩
  have hnum : numerator ⟨c, zeros⟩ = c * 10 ^ zeros := by simp [numerator]
  have hden : denominator ⟨c, zeros⟩ = 1 := by simp [denominator]
  rw [hread, Option.bind_some, Numeral.value?_of_exponent_eq_zero rfl, Numeral.digits,
    Nat.ofDigitChars_append, Nat.ofDigitChars_ten_toDigits, hnum, hden]
  simp [Nat.ofDigitChars_cons, Nat.mul_comm 10]

/-- Reading the debug layout of a decimal within 400 places rounds the ratio of that decimal,
perhaps extended. -/
theorem exists_value?_marked {d : Decimal} (hlow : -400 ≤ d.order) (hhigh : d.order ≤ 400) :
    ∃ k, 0 < k ∧ (Numeral.ofText? d.marked).bind Numeral.value? =
      Binary64.ofRatio? (d.numerator * k) (d.denominator * k) := by
  unfold marked
  split
  · exact ⟨1, Nat.one_pos, by rw [value?_scientific hlow hhigh, Nat.mul_one, Nat.mul_one]⟩
  · split
    · next hwhole => exact ⟨10, by decide, value?_positional_point hwhole⟩
    · exact ⟨1, Nat.one_pos, by rw [value?_positional, Nat.mul_one, Nat.mul_one]⟩

/-- The debug layout starts with a digit. -/
theorem exists_head_marked (d : Decimal) : ∃ c cs, d.marked = c :: cs ∧ c.isDigit = true := by
  obtain ⟨c, cs, hpositional, hc⟩ := (isPlainNumber_positional d).exists_head
  unfold marked
  split
  · have hrun : IsDigitRun d.digits := isDigitRun_toDigits _
    obtain ⟨first, rest, hdigits⟩ := List.exists_cons_of_ne_nil hrun.1
    have hfirst : first.isDigit = true := hrun.2 first (by simp [hdigits])
    simp only [scientific, hdigits, List.take_succ_cons, List.cons_append]
    exact ⟨first, _, rfl, hfirst⟩
  · split
    · exact ⟨c, cs ++ ['.', '0'], by rw [hpositional]; rfl, hc⟩
    · exact ⟨c, cs, hpositional, hc⟩

/-- The debug layout holds nothing but digits, points, the letter `e` and minus signs. -/
theorem not_mem_marked {c : Char} (hdigit : c.isDigit = false) (hmark : c ∉ ['.', 'e', '-'])
    (d : Decimal) : c ∉ d.marked := by
  have hdigits (n : Nat) : c ∉ Nat.toDigits 10 n := by
    intro hc
    rw [(isDigitRun_toDigits n).2 c hc] at hdigit
    cases hdigit
  have hpositional : c ∉ d.positional := by
    intro hc
    rcases (isPlainNumber_positional d).isDigit_or_eq c hc with h | rfl
    · rw [h] at hdigit
      cases hdigit
    · exact hmark (by decide)
  simp only [List.mem_cons, List.not_mem_nil, or_false, not_or] at hmark
  obtain ⟨hpoint, hletter, hminus⟩ := hmark
  have hwhole (n : Int) : c ∉ wholeNumber n := by
    unfold wholeNumber
    split <;> simp [hdigits, hminus]
  have hscientific : c ∉ d.scientific := by
    have htake : c ∉ d.digits.take 1 := fun hc => hdigits _ (List.mem_of_mem_take hc)
    have htail : c ∉ d.digits.tail := fun hc => hdigits _ (List.mem_of_mem_tail hc)
    unfold scientific
    simp only [List.mem_append, List.mem_cons, not_or]
    refine ⟨⟨htake, ?_⟩, hletter, hwhole _⟩
    split
    · exact List.not_mem_nil
    · simp [hpoint, htail]
  have hzero : c ≠ '0' := by
    rintro rfl
    cases hdigit
  unfold marked
  split
  · exact hscientific
  · split
    · simp [hpositional, hpoint, hzero]
    · exact hpositional

end Decimal

namespace Binary64

/-- The debug text of a finite number without a sign is the debug layout of its decimal. -/
theorem toList_debugText {x : Binary64} (hfinite : x.IsFinite) (hsign : x.negative = false) :
    x.debugText.toList = (shortest x.magnitude).marked := by
  have hdefined : ¬ x.IsUndefined := Nat.not_lt.mpr (Nat.le_of_lt hfinite)
  simp [debugText, textWith, hdefined, hfinite, hsign]

/-- Reading the debug layout of a finite magnitude rounds to that magnitude. -/
theorem exists_nearest_marked {b : Nat} (hfinite : b < infinity) :
    ∃ num den, nearest num den = b ∧
      (Numeral.ofText? (shortest b).marked).bind Numeral.value? = ofRatio? num den := by
  unfold shortest
  split
  · next hzero =>
    subst hzero
    exact ⟨0, 10, by decide +kernel, by decide +kernel⟩
  · next hb =>
    have hpos := significand_pos hb
    have hsurrounds := surrounds_decimalFrom hpos 20 (topExponent b)
    obtain ⟨hcoefficient, hlow⟩ := Decimal.le_order hpos hsurrounds
    have hhigh := Decimal.order_le hcoefficient hfinite hsurrounds
    obtain ⟨k, hk, hvalue⟩ := Decimal.exists_value?_marked hlow hhigh
    refine ⟨_, _, ?_, hvalue⟩
    exact nearest_eq_of_surrounds (Nat.mul_pos (Decimal.denominator_pos _) hk)
      (hsurrounds.mul_right hk)

/-- A finite number without a sign is read back from its debug text, bit for bit. -/
theorem ofText?_debugText {x : Binary64} (hfinite : x.IsFinite) (hsign : x.negative = false) :
    ofText? x.debugText = some x := by
  obtain ⟨num, den, hnearest, hvalue⟩ := exists_nearest_marked hfinite
  have htext := toList_debugText hfinite hsign
  obtain ⟨c, cs, hhead, hc⟩ := Decimal.exists_head_marked (shortest x.magnitude)
  rw [ofText?_of_isDigit (htext.trans hhead) hc, htext, hvalue, ofRatio?,
    dif_pos (by rwa [hnearest])]
  exact congrArg some (ext_parts hsign.symm hnearest)

end Binary64

end Abacus
