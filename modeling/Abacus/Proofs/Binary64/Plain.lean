import Abacus.Binary64.Text
import Abacus.Proofs.Binary64.Nearest
import Abacus.Proofs.Binary64.Reading

/-!
# Plain numbers read back

The decimal chosen for a finite number lies among the ratios nearest to it, whichever grid supplied
it, so that rounding returns the number. The plain layout writes that decimal in digits with at most
one point between them, and reading the layout spells the same ratio. Together: the plain text of a
finite number without a sign denotes exactly that number.
-/

namespace Abacus

namespace Decimal

/-- The ratio of a decimal, above the line. -/
def numerator (d : Decimal) : Nat := d.coefficient * 10 ^ d.exponent.toNat

/-- The ratio of a decimal, below the line. -/
def denominator (d : Decimal) : Nat := 10 ^ (-d.exponent).toNat

theorem denominator_pos (d : Decimal) : 0 < d.denominator := Nat.pow_pos (by decide)

end Decimal

namespace Binary64

private theorem four_mul_shiftLeft (places : Nat) : 4 * (1 <<< places) = 2 ^ (places + 2) := by
  rw [Nat.shiftLeft_eq, pow_add]
  ring

private theorem ten_pow_eq (places : Nat) : 10 ^ places = 5 ^ places * 2 ^ places :=
  mul_pow 5 2 places

/-- Quarters and grid steps are the two sides of one ratio of powers. -/
private theorem exists_common_measure (b : Nat) (e : Int) :
    ∃ k, 0 < k ∧ quarter b e * k = 2 ^ scale b * 10 ^ (-e).toNat ∧
      gridStep b e * k = 10 ^ e.toNat * (4 * unitsPerOne) := by
  rw [unitsPerOne, four_mul_shiftLeft]
  simp only [quarter, gridStep, quarterExponent, Nat.shiftLeft_eq, Nat.pow_eq]
  generalize hplaces : 1074 + 2 = places
  by_cases h : places ≤ scale b
  · refine ⟨2 ^ places, Nat.two_pow_pos _, ?_, ?_⟩
    · rw [show ((scale b : Int) - 1076).toNat = scale b - places by omega, Nat.mul_assoc,
        ← pow_add, Nat.sub_add_cancel h, Nat.mul_comm]
    · rw [show (-((scale b : Int) - 1076)).toNat = 0 by omega, pow_zero, Nat.mul_one]
  · refine ⟨2 ^ scale b, Nat.two_pow_pos _, ?_, ?_⟩
    · rw [show ((scale b : Int) - 1076).toNat = 0 by omega, pow_zero, Nat.mul_one, Nat.mul_comm]
    · rw [show (-((scale b : Int) - 1076)).toNat = places - scale b by omega, Nat.mul_assoc,
        ← pow_add, Nat.sub_add_cancel (by omega)]

/-- A grid point that reads back is a ratio that the magnitude surrounds. -/
theorem surrounds_of_readsBack {b n : Nat} {e : Int} (h : readsBack b e n = true) :
    Surrounds b (Decimal.numerator ⟨n, e⟩) (Decimal.denominator ⟨n, e⟩) := by
  obtain ⟨k, hk, hquarter, hgrid⟩ := exists_common_measure b e
  have hvalue : 4 * (Decimal.numerator ⟨n, e⟩ * unitsPerOne) = n * gridStep b e * k := by
    rw [Nat.mul_assoc n, hgrid, Decimal.numerator]
    ring
  have hunit (q : Nat) : q * (2 ^ scale b * Decimal.denominator ⟨n, e⟩) = q * quarter b e * k := by
    rw [Nat.mul_assoc q, hquarter, Decimal.denominator]
  simp only [Surrounds, hvalue, hunit, Nat.mul_le_mul_right_iff hk, ne_eq,
    Nat.mul_left_inj hk.ne']
  simp only [readsBack] at h
  split at h
  · simp only [Bool.and_eq_true, decide_eq_true_eq] at h
    exact ⟨h.1, h.2, by omega⟩
  · simp only [Bool.and_eq_true, decide_eq_true_eq] at h
    exact ⟨h.1.le, h.2.le, fun _ => ⟨h.1.ne, h.2.ne⟩⟩

/-- The grid point chosen for a magnitude reads back. -/
theorem readsBack_of_gridPoint? {b n : Nat} {e : Int} (h : gridPoint? b e = some n) :
    readsBack b e n = true := by
  unfold gridPoint? at h
  simp only at h
  split at h
  · next hbelow habove =>
    split at h
    · cases h; exact hbelow
    · cases h; exact habove
  · next hbelow _ => cases h; exact hbelow
  · next habove => cases h; exact habove
  · cases h

/-- The decimal equal to a magnitude is surrounded by it. -/
theorem surrounds_exact {b : Nat} (hb : 0 < significand b) :
    Surrounds b (Decimal.numerator ⟨units b * Nat.pow 5 1074, -1074⟩)
      (Decimal.denominator ⟨units b * Nat.pow 5 1074, -1074⟩) := by
  simp only [Surrounds, Decimal.numerator, Decimal.denominator, units, unitsPerOne, Nat.pow_eq,
    Nat.shiftLeft_eq, show (-1074 : Int).toNat = 0 by decide,
    show (-(-1074 : Int)).toNat = 1074 by decide, ten_pow_eq, pow_zero, Nat.mul_one, Nat.one_mul,
    -Nat.reducePow]
  generalize 1074 = places
  have hunit : 0 < 2 ^ scale b * (5 ^ places * 2 ^ places) := by positivity
  have hvalue : 4 * (significand b * 2 ^ scale b * 5 ^ places * 2 ^ places) =
      4 * significand b * (2 ^ scale b * (5 ^ places * 2 ^ places)) := by ring
  have hlower : lowerQuarters b < 4 * significand b := by
    unfold lowerQuarters
    split <;> omega
  have hupper : 4 * significand b < upperQuarters b := by unfold upperQuarters; omega
  rw [hvalue]
  have hlt := Nat.mul_lt_mul_of_pos_right hlower hunit
  have hgt := Nat.mul_lt_mul_of_pos_right hupper hunit
  exact ⟨hlt.le, hgt.le, fun _ => ⟨hlt.ne, hgt.ne⟩⟩

/-- Whatever grid the search stops at, its decimal is surrounded by the magnitude. -/
theorem surrounds_decimalFrom {b : Nat} (hb : 0 < significand b) (grids : Nat) (e : Int) :
    Surrounds b (decimalFrom b grids e).numerator (decimalFrom b grids e).denominator := by
  induction grids generalizing e with
  | zero => exact surrounds_exact hb
  | succ grids ih =>
    unfold decimalFrom
    cases hpoint : gridPoint? b e with
    | some n => exact surrounds_of_readsBack (readsBack_of_gridPoint? hpoint)
    | none => exact ih (e - 1)

/-- A magnitude above zero has a significand above zero. -/
theorem significand_pos {b : Nat} (hb : b ≠ 0) : 0 < significand b := by
  have h := scale_significand b
  by_cases hs : 0 < scale b
  · exact binade_pos.trans_le (le_significand hs)
  · rw [show scale b = 0 by omega] at h
    omega

/-- The shortest decimal of a magnitude is rounded to that magnitude. -/
theorem nearest_shortest (b : Nat) :
    nearest (shortest b).numerator (shortest b).denominator = b := by
  unfold shortest
  split
  · next hb => subst hb; decide +kernel
  · next hb =>
    exact nearest_eq_of_surrounds (Decimal.denominator_pos _)
      (surrounds_decimalFrom (significand_pos hb) 20 _)

end Binary64

/-- One or more digits. -/
def IsDigitRun (text : List Char) : Prop := text ≠ [] ∧ ∀ c ∈ text, c.isDigit = true

/-- Digits, and perhaps a point with digits behind it. -/
inductive IsPlainNumber : List Char → Prop
  | whole {digits : List Char} : IsDigitRun digits → IsPlainNumber digits
  | fraction {digits places : List Char} :
    IsDigitRun digits → IsDigitRun places → IsPlainNumber (digits ++ '.' :: places)

/-- A number is made of digits and points. -/
theorem IsPlainNumber.isDigit_or_eq {text : List Char} (h : IsPlainNumber text) :
    ∀ c ∈ text, c.isDigit = true ∨ c = '.' := by
  intro c hc
  cases h with
  | whole hd => exact .inl (hd.2 c hc)
  | fraction hd hp =>
    rcases List.mem_append.mp hc with hc | hc
    · exact .inl (hd.2 c hc)
    · rcases List.mem_cons.mp hc with rfl | hc
      · exact .inr rfl
      · exact .inl (hp.2 c hc)

/-- Digits in front of a text that starts with none are cut off exactly. -/
theorem IsDigitRun.cut {run : List Char} (h : IsDigitRun run) (rest : List Char)
    (hrest : ∀ c ∈ rest.head?, c.isDigit = false) :
    (run ++ rest).takeWhile Char.isDigit = run ∧ (run ++ rest).dropWhile Char.isDigit = rest := by
  rw [List.takeWhile_append_of_pos h.2, List.dropWhile_append_of_pos h.2]
  cases rest with
  | nil => simp
  | cons c cs =>
    have hc : ¬ c.isDigit = true := by simp [hrest c (by simp)]
    simp [hc]

/-- The digits of a natural number are one or more. -/
theorem isDigitRun_toDigits (n : Nat) : IsDigitRun (Nat.toDigits 10 n) :=
  ⟨Nat.toDigits_ne_nil, fun _ hc => Nat.isDigit_of_mem_toDigits (by decide) (by decide) hc⟩

/-- A number starts with a digit. -/
theorem IsPlainNumber.exists_head {text : List Char} (h : IsPlainNumber text) :
    ∃ c cs, text = c :: cs ∧ c.isDigit = true := by
  have hrun {digits : List Char} (hd : IsDigitRun digits) :
      ∃ c cs, digits = c :: cs ∧ c.isDigit = true := by
    obtain ⟨c, cs, rfl⟩ := List.exists_cons_of_ne_nil hd.1
    exact ⟨c, cs, rfl, hd.2 c (by simp)⟩
  cases h with
  | whole hd => exact hrun hd
  | fraction hd _ =>
    obtain ⟨c, cs, rfl, hc⟩ := hrun hd
    exact ⟨c, _, rfl, hc⟩

namespace Numeral

/-- A numeral without an exponent is the ratio of its digits to the places behind the point. -/
theorem value?_of_exponent_eq_zero {n : Numeral} (h : n.exponent = 0) :
    n.value? = Binary64.ofRatio? (Nat.ofDigitChars 10 n.digits 0) (10 ^ n.fraction.length) := by
  have hpower : n.power = -(n.fraction.length : Int) := by
    simp only [power, h]
    omega
  simp only [value?, coefficient, digitsValue_eq, hpower, Nat.pow_eq, Int.toNat_neg_natCast,
    pow_zero, Nat.mul_one, neg_neg, Int.toNat_natCast]

theorem ofText?_whole {digits : List Char} (h : IsDigitRun digits) :
    ofText? digits = some ⟨digits, [], 0⟩ := by
  have hcut := h.cut [] (by simp)
  rw [List.append_nil] at hcut
  simp [ofText?, hcut.1, hcut.2, h.1, exponent?]

theorem ofText?_fraction {digits places : List Char} (h : IsDigitRun digits)
    (hplaces : IsDigitRun places) :
    ofText? (digits ++ '.' :: places) = some ⟨digits, places, 0⟩ := by
  have hcut := h.cut ('.' :: places) (by simp)
  have hcut' := hplaces.cut [] (by simp)
  rw [List.append_nil] at hcut'
  simp [ofText?, hcut.1, hcut.2, hcut'.1, hcut'.2, h.1, exponent?]

end Numeral

namespace Decimal

/-- The places behind the point of a positional decimal. -/
theorem isDigitRun_leftpad (n width : Nat) :
    IsDigitRun ((Nat.toDigits 10 n).leftpad width '0') := by
  obtain ⟨hne, hdigits⟩ := isDigitRun_toDigits n
  refine ⟨by simp [List.leftpad, hne], fun c hc => ?_⟩
  rcases List.mem_append.mp hc with hzero | hdigit
  · rw [List.eq_of_mem_replicate hzero]
    decide
  · exact hdigits c hdigit

/-- The plain layout is digits with at most one point between them. -/
theorem isPlainNumber_positional (d : Decimal) : IsPlainNumber d.positional := by
  unfold positional
  split
  · exact .whole (isDigitRun_toDigits _)
  · exact .fraction (isDigitRun_toDigits _) (isDigitRun_leftpad _ _)

/-- Padding with zeros gives the digits below the point their places and keeps their value. -/
theorem ofDigitChars_point (c places : Nat) (h : 0 < places) :
    ((Nat.toDigits 10 (c % 10 ^ places)).leftpad places '0').length = places ∧
      Nat.ofDigitChars 10 (Nat.toDigits 10 (c / 10 ^ places) ++
        (Nat.toDigits 10 (c % 10 ^ places)).leftpad places '0') 0 = c := by
  have hlt : c % 10 ^ places < 10 ^ places := Nat.mod_lt _ (by positivity)
  have hlen := (Nat.length_toDigits_le_iff (by decide : 1 < 10) h).mpr hlt
  have hpad : ((Nat.toDigits 10 (c % 10 ^ places)).leftpad places '0').length = places := by
    rw [List.length_leftpad]
    omega
  refine ⟨hpad, ?_⟩
  rw [Nat.ofDigitChars_append, Nat.ofDigitChars_ten_toDigits,
    Nat.ofDigitChars_eq_ofDigitChars_zero, hpad, List.leftpad, Nat.ofDigitChars_append,
    Nat.ofDigitChars_replicate_zero, Nat.mul_zero, Nat.ofDigitChars_ten_toDigits]
  exact Nat.div_add_mod c _

/-- Reading the plain layout of a decimal rounds the ratio of that decimal. -/
theorem value?_positional (d : Decimal) :
    (Numeral.ofText? d.positional).bind Numeral.value? =
      Binary64.ofRatio? d.numerator d.denominator := by
  obtain ⟨c, e⟩ := d
  cases e with
  | ofNat zeros =>
    have hread : Numeral.ofText? (positional ⟨c, .ofNat zeros⟩) =
        some ⟨Nat.toDigits 10 (c * 10 ^ zeros), [], 0⟩ :=
      Numeral.ofText?_whole (isDigitRun_toDigits _)
    have hnum : numerator ⟨c, .ofNat zeros⟩ = c * 10 ^ zeros := by simp [numerator]
    have hden : denominator ⟨c, .ofNat zeros⟩ = 10 ^ 0 := by simp [denominator]
    rw [hread, Option.bind_some, Numeral.value?_of_exponent_eq_zero rfl, Numeral.digits,
      List.append_nil, Nat.ofDigitChars_ten_toDigits, List.length_nil, hnum, hden]
  | negSucc n =>
    obtain ⟨hpad, hvalue⟩ := ofDigitChars_point c (n + 1) (Nat.succ_pos n)
    have hread : Numeral.ofText? (positional ⟨c, .negSucc n⟩) =
        some ⟨Nat.toDigits 10 (c / 10 ^ (n + 1)),
          (Nat.toDigits 10 (c % 10 ^ (n + 1))).leftpad (n + 1) '0', 0⟩ :=
      Numeral.ofText?_fraction (isDigitRun_toDigits _) (isDigitRun_leftpad _ _)
    have hnum : numerator ⟨c, .negSucc n⟩ = c := by simp [numerator]
    have hden : denominator ⟨c, .negSucc n⟩ = 10 ^ (n + 1) := by simp [denominator]
    rw [hread, Option.bind_some, Numeral.value?_of_exponent_eq_zero rfl, Numeral.digits, hvalue,
      hpad, hnum, hden]

end Decimal

namespace Binary64

/-- The plain text of a finite number without a sign is the positional layout of its decimal. -/
theorem toList_plainText {x : Binary64} (hfinite : x.IsFinite) (hsign : x.negative = false) :
    x.plainText.toList = (shortest x.magnitude).positional := by
  have hdefined : ¬ x.IsUndefined := Nat.not_lt.mpr (Nat.le_of_lt hfinite)
  simp [plainText, textWith, hdefined, hfinite, hsign]

/-- A finite number without a sign is read back from its plain text, bit for bit. -/
theorem ofText?_plainText {x : Binary64} (hfinite : x.IsFinite) (hsign : x.negative = false) :
    ofText? x.plainText = some x := by
  have htext := toList_plainText hfinite hsign
  obtain ⟨c, cs, hhead, hc⟩ := (Decimal.isPlainNumber_positional (shortest x.magnitude)).exists_head
  rw [ofText?_of_isDigit (htext.trans hhead) hc, htext, Decimal.value?_positional, ofRatio?]
  have hnearest := nearest_shortest x.magnitude
  have hlt : nearest (shortest x.magnitude).numerator (shortest x.magnitude).denominator <
      infinity := by rwa [hnearest]
  rw [dif_pos hlt]
  exact congrArg some (ext_parts hsign.symm hnearest)

end Binary64
end Abacus
