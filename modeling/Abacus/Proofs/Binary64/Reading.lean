import Abacus.Binary64.Numeral

/-!
# Literals

A literal meets three conditions: its text starts with a digit, the text denotes a number, and the
number is finite. Behind a digit at the start there is neither a sign nor a word, so that together
the conditions ask for a numeral whose value is not too large.
-/

namespace Abacus

namespace Binary64

/-- The number without a sign that is nearest to a ratio, unless the ratio is too large. -/
def ofRatio? (num den : Nat) : Option Binary64 :=
  if h : nearest num den < infinity then some ⟨false, nearest num den, Nat.lt_trans h infinity_lt⟩
  else none

/-- Rounding to finite numbers gives the finite ones among all rounded numbers. -/
theorem finite?_ofRatio (num den : Nat) :
    (ofRatio false num den).finite? = ofRatio? num den := by
  have hiff : (ofRatio false num den).IsFinite ↔ nearest num den < infinity := by
    simp only [IsFinite, ofRatio]
    omega
  by_cases h : nearest num den < infinity
  · rw [finite?, ofRatio?, dif_pos h, if_pos (hiff.mpr h)]
    exact congrArg some (ext_parts rfl (Nat.min_eq_left (Nat.le_of_lt h)))
  · rw [finite?, ofRatio?, dif_neg h, if_neg fun hfinite => h (hiff.mp hfinite)]

/-- Rounding to finite numbers gives finite numbers without a sign. -/
theorem isFinite_of_ofRatio? {num den : Nat} {x : Binary64} (h : ofRatio? num den = some x) :
    x.IsFinite ∧ x.negative = false := by
  unfold ofRatio? at h
  split at h
  · next hlt => cases h; exact ⟨hlt, rfl⟩
  · cases h

end Binary64

namespace Numeral

/-- The number that a numeral denotes, unless it is too large. -/
def value? (n : Numeral) : Option Binary64 :=
  Binary64.ofRatio? (n.coefficient * Nat.pow 10 n.power.toNat) (Nat.pow 10 (-n.power).toNat)

theorem finite?_value (n : Numeral) : (n.value false).finite? = n.value? :=
  Binary64.finite?_ofRatio _ _

end Numeral

namespace Binary64

section Digit

variable {c : Char}

/-- A digit is no sign. -/
theorem cutSign_of_isDigit (hc : c.isDigit = true) (cs : List Char) :
    cutSign (c :: cs) = (false, c :: cs) := by
  unfold cutSign
  split
  · next heq => cases heq; exact absurd hc (by decide)
  · next heq => cases heq; exact absurd hc (by decide)
  · rfl

/-- No word for what is not finite starts with a digit. -/
theorem ofWord?_of_isDigit (hc : c.isDigit = true) (cs : List Char) (negative : Bool) :
    ofWord? negative (c.toLower :: cs.map Char.toLower) = none := by
  have hlower : c.toLower = c := by
    refine dif_neg fun hupper => ?_
    have hdigit : c.toNat ≤ 57 := (Char.isDigit_iff_toNat.mp hc).2
    have hletter : 65 ≤ c.toNat := hupper.1
    omega
  have hi : c ≠ 'i' := by rintro rfl; exact absurd hc (by decide)
  have hn : c ≠ 'n' := by rintro rfl; exact absurd hc (by decide)
  simp [ofWord?, hlower, hi, hn]

end Digit

/-- The three conditions on a literal. -/
theorem ofText?_eq_some_iff {text : String} {x : Binary64} :
    ofText? text = some x ↔
      (∃ c ∈ text.toList.head?, c.isDigit = true) ∧ parse? text = some x ∧ x.IsFinite := by
  have hfinite (y : Binary64) : y.finite? = some x ↔ x.IsFinite ∧ y = x := by
    unfold finite?
    split
    · next hy => exact ⟨fun h => ⟨Option.some.inj h ▸ hy, Option.some.inj h⟩, fun h => h.2 ▸ rfl⟩
    · next hy => exact iff_of_false nofun fun h => hy (h.2 ▸ h.1)
  have hdigit : text.toList.head?.any Char.isDigit = true ↔
      ∃ c ∈ text.toList.head?, c.isDigit = true := Option.any_eq_true _ _
  rw [← hdigit, ofText?]
  split
  · next hhead => simp [hhead, hfinite, Option.bind_eq_some_iff]
  · next hhead => simp [hhead]

/-- A text that starts with a digit denotes a number exactly if it is a numeral. -/
theorem parse?_of_isDigit {text : String} {c : Char} {cs : List Char}
    (htext : text.toList = c :: cs) (hc : c.isDigit = true) :
    parse? text = (Numeral.ofText? text.toList).map (Numeral.value false) := by
  simp only [parse?, htext, cutSign_of_isDigit hc]
  cases Numeral.ofText? (c :: cs) with
  | none => exact ofWord?_of_isDigit hc cs false
  | some n => rfl

/-- A text that starts with a digit is a literal exactly if it is a numeral whose value is not too
large. -/
theorem ofText?_of_isDigit {text : String} {c : Char} {cs : List Char}
    (htext : text.toList = c :: cs) (hc : c.isDigit = true) :
    ofText? text = (Numeral.ofText? text.toList).bind Numeral.value? := by
  have hhead : text.toList.head?.any Char.isDigit = true := by simp [htext, hc]
  rw [ofText?, if_pos hhead, parse?_of_isDigit htext hc]
  cases Numeral.ofText? text.toList with
  | none => rfl
  | some n => rw [Option.map_some, Option.bind_some, Option.bind_some, n.finite?_value]

/-- Literals denote finite numbers without a sign. -/
theorem isFinite_of_ofText? {text : String} {x : Binary64} (h : ofText? text = some x) :
    x.IsFinite ∧ x.negative = false := by
  obtain ⟨c, hhead, hc⟩ := (ofText?_eq_some_iff.mp h).1
  obtain ⟨cs, htext⟩ := List.head?_eq_some_iff.mp hhead
  rw [ofText?_of_isDigit htext hc] at h
  obtain ⟨n, -, hx⟩ := Option.bind_eq_some_iff.mp h
  exact isFinite_of_ofRatio? hx

end Binary64
end Abacus
