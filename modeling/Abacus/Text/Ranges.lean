/-!
# Sets of code points as ranges

A character class is a list of closed ranges of code points in increasing order. Membership stops at
the first range that begins above the code point, so that characters low in the table are found at
once.
-/

namespace Abacus.Text

/-- Closed ranges of code points, in increasing order. -/
abbrev Ranges := List (Nat × Nat)

/-- Whether a code point lies in one of the ranges. -/
def Ranges.contains : Ranges → Nat → Bool
  | [], _ => false
  | (low, high) :: rest, n => low ≤ n && (n ≤ high || Ranges.contains rest n)

/-- A code point that is found lies between the ends of some range. -/
theorem Ranges.exists_of_contains {ranges : Ranges} {n : Nat} (h : ranges.contains n = true) :
    ∃ r ∈ ranges, r.1 ≤ n ∧ n ≤ r.2 := by
  induction ranges with
  | nil => simp [Ranges.contains] at h
  | cons r rest ih =>
    obtain ⟨low, high⟩ := r
    simp only [Ranges.contains, Bool.and_eq_true, Bool.or_eq_true, decide_eq_true_eq] at h
    obtain ⟨hlow, hhigh | hrest⟩ := h
    · exact ⟨(low, high), by simp, hlow, hhigh⟩
    · obtain ⟨r, hr, hb⟩ := ih hrest
      exact ⟨r, List.mem_cons_of_mem _ hr, hb⟩

end Abacus.Text
