/-!
Sets of code points as closed ranges, in ascending order and apart.  The search for a code point
ends at the first range that does not lie below it.  Main statement: in ascending ranges it finds
the members and nothing else (`covers_iff`).
-/
namespace SortClause.Text

/-- Closed ranges of code points. -/
abbrev Ranges := List (Nat × Nat)

namespace Ranges

/-- The first range that does not lie below `n` holds it. -/
def covers : Ranges → Nat → Bool
  | [], _ => false
  | (lo, hi) :: rs, n => if n ≤ hi then lo ≤ n else covers rs n

/-- No range starts below `b` or is empty, and each ends before the next, with a gap. -/
def ascendingFrom : Nat → Ranges → Bool
  | _, [] => true
  | b, (lo, hi) :: rs => b ≤ lo && lo ≤ hi && ascendingFrom (hi + 2) rs

/-! ### Membership -/

theorem le_of_ascendingFrom {b : Nat} {rs : Ranges} (h : ascendingFrom b rs = true) :
    ∀ r ∈ rs, b ≤ r.1 := by
  induction rs generalizing b with
  | nil => simp
  | cons r rs ih =>
    simp only [ascendingFrom, Bool.and_eq_true, decide_eq_true_eq] at h
    intro s hs
    rcases List.mem_cons.1 hs with rfl | hs
    · exact h.1.1
    · have := ih h.2 s hs
      omega

/-- In ascending ranges the search finds the members and nothing else. -/
theorem covers_iff {b : Nat} {rs : Ranges} (h : ascendingFrom b rs = true) {n : Nat} :
    rs.covers n = true ↔ ∃ r ∈ rs, r.1 ≤ n ∧ n ≤ r.2 := by
  induction rs generalizing b with
  | nil => simp [covers]
  | cons r rs ih =>
    simp only [ascendingFrom, Bool.and_eq_true, decide_eq_true_eq] at h
    by_cases hn : n ≤ r.2
    · have later : ¬∃ s ∈ rs, s.1 ≤ n ∧ n ≤ s.2 := fun ⟨s, hs, hsn, _⟩ => by
        have := le_of_ascendingFrom h.2 s hs
        omega
      simp [covers, hn, later]
    · simp [covers, hn, ih h.2]

end Ranges
end SortClause.Text
