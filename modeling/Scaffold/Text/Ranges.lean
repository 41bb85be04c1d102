/-!
# Sets of code points

The character classes of Unicode are long unions of intervals.  `Ranges` holds one as a list of
closed intervals in ascending order, and `Ranges.contains` stops at the first interval that lies
above the number it looks for.
-/

namespace Scaffold

/-- Closed intervals of numbers, disjoint and in ascending order. -/
abbrev Ranges := List (Nat × Nat)

namespace Ranges

/-- `n` lies in one of the intervals. -/
def contains : Ranges → Nat → Bool
  | [], _ => false
  | (lo, hi) :: rest, n => if n < lo then false else n ≤ hi || contains rest n

/-- Each interval is non-empty and ends before the next one begins. -/
def Ascending : Ranges → Prop
  | [] => True
  | [(lo, hi)] => lo ≤ hi
  | (lo, hi) :: (lo', hi') :: rest => lo ≤ hi ∧ hi < lo' ∧ Ascending ((lo', hi') :: rest)

theorem mem_of_contains {r : Ranges} {n : Nat} (h : r.contains n = true) :
    ∃ i ∈ r, i.1 ≤ n ∧ n ≤ i.2 := by
  induction r with
  | nil => simp [contains] at h
  | cons i r ih =>
    obtain ⟨lo, hi⟩ := i
    simp only [contains] at h
    split at h
    · simp at h
    · rename_i hlo
      rcases Bool.or_eq_true_iff.1 h with h | h
      · exact ⟨(lo, hi), by simp, by omega, by simpa using h⟩
      · obtain ⟨i, hi, h⟩ := ih h
        exact ⟨i, by simp [hi], h⟩

end Ranges

end Scaffold
