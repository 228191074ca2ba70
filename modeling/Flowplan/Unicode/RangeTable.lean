namespace Flowplan.Unicode

/-- A set of code points as inclusive ranges. -/
structure RangeTable where
  ranges : List (Nat × Nat)

namespace RangeTable

def contains (t : RangeTable) (n : Nat) : Bool :=
  t.ranges.any fun r => r.1 ≤ n && n ≤ r.2

theorem contains_iff {t : RangeTable} {n : Nat} :
    t.contains n = true ↔ ∃ r ∈ t.ranges, r.1 ≤ n ∧ n ≤ r.2 := by
  simp [contains]

end RangeTable
end Flowplan.Unicode
