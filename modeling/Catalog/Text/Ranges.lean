/-!
# Ranges of characters

A class of characters is given by the ranges of its code points, ends included. The ranges of a
table are in increasing order and disjoint, which membership does not depend on.
-/

namespace Catalog.Text

/-- A class of characters: the ranges of its code points, ends included. -/
abbrev Ranges := List (Nat × Nat)

/-- Whether a code point lies in one of the ranges. -/
def Ranges.contains (ranges : Ranges) (code : Nat) : Bool :=
  ranges.any fun r => decide (r.1 ≤ code) && decide (code ≤ r.2)

theorem Ranges.contains_iff {ranges : Ranges} {code : Nat} :
    ranges.contains code = true ↔ ∃ r ∈ ranges, r.1 ≤ code ∧ code ≤ r.2 := by
  simp [Ranges.contains]

end Catalog.Text
