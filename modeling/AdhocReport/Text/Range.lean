set_option autoImplicit false

/-!
# Text: ranges of code points

Character properties beyond ASCII are lists of closed ranges, ascending and apart.
-/

namespace AdhocReport.Text

/-- The code point lies in one of the closed ranges. -/
def inRanges (ranges : List (Nat × Nat)) (n : Nat) : Bool :=
  ranges.any fun r => r.1 ≤ n && n ≤ r.2

end AdhocReport.Text
