/-!
# Sets of code points

A set of characters is a list of closed ranges of code points.

## Main definitions

* `inRanges`: membership in such a set.
-/

namespace PressRegister.Text

/-- Whether a code point lies in one of the closed ranges. -/
def inRanges (ranges : List (Nat × Nat)) (n : Nat) : Bool :=
  ranges.any fun r => r.1 ≤ n && n ≤ r.2

end PressRegister.Text
