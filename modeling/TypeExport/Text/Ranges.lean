/-!
# Classes of characters given by ranges of code points
-/

namespace Char

/-- The character's code point lies in one of the inclusive ranges. -/
def inRanges (c : Char) (ranges : List (Nat × Nat)) : Bool :=
  ranges.any fun r => r.1 ≤ c.toNat && c.toNat ≤ r.2

end Char
