/-!
# Bounds of integers

The integers of 32 and of 64 bits with a sign go from minus a bound to below it. The bounds are numerals
and not powers of two, so that they are the same terms with Mathlib as without.
-/

namespace TypeExport

/-- Half of the number of integers of 32 bits. -/
def int32Bound : Nat := 0x80000000

/-- Half of the number of integers of 64 bits. -/
def int64Bound : Nat := 0x8000000000000000

/-- The number has a representation with a sign in 64 bits. -/
def isInt64 (i : Int) : Bool := -(int64Bound : Int) ≤ i && i < int64Bound

end TypeExport
