/-!
# Shortest decimals of binary fractions

A double-precision number is `m · 2^e` for integers `m` and `e`. `Decimal.shortest` finds, among the
decimals that round to it, one with the fewest digits, and of those the nearest one.

The reals that round to `m · 2^e` form an interval, whose ends belong to it if `m` is even. For each
number of digits the search tests the two neighbours of the value on that decimal grid; if any point
of the grid lies in the interval, one of the two does.
-/

namespace TypeExport.Decimal

/-- A nonnegative fraction. -/
structure Ratio where
  num : Nat
  den : Nat

namespace Ratio

/-- The fraction times a power of ten. -/
def scale (r : Ratio) (e : Int) : Ratio :=
  if 0 ≤ e then ⟨r.num * Nat.pow 10 e.toNat, r.den⟩ else ⟨r.num, r.den * Nat.pow 10 (-e).toNat⟩

/-- `m · 2^e`. -/
def ofBinary (m : Nat) (e : Int) : Ratio :=
  if 0 ≤ e then ⟨m * Nat.pow 2 e.toNat, 1⟩ else ⟨m, Nat.pow 2 (-e).toNat⟩

def lt (a b : Ratio) : Bool := a.num * b.den < b.num * a.den

end Ratio

/-- The least mantissa of a number with full precision. A mantissa has 53 bits. -/
def leastMantissa : Nat := 0x10000000000000

/-- The reals that round to a double-precision number. -/
structure Interval where
  value : Ratio
  low : Ratio
  high : Ratio
  closed : Bool

namespace Interval

/-- The interval of `m · 2^e`. Below the least mantissa of an exponent the numbers lie twice as
close, so the interval ends a quarter below instead of half. -/
def of (m : Nat) (e : Int) : Interval where
  value := .ofBinary m e
  low := if m = leastMantissa ∧ -1074 < e then .ofBinary (4 * m - 1) (e - 2)
    else .ofBinary (2 * m - 1) (e - 1)
  high := .ofBinary (2 * m + 1) (e - 1)
  closed := m % 2 == 0

def contains (i : Interval) (x : Ratio) : Bool :=
  if i.closed then !x.lt i.low && !i.high.lt x else i.low.lt x && x.lt i.high

/-- The point of the grid of multiples of `10^e` in the interval that is nearest to the value. Of two
equally near ones it is the even one. -/
def nearest? (i : Interval) (e : Int) : Option Nat :=
  let v := i.value.scale (-e)
  let below := v.num / v.den
  let point (n : Nat) : Ratio := (Ratio.mk n 1).scale e
  let twice := 2 * (v.num % v.den)
  match i.contains (point below) && below != 0, i.contains (point (below + 1)) with
  | true, true =>
    if twice < v.den || (twice == v.den && below % 2 == 0) then some below else some (below + 1)
  | true, false => some below
  | false, true => some (below + 1)
  | false, false => none

end Interval

/-- The exponent of the first digit, found by steps of one. -/
def leadExponent (r : Ratio) : Nat → Int → Int
  | 0, e => e
  | fuel + 1, e =>
    if (r.scale (-e)).lt ⟨1, 1⟩ then leadExponent r fuel (e - 1)
    else if (r.scale (-e)).lt ⟨10, 1⟩ then e
    else leadExponent r fuel (e + 1)

/-- Tries grids of more and more digits. -/
def search (i : Interval) (lead : Int) : Nat → Nat → Nat × Int
  | 0, digits => ((i.value.scale (digits - 1 - lead)).num, lead - digits + 1)
  | fuel + 1, digits =>
    match i.nearest? (lead - digits + 1) with
    | some n => (n, lead - digits + 1)
    | none => search i lead fuel (digits + 1)

/-- The shortest decimal `n · 10^k` that rounds to `m · 2^e`, for `0 < m`. -/
def shortest (m : Nat) (e : Int) : Nat × Int :=
  let i := Interval.of m e
  search i (leadExponent i.value 700 0) 17 1

end TypeExport.Decimal
