import TypeExport.Data.IntegerRange
import TypeExport.Decimal.Shortest

/-!
# Texts of floating-point numbers

`FloatFormat.text` writes a double-precision number with the fewest digits that read back. The format
says which exponents of ten are written positionally; a positional number always has a point.
-/

namespace TypeExport

/-- How floating-point numbers are written. -/
structure FloatFormat where
  /-- The least exponent of the first digit that is written positionally, if there is a limit. -/
  least : Option Int
  /-- The greatest one. -/
  greatest : Option Int

namespace FloatFormat

def isPositional (f : FloatFormat) (lead : Int) : Bool :=
  (f.least.all fun l => l ≤ lead) && f.greatest.all fun g => lead ≤ g

/-- Digits with the point after the first `lead + 1` of them. -/
def positional (digits : List Char) (lead : Int) : List Char :=
  if lead < 0 then ['0', '.'] ++ List.replicate (-lead - 1).toNat '0' ++ digits
  else
    let whole := lead.toNat + 1
    let tail := digits.drop whole
    digits.take whole ++ List.replicate (whole - digits.length) '0' ++ ['.'] ++
      if tail.isEmpty then ['0'] else tail

/-- Digits with the point after the first one, and an exponent of at least two digits. -/
def scientific (digits : List Char) (lead : Int) : List Char :=
  let exponent := Nat.toDigits 10 lead.natAbs
  digits.take 1 ++ (if digits.length ≤ 1 then [] else '.' :: digits.drop 1) ++
    ['e', if lead < 0 then '-' else '+'] ++
    (if exponent.length < 2 then '0' :: exponent else exponent)

/-- The digits of a number without the zeros at its end, and how many those were. -/
def significant (n : Nat) : List Char × Nat :=
  let all := Nat.toDigits 10 n
  let digits := (all.reverse.dropWhile (· == '0')).reverse
  (digits, all.length - digits.length)

/-- The text of `m · 2^e`. -/
def magnitude (f : FloatFormat) (m : Nat) (e : Int) : List Char :=
  if m = 0 then ['0', '.', '0']
  else
    let (n, k) := Decimal.shortest m e
    let (digits, zeros) := significant n
    let lead := k + zeros + digits.length - 1
    if f.isPositional lead then positional digits lead else scientific digits lead

/-- The text of a number. -/
def text (f : FloatFormat) (x : Float) : String :=
  let bits : Nat := x.toBits.toNat
  let sign : List Char := if int64Bound ≤ bits then ['-'] else []
  let biased : Nat := bits / Decimal.leastMantissa % 2048
  let fraction : Nat := bits % Decimal.leastMantissa
  String.ofList <|
    if biased = 2047 then
      if fraction = 0 then sign ++ ['i', 'n', 'f'] else ['N', 'a', 'N']
    else if biased = 0 then sign ++ f.magnitude fraction (-1074)
    else sign ++ f.magnitude (Decimal.leastMantissa + fraction) ((biased : Int) - 1075)

end FloatFormat

end TypeExport
