import TypeExport.Data.IntegerRange
import TypeExport.Data.Node

/-!
# Numbers in JSON texts

`Json.number` reads a number. An integer that fits into 64 bits is kept as it is; `-0` and larger ones
are floating-point numbers, as are numbers with a fraction or an exponent. These are computed in
steps: the digits that fit into 64 bits, times or divided by a power of ten, each step rounded to
double precision. A number that is too large may be skipped, but not used.
-/

namespace TypeExport.Json

open Data

/-- The digits at the beginning of a text, and the rest. -/
def digits (cs : List Char) : List Char × List Char := cs.span Char.isDigit

/-- Adds digits to a number as long as it fits into 64 bits, and counts the digits that did not get
in. -/
def accumulate (n : Nat) : List Char → Nat × Nat
  | [] => (n, 0)
  | c :: cs =>
    let next := n * 10 + (c.toNat - 48)
    if next < UInt64.size then accumulate next cs else (n, cs.length + 1)

/-- `n · 10^e` in double precision, unless it is too large. `steps` bounds the divisions by `10^308`
that a very small number takes. -/
def scaled (n : Float) : Nat → Int → Option Float
  | 0, _ => some 0
  | steps + 1, e =>
    if e.natAbs ≤ 308 then
      let power := Float.ofScientific 1 false e.natAbs
      if 0 ≤ e then
        let x := n * power
        if x.isInf then none else some x
      else some (n / power)
    else if n == 0 then some n
    else if 0 ≤ e then none
    else scaled (n / 1e308) steps (e + 308)

/-- The floating-point number with the given digits and exponent. -/
def floatNode (negative : Bool) (n : Nat) (e : Int) : Node :=
  match scaled n.toUInt64.toFloat (e.natAbs / 308 + 2) e with
  | some x => .float (if negative then -x else x)
  | none => .refused .numberOutOfRange

/-- The value of an exponent's digits, if it is in the range of 32 bits. -/
def exponentValue? (ds : List Char) : Option Nat :=
  let e := ds.foldl (fun n c => min int32Bound (n * 10 + (c.toNat - 48))) 0
  if e < int32Bound then some e else none

/-- The sum of two exponents, kept within 32 bits. -/
def clampExponent (e : Int) : Int := max (-int32Bound) (min (int32Bound - 1) e)

/-- A number with a fraction or an exponent. -/
def realNode (negative : Bool) (n : Nat) (start : Int) : Option (Bool × List Char) → Node
  | none => floatNode negative n start
  | some (negativeExponent, ds) =>
    match exponentValue? ds with
    | some e => floatNode negative n (clampExponent (if negativeExponent then start - e else start + e))
    | none =>
      if n != 0 && !negativeExponent then .refused .numberOutOfRange
      else .float (if negative then -0.0 else 0.0)

/-- An integer. -/
def integerNode (negative : Bool) (n : Nat) : Node :=
  if !negative then .unsigned n
  else if 0 < n ∧ n ≤ int64Bound then .signed (-n)
  else .float (-n.toUInt64.toFloat)

/-- The value of a number's parts: the digits before the point, those after it, and the exponent with
its sign. -/
def numberNode (negative : Bool) (whole : List Char) (fraction : Option (List Char))
    (exponent : Option (Bool × List Char)) : Node :=
  let (n, dropped) := accumulate 0 whole
  match fraction with
  | some ds =>
    let (m, unused) := accumulate n ds
    realNode negative m (dropped - (ds.length - unused : Nat)) exponent
  | none =>
    if exponent.isNone && dropped == 0 then integerNode negative n
    else realNode negative n dropped exponent

/-- A text that breaks off in a number, where the first reader tells an end of the text apart. -/
def brokenNumber (rest : List Char) : Node :=
  .broken (if rest.isEmpty then .endInValue else .badNumber) .badNumber

/-- The exponent of a number, if one follows. -/
def exponentPart (cs : List Char) : Except Node (Option (Bool × List Char) × List Char) :=
  match cs with
  | c :: rest =>
    if c = 'e' ∨ c = 'E' then
      let (negative, rest) := match rest with
        | '-' :: rest => (true, rest)
        | '+' :: rest => (false, rest)
        | rest => (false, rest)
      match digits rest with
      | ([], rest) => .error (brokenNumber rest)
      | (ds, rest) => .ok (some (negative, ds), rest)
    else .ok (none, cs)
  | [] => .ok (none, cs)

/-- The fraction of a number, if one follows. -/
def fractionPart (cs : List Char) : Except Node (Option (List Char) × List Char) :=
  match cs with
  | '.' :: rest => match digits rest with
    | ([], rest) => .error (brokenNumber rest)
    | (ds, rest) => .ok (some ds, rest)
  | cs => .ok (none, cs)

/-- The digits before the point: a zero, or digits that do not begin with one. -/
def wholePart (cs : List Char) : Except Node (List Char × List Char) :=
  match digits cs with
  | ([], rest) => .error (brokenNumber rest)
  | (['0'], rest) => .ok (['0'], rest)
  | ('0' :: _, _) => .error (.broken .badNumber .badNumber)
  | (ds, rest) => .ok (ds, rest)

/-- The parts of a number after its sign. -/
def numberParts (negative : Bool) (cs : List Char) : Except Node (Node × List Char) := do
  let (whole, rest) ← wholePart cs
  let (fraction, rest) ← fractionPart rest
  let (exponent, rest) ← exponentPart rest
  .ok (numberNode negative whole fraction exponent, rest)

/-- Reads a number. There is no rest where the text breaks off. -/
def number (cs : List Char) : Node × Option (List Char) :=
  let parts := match cs with
    | '-' :: rest => numberParts true rest
    | cs => numberParts false cs
  match parts with
  | .ok (n, rest) => (n, some rest)
  | .error n => (n, none)

end TypeExport.Json
