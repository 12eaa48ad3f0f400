import TypeExport.Data.IntegerRange
import TypeExport.Data.Node
import TypeExport.Toml.Text

/-!
# Numbers and dates in TOML texts

`Toml.scalar` reads a date, a time, a floating-point number or an integer. Integers have 64 bits. A
date is a map with one entry, which no record has.
-/

namespace TypeExport.Toml

open Data

/-! ## Digits -/

/-- The digits that follow a digit. A single underscore may stand between two digits. -/
def moreDigits (p : Char → Bool) : Reader (List Char)
  | [] => some ([], [])
  | ['_'] => none
  | '_' :: c :: rest =>
    if p c then (moreDigits p rest).map fun (ds, rest) => (c :: ds, rest) else none
  | c :: rest =>
    if p c then (moreDigits p rest).map fun (ds, rest) => (c :: ds, rest) else some ([], c :: rest)

/-- Digits of a class, at least one. -/
def someDigits (p : Char → Bool) : Reader (List Char)
  | [] => none
  | c :: rest =>
    if p c then (moreDigits p rest).map fun (ds, rest) => (c :: ds, rest) else none

/-- A zero, or digits that do not begin with one. -/
def wholeDigits : Reader (List Char)
  | '0' :: rest => some (['0'], rest)
  | cs => someDigits Char.isDigit cs

/-- The value of digits. -/
def digitsValue (base : Nat) (ds : List Char) : Nat :=
  ds.foldl (fun n c => n * base + (Text.hexDigit? c).getD 0) 0

def isHexDigit (c : Char) : Bool := (Text.hexDigit? c).isSome

/-! ## Numbers -/

/-- The sign before a number, if there is one. -/
def sign : List Char → Bool × List Char
  | '-' :: rest => (true, rest)
  | '+' :: rest => (false, rest)
  | cs => (false, cs)

/-- An integer of 64 bits. -/
def integer? (i : Int) : Option Node :=
  if isInt64 i then some (.signed i) else none

/-- An integer to a base other than ten, after its mark. -/
def basedInteger (base : Nat) (p : Char → Bool) : Reader Node := fun cs => do
  let (ds, rest) ← someDigits p cs
  some (← integer? (digitsValue base ds), rest)

/-- The digits after the point, if there is one. -/
def fraction : Reader (List Char)
  | '.' :: rest => someDigits Char.isDigit rest
  | cs => some ([], cs)

/-- The exponent, if there is one. -/
def exponent (cs : List Char) : Option (Int × List Char) :=
  match cs with
  | c :: rest =>
    if c = 'e' ∨ c = 'E' then do
      let (negative, rest) := sign rest
      let (ds, rest) ← someDigits Char.isDigit rest
      let e : Int := digitsValue 10 ds
      some (if negative then -e else e, rest)
    else some (0, cs)
  | [] => some (0, cs)

/-- The number `n · 10^e` in double precision. -/
def double (n : Nat) (e : Int) : Float :=
  let lead : Int := (Nat.toDigits 10 n).length + e
  if n = 0 ∨ lead < -400 then 0
  else if 400 < lead then 1 / 0
  else Float.ofScientific n (e < 0) e.natAbs

/-- A number to base ten. Only a negative one may be too large for double precision. -/
def decimal (cs : List Char) : Option (Node × List Char) := do
  let (negative, cs) := sign cs
  let (whole, afterWhole) ← wholeDigits cs
  let (places, afterPlaces) ← fraction afterWhole
  let (e, rest) ← exponent afterPlaces
  if rest.length = afterWhole.length then
    let n : Int := digitsValue 10 whole
    some (← integer? (if negative then -n else n), rest)
  else
    let x := double (digitsValue 10 (whole ++ places)) (e - places.length)
    if negative then some (.float (-x), rest)
    else if x.isInf then none
    else some (.float x, rest)

/-- A number that is given by a word. -/
def special (cs : List Char) : Option (Node × List Char) :=
  match sign cs with
  | (negative, 'i' :: 'n' :: 'f' :: rest) =>
    some (.float (if negative then -(1 / 0) else 1 / 0), rest)
  | (_, 'n' :: 'a' :: 'n' :: rest) => some (.float (0 / 0), rest)
  | _ => none

def number (cs : List Char) : Option (Node × List Char) :=
  match cs with
  | '0' :: 'x' :: rest => basedInteger 16 isHexDigit rest
  | '0' :: 'o' :: rest => basedInteger 8 (fun c => '0' ≤ c ∧ c ≤ '7') rest
  | '0' :: 'b' :: rest => basedInteger 2 (fun c => c == '0' || c == '1') rest
  | cs => (special cs).or (decimal cs)

/-! ## Dates and times -/

/-- A number of `k` digits. -/
def fixedDigits (k : Nat) : Reader Nat := fun cs =>
  let ds := cs.take k
  if ds.length = k ∧ ds.all Char.isDigit then some (digitsValue 10 ds, cs.drop k) else none

/-- A number of two digits in a range. -/
def pair (least greatest : Nat) : Reader Nat := fun cs => do
  let (n, rest) ← fixedDigits 2 cs
  if least ≤ n ∧ n ≤ greatest then some (n, rest) else none

def mark (c : Char) : Reader Unit
  | d :: rest => if c = d then some ((), rest) else none
  | [] => none

/-- The number of days in a month. -/
def monthLength (year month : Nat) : Nat :=
  if month = 2 then
    if year % 4 = 0 ∧ (year % 100 ≠ 0 ∨ year % 400 = 0) then 29 else 28
  else if month = 4 ∨ month = 6 ∨ month = 9 ∨ month = 11 then 30
  else 31

/-- The month and the day after a year. -/
def dayOf (year : Nat) : Reader Unit := fun cs => do
  let (month, cs) ← pair 1 12 cs
  let (_, cs) ← mark '-' cs
  let (_, cs) ← pair 1 (monthLength year month) cs
  some ((), cs)

/-- The parts of a second, if there are any. -/
def skipSecondParts : List Char → List Char
  | '.' :: c :: rest => if c.isDigit then rest.dropWhile Char.isDigit else '.' :: c :: rest
  | cs => cs

/-- The minutes and seconds after an hour and its mark. -/
def minutes : Reader Unit := fun cs => do
  let (_, cs) ← pair 0 59 cs
  let (_, cs) ← mark ':' cs
  let (_, cs) ← pair 0 60 cs
  some ((), skipSecondParts cs)

/-- The distance from universal time, if it is given. -/
def offset : Reader Unit
  | [] => some ((), [])
  | c :: rest =>
    if c = 'Z' ∨ c = 'z' then some ((), rest)
    else if c = '+' ∨ c = '-' then do
      let (_, rest) ← pair 0 23 rest
      let (_, rest) ← mark ':' rest
      let (_, rest) ← pair 0 59 rest
      some ((), rest)
    else some ((), c :: rest)

/-- The hour of a time and its mark. -/
def hour : Reader Unit := fun cs => do
  let (_, cs) ← pair 0 23 cs
  mark ':' cs

/-- The time after a date, if one follows. -/
def timeOfDay (cs : List Char) : Option (Unit × List Char) :=
  match cs with
  | c :: rest =>
    if c = 'T' ∨ c = 't' ∨ c = ' ' then
      match hour rest with
      | some (_, rest) => do
        let (_, rest) ← minutes rest
        offset rest
      | none => some ((), cs)
    else some ((), cs)
  | [] => some ((), cs)

/-- The year of a date and its mark. -/
def year : Reader Nat := fun cs => do
  let (y, cs) ← fixedDigits 4 cs
  let (_, cs) ← mark '-' cs
  some (y, cs)

/-- The node of a date or a time with the given text. -/
def moment (text : List Char) : Node :=
  .map [(.ok "$__toml_private_datetime", .text (String.ofList text))]

/-- A date or a time, once the beginning of `cs` shows one. -/
def momentOf (cs : List Char) (rest : Option (Unit × List Char)) : Option (Node × List Char) :=
  rest.map fun (_, rest) => (moment (cs.take (cs.length - rest.length)), rest)

/-- A date, a time or a number. -/
def scalar (cs : List Char) : Option (Node × List Char) :=
  match year cs, hour cs with
  | some (y, rest), _ => momentOf cs ((dayOf y rest).bind fun (_, rest) => timeOfDay rest)
  | none, some (_, rest) => momentOf cs (minutes rest)
  | none, none => number cs

end TypeExport.Toml
