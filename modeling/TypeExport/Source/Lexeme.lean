import TypeExport.Source.Token
import TypeExport.Text.Blank
import TypeExport.Text.HexDigit
import TypeExport.Text.Identifier

/-!
# Words and literals of source files

Readers of identifiers, numbers, strings and characters at the beginning of a text. A reader gives
what it read and the rest, or nothing.
-/

namespace TypeExport.Source

/-- A reader of something at the beginning of a text. -/
abbrev Reader (α : Type) := List Char → Option (α × List Char)

/-- The text after a given beginning. -/
def after? (lead : List Char) (cs : List Char) : Option (List Char) := lead.isPrefixOf? cs

/-! ## Identifiers -/

/-- An identifier without a mark. -/
def identifier : Reader (List Char)
  | c :: cs =>
    if Text.isIdentStart c then
      some (c :: cs.takeWhile Text.isIdentContinue, cs.dropWhile Text.isIdentContinue)
    else none
  | [] => none

/-- The words that have no raw form. -/
def neverRaw : List String := ["_", "super", "self", "Self", "crate"]

/-- An identifier, raw or not. -/
def anyIdentifier (cs : List Char) : Option (List Char × List Char) :=
  match cs with
  | 'r' :: '#' :: rest => do
    let (name, rest) ← identifier rest
    if neverRaw.contains (String.ofList name) then none else some ('r' :: '#' :: name, rest)
  | cs => identifier cs

/-- The beginnings of literals, with which no identifier begins. -/
def literalStarts : List (List Char) :=
  [['r', '"'], ['r', '#', '"'], ['r', '#', '#'], ['b', '"'], ['b', '\''], ['b', 'r', '"'],
    ['b', 'r', '#'], ['c', '"'], ['c', 'r', '"'], ['c', 'r', '#']]

/-- An identifier as a token. -/
def word (cs : List Char) : Option (List Char × List Char) :=
  if literalStarts.any fun s => s.isPrefixOf cs then none else anyIdentifier cs

/-- The suffix of a literal, if there is one. -/
def suffix (cs : List Char) : List Char × List Char := (identifier cs).getD ([], cs)

/-! ## Numbers -/

/-- The end of a number: its suffix, after which no identifier may go on. -/
def numberEnd (cs : List Char) : Option (List Char × List Char) :=
  match suffix cs with
  | (_, c :: rest) => if Text.isIdentContinue c then none else some ((suffix cs).1, c :: rest)
  | (s, []) => some (s, [])

/-- The digits of a number with at most one point. A point that begins something else than a fraction
makes it no such number. The flag says whether there is a point. -/
def mantissa (hasPoint : Bool) : List Char → Option (Bool × List Char)
  | [] => some (hasPoint, [])
  | c :: cs =>
    if c.isDigit || c == '_' then mantissa hasPoint cs
    else if c == '.' && !hasPoint then
      match cs with
      | d :: _ => if d == '.' || Text.isIdentStart d then none else mantissa true cs
      | [] => some (true, [])
    else some (hasPoint, c :: cs)

/-- What follows the mark of an exponent, if it is one: a sign and digits. -/
def exponent (hasSign hasDigit : Bool) : List Char → Option (List Char)
  | [] => if hasDigit then some [] else none
  | c :: cs =>
    if c.isDigit then exponent hasSign true cs
    else if c == '_' then exponent hasSign hasDigit cs
    else if (c == '+' || c == '-') && !hasDigit then
      if hasSign then none else exponent true false cs
    else if hasDigit then some (c :: cs) else none

/-- The text after the digits of a floating-point number, which has a point or an exponent. -/
def floatDigits (cs : List Char) : Option (List Char) := do
  let (hasPoint, rest) ← mantissa false cs
  match rest with
  | c :: after =>
    if c = 'e' ∨ c = 'E' then
      match exponent false false after with
      | some rest => some rest
      | none => if hasPoint then some rest else none
    else if hasPoint then some rest else none
  | [] => if hasPoint then some [] else none

def float : Reader Literal
  | c :: cs =>
    if c.isDigit then do
      let (_, rest) ← numberEnd (← floatDigits (c :: cs))
      some (.float (String.ofList ((c :: cs).take ((c :: cs).length - rest.length))), rest)
    else none
  | [] => none

/-- The base that the beginning of a number marks. -/
def numberBase : List Char → Nat × List Char
  | '0' :: 'x' :: cs => (16, cs)
  | '0' :: 'o' :: cs => (8, cs)
  | '0' :: 'b' :: cs => (2, cs)
  | cs => (10, cs)

/-- The value of digits. A decimal digit that is too large for the base makes it no number, a letter
ends it. -/
def integerDigits (base : Nat) (value : Option Nat) : List Char → Option (Nat × List Char)
  | [] => value.map fun n => (n, [])
  | c :: cs =>
    if c = '_' then
      if value.isNone ∧ base = 10 then none else integerDigits base value cs
    else
      match Text.hexDigit? c with
      | some d =>
        if d < base then integerDigits base (some (value.getD 0 * base + d)) cs
        else if c.isDigit then none
        else value.map fun n => (n, c :: cs)
      | none => value.map fun n => (n, c :: cs)

def integer : Reader Literal := fun cs => do
  let (base, rest) := numberBase cs
  let (n, rest) ← integerDigits base none rest
  let (s, rest) ← numberEnd rest
  some (.integer n (String.ofList s), rest)

/-! ## Strings and characters -/

/-- The kinds of strings. They differ in the escapes and characters that they take. -/
inductive StringKind where
  | text
  | bytes
  /-- Text without the character NUL. -/
  | terminated
  deriving DecidableEq

namespace StringKind

/-- The character of an escape by two digits to base sixteen. -/
def byteEscape (k : StringKind) (a b : Char) : Option Char := do
  let n := (← Text.hexDigit? a) * 16 + (← Text.hexDigit? b)
  match k with
  | .text => if n < 128 then some (Char.ofNat n) else none
  | .bytes => some (Char.ofNat n)
  | .terminated => if n = 0 then none else some (Char.ofNat n)

/-- The character of an escape by a single letter. -/
def shortEscape (k : StringKind) : Char → Option Char
  | 'n' => some '\n'
  | 'r' => some '\r'
  | 't' => some '\t'
  | '\\' => some '\\'
  | '\'' => some '\''
  | '"' => some '"'
  | '0' => if k = .terminated then none else some '\x00'
  | _ => none

/-- A character that may stand in a string as it is. -/
def admits (k : StringKind) (c : Char) : Bool :=
  match k with
  | .text => true
  | .bytes => c.toNat < 128
  | .terminated => c != '\x00'

end StringKind

/-- The number in an escape between braces, after the opening one: up to six digits. -/
def bracedEscape (count value : Nat) : Reader Char
  | [] => none
  | c :: cs =>
    if c = '_' ∧ 0 < count then bracedEscape count value cs
    else if c = '}' ∧ 0 < count then
      if value.isValidChar then some (Char.ofNat value, cs) else none
    else do
      let d ← Text.hexDigit? c
      if count = 6 then none else bracedEscape (count + 1) (value * 16 + d) cs

/-- The text after the blanks of a line that is continued, from its end on. -/
def skipContinuation : List Char → Option (List Char)
  | [] => none
  | '\r' :: '\n' :: cs => skipContinuation cs
  | c :: cs =>
    if c = '\r' then none
    else if c = ' ' ∨ c = '\t' ∨ c = '\n' then skipContinuation cs
    else some (c :: cs)

/-- A string with escapes, after its opening mark. `done` holds the characters before, last one first;
`fuel` is at least the length of the text. -/
def cookedString (k : StringKind) : Nat → List Char → Reader String
  | 0, _, _ => none
  | fuel + 1, done, cs => match cs with
    | [] => none
    | '"' :: rest => some (String.ofList done.reverse, rest)
    | '\r' :: '\n' :: rest => cookedString k fuel ('\n' :: done) rest
    | '\\' :: 'x' :: a :: b :: rest => do
      cookedString k fuel ((← k.byteEscape a b) :: done) rest
    | '\\' :: 'u' :: '{' :: rest =>
      if k = .bytes then none
      else do
        let (c, rest) ← bracedEscape 0 0 rest
        if k = .terminated ∧ c = '\x00' then none else cookedString k fuel (c :: done) rest
    | '\\' :: c :: rest =>
      if c = '\n' ∨ c = '\r' then do cookedString k fuel done (← skipContinuation (c :: rest))
      else do cookedString k fuel ((← k.shortEscape c) :: done) rest
    | c :: rest =>
      if c != '\r' && c != '\\' && k.admits c then cookedString k fuel (c :: done) rest else none

/-- A string without escapes, after its opening mark. It ends at a mark with `hashes` after it. -/
def rawString (k : StringKind) (hashes : List Char) (done : List Char) : Reader String
  | [] => none
  | '"' :: rest => match after? hashes rest with
    | some rest => some (String.ofList done.reverse, rest)
    | none => rawString k hashes ('"' :: done) rest
  | '\r' :: '\n' :: rest => rawString k hashes ('\n' :: '\r' :: done) rest
  | c :: rest => if c != '\r' && k.admits c then rawString k hashes (c :: done) rest else none

/-- A string without escapes, after its letters: hash signs, at most 255, and the opening mark. -/
def hashedString (k : StringKind) (cs : List Char) : Option (String × List Char) :=
  let hashes := cs.takeWhile (· == '#')
  match cs.dropWhile (· == '#') with
  | '"' :: rest => if hashes.length ≤ 255 then rawString k hashes [] rest else none
  | _ => none

/-- A string of any kind, with its suffix. -/
def string (cs : List Char) : Option (Literal × List Char) := do
  let cooked (k : StringKind) (rest : List Char) := cookedString k (rest.length + 1) [] rest
  let (l, rest) ← match cs with
    | '"' :: rest => (cooked .text rest).map fun (s, rest) => (Literal.text s, rest)
    | 'b' :: '"' :: rest => (cooked .bytes rest).map fun (_, rest) => (.other, rest)
    | 'c' :: '"' :: rest => (cooked .terminated rest).map fun (_, rest) => (.other, rest)
    | 'b' :: 'r' :: rest => (hashedString .bytes rest).map fun (_, rest) => (.other, rest)
    | 'c' :: 'r' :: rest => (hashedString .terminated rest).map fun (_, rest) => (.other, rest)
    | 'r' :: rest => (hashedString .text rest).map fun (s, rest) => (.text s, rest)
    | _ => none
  some (l, (suffix rest).2)

/-- The text after the one character of a character literal. -/
def oneCharacter (k : StringKind) (cs : List Char) : Option (List Char) :=
  match cs with
  | '\\' :: 'x' :: a :: b :: rest => (k.byteEscape a b).map fun _ => rest
  | '\\' :: 'u' :: '{' :: rest =>
    if k = .bytes then none else (bracedEscape 0 0 rest).map fun (_, rest) => rest
  | '\\' :: c :: rest => (k.shortEscape c).map fun _ => rest
  | c :: rest => if c != '\\' && k.admits c then some rest else none
  | [] => none

/-- A character literal. -/
def character (cs : List Char) : Option (Literal × List Char) := do
  let rest ← match cs with
    | 'b' :: '\'' :: rest => oneCharacter .bytes rest
    | '\'' :: rest => oneCharacter .text rest
    | _ => none
  some (.other, (suffix (← after? ['\''] rest)).2)

/-- A literal. -/
def literal (cs : List Char) : Option (Literal × List Char) :=
  (string cs).or <| (character cs).or <| (float cs).or <| integer cs

end TypeExport.Source
