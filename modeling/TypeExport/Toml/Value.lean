import TypeExport.Toml.Scalar
import TypeExport.Toml.Table

/-!
# Values in TOML texts

`Toml.value` reads a string, a truth value, a number, a date, an array or an inline table. An array may
go over several lines, with comments; an inline table stands in one line.
-/

namespace TypeExport.Toml

open Data

/-- The text after a word. -/
def word? (w : List Char) (cs : List Char) : Option (List Char) := w.isPrefixOf? cs

/-- A truth value. -/
def truth (cs : List Char) : Option (Node × List Char) :=
  ((word? ['t', 'r', 'u', 'e'] cs).map fun rest => (.bool true, rest)).or
    ((word? ['f', 'a', 'l', 's', 'e'] cs).map fun rest => (.bool false, rest))

/-- The table that the entries of an inline table define. -/
def inlineTable (es : List Table.Entry) : Option Node :=
  (Table.defineAll (.empty .header) es).map (·.toNode)

mutual

/-- A value inside `depth` arrays and inline tables. `fuel` bounds the calls that it takes. -/
def value (fuel depth : Nat) (cs : List Char) : Option (Node × List Char) :=
  match fuel, cs with
  | 0, _ => none
  | _, [] => none
  | fuel + 1, c :: rest =>
    if c = '"' ∨ c = '\'' then do
      let (s, rest) ← string cs
      some (.text s, rest)
    else if c = '[' then
      if depth + 1 < nestingLimit then do
        let (items, rest) ← firstItem fuel (depth + 1) rest
        some (.seq items, rest)
      else none
    else if c = '{' then
      if depth + 1 < nestingLimit then do
        let (es, rest) ← firstEntry fuel (depth + 1) rest
        some (← inlineTable es, rest)
      else none
    else if c = 't' ∨ c = 'f' then truth cs
    else scalar cs

/-- The items of an array after its opening bracket. -/
def firstItem (fuel depth : Nat) (cs : List Char) : Option (List Node × List Char) :=
  match fuel with
  | 0 => none
  | fuel + 1 => do
    match ← skipLines false cs with
    | ']' :: rest => some ([], rest)
    | cs => item fuel depth cs

/-- An item of an array and those after it. -/
def item (fuel depth : Nat) (cs : List Char) : Option (List Node × List Char) :=
  match fuel with
  | 0 => none
  | fuel + 1 => do
    let (n, rest) ← value fuel depth cs
    match ← skipLines false rest with
    | ']' :: rest => some ([n], rest)
    | ',' :: rest => do
      let (ns, rest) ← firstItem fuel depth rest
      some (n :: ns, rest)
    | _ => none

/-- The entries of an inline table after its opening brace. -/
def firstEntry (fuel depth : Nat) (cs : List Char) : Option (List Table.Entry × List Char) :=
  match fuel with
  | 0 => none
  | fuel + 1 => match skipBlanks cs with
    | '}' :: rest => some ([], rest)
    | cs => entry fuel depth cs

/-- An entry of an inline table and those after it. -/
def entry (fuel depth : Nat) (cs : List Char) : Option (List Table.Entry × List Char) :=
  match fuel with
  | 0 => none
  | fuel + 1 => do
    let ((path, k), rest) ← key cs
    match rest with
    | '=' :: rest => do
      let (n, rest) ← value fuel depth (skipBlanks rest)
      match skipBlanks rest with
      | '}' :: rest => some ([⟨path, k, n⟩], rest)
      | ',' :: rest => do
        let (es, rest) ← entry fuel depth rest
        some (⟨path, k, n⟩ :: es, rest)
      | _ => none
    | _ => none

end

end TypeExport.Toml
