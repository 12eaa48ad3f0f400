/-!
# Writing JSON texts

`Json.Value.compact` writes a document without blanks. In strings, quotation marks, backslashes and
control characters are escaped.
-/

namespace TypeExport.Json

/-- A document to be written. -/
inductive Value where
  | bool (b : Bool)
  | int (i : Int)
  | text (s : String)
  | array (items : List Value)
  | object (entries : List (String × Value))
  deriving Inhabited

/-- A character in a string. -/
def escaped (c : Char) : List Char :=
  match c with
  | '"' => ['\\', '"']
  | '\\' => ['\\', '\\']
  | '\x08' => ['\\', 'b']
  | '\x0c' => ['\\', 'f']
  | '\n' => ['\\', 'n']
  | '\r' => ['\\', 'r']
  | '\t' => ['\\', 't']
  | c =>
    if c.toNat < 32 then
      ['\\', 'u', '0', '0', Nat.digitChar (c.toNat / 16), Nat.digitChar (c.toNat % 16)]
    else [c]

/-- A string between quotation marks. -/
def quote (s : String) : List Char := '"' :: (s.toList.flatMap escaped ++ ['"'])

namespace Value

mutual

/-- The characters of a document. -/
def chars : Value → List Char
  | .bool true => ['t', 'r', 'u', 'e']
  | .bool false => ['f', 'a', 'l', 's', 'e']
  | .int i => (toString i).toList
  | .text s => quote s
  | .array items => '[' :: (itemChars items ++ [']'])
  | .object entries => '{' :: (entryChars entries ++ ['}'])

def itemChars : List Value → List Char
  | [] => []
  | [v] => v.chars
  | v :: vs => v.chars ++ ',' :: itemChars vs

def entryChars : List (String × Value) → List Char
  | [] => []
  | [(k, v)] => quote k ++ ':' :: v.chars
  | (k, v) :: es => quote k ++ ':' :: (v.chars ++ ',' :: entryChars es)

end

/-- The text of a document. -/
def compact (v : Value) : String := String.ofList v.chars

end Value

end TypeExport.Json
