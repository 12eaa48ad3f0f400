import TypeExport.Data.Decoder
import TypeExport.Json.Number
import TypeExport.Json.Text

/-!
# Reading JSON texts

`Json.value` reads a value into a tree of data, up to the first place where nothing can follow; there
the tree ends with `Node.broken`. `Json.decode` decodes a text: faults of the text and of its content
are reported in the order in which they stand.
-/

namespace TypeExport.Json

open Data

/-- A blank between the parts of a JSON text. -/
def isBlank (c : Char) : Bool := c == ' ' || c == '\n' || c == '\t' || c == '\r'

def skipBlanks (cs : List Char) : List Char := cs.dropWhile isBlank

/-- The deepest nesting of arrays and objects that can be used. -/
def maxNesting : Nat := 127

/-- A container inside `depth` others. -/
def container (depth : Nat) (n : Node) : Node := if depth < maxNesting then n else .tooDeep n

/-- The end of the text, or another fault, in the same place for all readers. -/
def fault (f : Fault) : Node := .broken f f

/-- A literal after its first character. -/
def literal (tail : List Char) (n : Node) (cs : List Char) : Node × Option (List Char) :=
  match tail, cs with
  | [], cs => (n, some cs)
  | _ :: _, [] => (fault .endInValue, none)
  | t :: tail, c :: cs => if t = c then literal tail n cs else (fault .badLiteral, none)

/-- A string after its opening mark. -/
def string (cs : List Char) : Node × Option (List Char) :=
  match stringValue [] cs, skipString cs with
  | .ok (s, rest), _ => (.text s, some rest)
  | .error f, .ok rest => (.refused f, some rest)
  | .error f, .error g => (.broken f g, none)

/-- The key of an object after its opening mark, with the text after the colon. -/
def key (cs : List Char) : Except Fault String × Except Node (List Char) :=
  let (name, rest) : Except Fault String × Except Node (List Char) :=
    match stringValue [] cs, skipString cs with
    | .ok (s, rest), _ => (.ok s, .ok rest)
    | .error f, .ok rest => (.error f, .ok rest)
    | .error f, .error g => (.error f, .error (.broken f g))
  match rest with
  | .error n => (name, .error n)
  | .ok rest => match skipBlanks rest with
    | ':' :: rest => (name, .ok rest)
    | [] => (name, .error (fault .endInObject))
    | _ => (name, .error (fault .noColon))

/-- The end of an object's entries, at a fault. -/
def brokenEntry (used skipped : Fault) : MapEntry := (.error used, .broken used skipped)

mutual

/-- Reads a value inside `depth` containers. There is no rest where the text breaks off. `fuel` bounds the
calls that one value takes. -/
def value : Nat → Nat → List Char → Node × Option (List Char)
  | 0, _, _ => (fault .endInValue, none)
  | fuel + 1, depth, cs => match skipBlanks cs with
    | [] => (fault .endInValue, none)
    | 'n' :: rest => literal ['u', 'l', 'l'] .null rest
    | 't' :: rest => literal ['r', 'u', 'e'] (.bool true) rest
    | 'f' :: rest => literal ['a', 'l', 's', 'e'] (.bool false) rest
    | '"' :: rest => string rest
    | '[' :: rest =>
      let (items, rest) := firstItem fuel (depth + 1) rest
      (container depth (.seq items), rest)
    | '{' :: rest =>
      let (entries, rest) := firstEntry fuel (depth + 1) rest
      (container depth (.map entries), rest)
    | c :: rest =>
      if c = '-' ∨ c.isDigit then number (c :: rest) else (fault .noValue, none)

/-- The elements of an array after its opening bracket. -/
def firstItem : Nat → Nat → List Char → List Node × Option (List Char)
  | 0, _, _ => ([fault .endInArray], none)
  | fuel + 1, depth, cs => match skipBlanks cs with
    | [] => ([fault .endInArray], none)
    | ']' :: rest => ([], some rest)
    | cs => item fuel depth cs

/-- An element of an array and those after it. -/
def item : Nat → Nat → List Char → List Node × Option (List Char)
  | 0, _, _ => ([fault .endInArray], none)
  | fuel + 1, depth, cs =>
    match value fuel depth cs with
    | (n, none) => ([n], none)
    | (n, some rest) =>
      let (ns, rest) := nextItem fuel depth rest
      (n :: ns, rest)

/-- What follows an element of an array. -/
def nextItem : Nat → Nat → List Char → List Node × Option (List Char)
  | 0, _, _ => ([fault .endInArray], none)
  | fuel + 1, depth, cs => match skipBlanks cs with
    | [] => ([fault .endInArray], none)
    | ']' :: rest => ([], some rest)
    | ',' :: rest => match skipBlanks rest with
      | [] => ([fault .endInValue], none)
      | ']' :: _ => ([.broken .trailingComma .noValue], none)
      | rest => item fuel depth rest
    | _ => ([fault .noArrayEnd], none)

/-- The entries of an object after its opening brace. -/
def firstEntry : Nat → Nat → List Char → List MapEntry × Option (List Char)
  | 0, _, _ => ([brokenEntry .endInObject .endInObject], none)
  | fuel + 1, depth, cs => match skipBlanks cs with
    | [] => ([brokenEntry .endInObject .endInObject], none)
    | '}' :: rest => ([], some rest)
    | '"' :: rest => entry fuel depth rest
    | _ => ([brokenEntry .keyNotString .keyNotString], none)

/-- An entry of an object after the opening mark of its key, and those after it. -/
def entry : Nat → Nat → List Char → List MapEntry × Option (List Char)
  | 0, _, _ => ([brokenEntry .endInObject .endInObject], none)
  | fuel + 1, depth, cs =>
    match key cs with
    | (name, .error n) => ([(name, n)], none)
    | (name, .ok rest) => match value fuel depth rest with
      | (n, none) => ([(name, n)], none)
      | (n, some rest) =>
        let (es, rest) := nextEntry fuel depth rest
        ((name, n) :: es, rest)

/-- What follows an entry of an object. -/
def nextEntry : Nat → Nat → List Char → List MapEntry × Option (List Char)
  | 0, _, _ => ([brokenEntry .endInObject .endInObject], none)
  | fuel + 1, depth, cs => match skipBlanks cs with
    | [] => ([brokenEntry .endInObject .endInObject], none)
    | '}' :: rest => ([], some rest)
    | ',' :: rest => match skipBlanks rest with
      | [] => ([brokenEntry .endInValue .endInObject], none)
      | '}' :: _ => ([brokenEntry .trailingComma .keyNotString], none)
      | '"' :: rest => entry fuel depth rest
      | _ => ([brokenEntry .keyNotString .keyNotString], none)
    | _ => ([brokenEntry .noObjectEnd .noObjectEnd], none)

end

/-- Reads the value at the beginning of a text. -/
def document (cs : List Char) : Node × Option (List Char) := value (4 * cs.length + 4) 0 cs

/-- Decodes a text. -/
def decode {α : Type} (decoder : Node → Decoded α) (text : String) : Decoded α := do
  let (n, rest) := document text.toList
  let a ← decoder n
  match rest.map skipBlanks with
  | some [] => .ok a
  | some (_ :: _) => .error (.fault .trailingCharacters)
  | none => .error (.fault .endInValue)

/-- Floating-point numbers in messages about JSON texts: positional from `1e-5` up to `1e15`. -/
def floatFormat : FloatFormat := ⟨some (-5), some 15⟩

end TypeExport.Json
