import TypeExport.Data.Decoder
import TypeExport.Toml.Value

/-!
# Reading TOML texts

A TOML text is a list of lines: headers and entries, apart from comments. `Toml.lines` reads them,
`Toml.sections` puts the entries below their headers, and `Toml.document` builds the tables.
`Toml.decode` decodes a text. Its form is looked at before its content.
-/

namespace TypeExport.Toml

open Data

/-! ## Lines -/

/-- What a line says. -/
inductive Line where
  | header (h : Table.Header)
  | entry (e : Table.Entry)

/-- A header after its first bracket. -/
def header : Reader Table.Header
  | '[' :: rest => do
    let ((path, k), rest) ← key rest
    match rest with
    | ']' :: ']' :: rest => some (.further path k, rest)
    | _ => none
  | cs => do
    let ((path, k), rest) ← key cs
    match rest with
    | ']' :: rest => some (.single path k, rest)
    | _ => none

/-- An entry of a table. -/
def entryLine : Reader Table.Entry := fun cs => do
  let ((path, k), rest) ← key cs
  match rest with
  | '=' :: rest => do
    let (n, rest) ← value (4 * rest.length + 4) 0 (skipBlanks rest)
    some (⟨path, k, n⟩, rest)
  | _ => none

/-- The lines of a text that say something. `fuel` is more than the length of the text. -/
def lines : Nat → List Char → Option (List Line)
  | 0, _ => none
  | fuel + 1, cs => match skipBlanks cs with
    | [] => some []
    | '#' :: rest => do lines fuel (← endLine? ('#' :: rest))
    | '\n' :: rest => lines fuel rest
    | '\r' :: '\n' :: rest => lines fuel rest
    | '[' :: rest => do
      let (h, rest) ← header rest
      some (.header h :: (← lines fuel (← endLine? rest)))
    | cs => do
      let (e, rest) ← entryLine cs
      some (.entry e :: (← lines fuel (← endLine? rest)))

/-! ## Sections -/

/-- The entries up to the first header, and the sections of the headers. -/
def sections : List Line → List Table.Entry × List Table.Section
  | [] => ([], [])
  | .entry e :: ls => ((e :: (sections ls).1), (sections ls).2)
  | .header h :: ls => ([], ⟨h, (sections ls).1⟩ :: (sections ls).2)

/-- A byte order mark does not count at the beginning. -/
def skipByteOrderMark : List Char → List Char
  | '\ufeff' :: rest => rest
  | cs => cs

/-- The table of a text. -/
def document (cs : List Char) : Option Table := do
  let cs := skipByteOrderMark cs
  let (first, rest) := sections (← lines (cs.length + 1) cs)
  (⟨.root, first⟩ :: rest).foldlM Table.addSection (.empty .header)

/-! ## Decoding -/

/-- Why a text cannot be decoded. -/
inductive Error where
  | form
  | content (e : DecodeError)

/-- Floating-point numbers in messages about TOML texts are positional. -/
def floatFormat : FloatFormat := ⟨none, none⟩

def Error.message : Error → String
  | .form => "TOML syntax error"
  | .content e => e.message floatFormat

/-- Decodes a text. -/
def decode {α : Type} (decoder : Node → Decoded α) (text : String) : Except Error α :=
  match document text.toList with
  | none => .error .form
  | some t => match decoder t.toNode with
    | .ok a => .ok a
    | .error e => .error (.content e)

end TypeExport.Toml
