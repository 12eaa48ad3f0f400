import TypeExport.Data.Error
import TypeExport.Data.IntegerRange

/-!
# Decoding trees

Decoders of simple values, of sequences and of records. A `RecordForm` says how a record is put
together from its fields. A record may be written as a map, in any order, or as a sequence of its
fields; `Surplus` says what becomes of elements after the last field.
-/

namespace TypeExport.Data

open Json (Fault)

/-- The kind of a tree, as errors name it. -/
def Node.found : Node → Except Fault Found
  | .null => .ok .null
  | .bool b => .ok (.bool b)
  | .unsigned n => .ok (.integer n)
  | .signed i => .ok (.integer i)
  | .float x => .ok (.float x)
  | .text s => .ok (.text s)
  | .seq _ => .ok .seq
  | .map _ => .ok .map
  | .tooDeep n => n.found
  | .refused f => .error f
  | .broken f _ => .error f

/-- The error for a tree of the wrong kind. -/
def Node.mismatch (n : Node) (wanted : String) : DecodeError :=
  match n.found with
  | .ok found => .wrongType found wanted
  | .error f => .fault f

/-- A fault stops decoding. -/
def liftFault {α : Type} : Except Fault α → Decoded α
  | .ok a => .ok a
  | .error f => .error (.fault f)

/-! ## Simple values -/

def Node.string : Node → Decoded String
  | .text s => .ok s
  | n => .error (n.mismatch "a string")

def Node.path : Node → Decoded String
  | .text s => .ok s
  | n => .error (n.mismatch "path string")

def Node.flag : Node → Decoded Bool
  | .bool b => .ok b
  | n => .error (n.mismatch "a boolean")

/-- A 64-bit integer. -/
def Node.int64 : Node → Decoded Int
  | .signed i => .ok i
  | .unsigned n =>
    if n < int64Bound then .ok n else .error (.wrongValue (.integer n) "i64")
  | n => .error (n.mismatch "i64")

/-- A value that may be null. -/
def Node.optional {α : Type} (decode : Node → Decoded α) : Node → Decoded (Option α)
  | .null => .ok none
  | n => (decode n).map some

/-- A type expression, written as a string. -/
def Node.typeExpr (n : Node) : Decoded TypeExpr := do
  match TypeExpr.parse (← n.string) with
  | .ok t => .ok t
  | .error e => .error (.typeExpr e)

/-- The elements of a sequence. -/
def Node.items : Node → Decoded (List Node)
  | .seq items => .ok items
  | .tooDeep (.seq _) => .error (.fault .nestingLimit)
  | n => .error (n.mismatch "a sequence")

/-- A sequence. -/
def Node.list {α : Type} (decode : Node → Decoded α) (n : Node) : Decoded (List α) := do
  (← n.items).mapM decode

/-! ## Records -/

/-- What becomes of the elements after the last field of a record written as a sequence. -/
inductive Surplus where
  /-- The text has to close the sequence there. -/
  | refuseText
  /-- The length is wrong. -/
  | refuseLength
  | ignore

/-- How a record is put together. A draft `δ` is a record with some fields still missing. -/
structure RecordForm (δ : Type) where
  /-- The record, as errors name it. -/
  wanted : String
  /-- The fields in their order, and whether a sequence has to supply them. -/
  fields : List (String × Bool)
  /-- The draft without any field. -/
  blank : δ
  /-- Adds a field. -/
  put : δ → String → Node → Decoded δ

/-- Fills a field of a draft that can be filled once. -/
def once {α : Type} (slot : Option α) (name : String) (value : Decoded α) : Decoded (Option α) :=
  match slot with
  | some _ => .error (.duplicateField name)
  | none => value.map some

/-- A field that has to be there. -/
def required {α : Type} (slot : Option α) (name : String) : Decoded α :=
  match slot with
  | some a => .ok a
  | none => .error (.missingField name)

namespace RecordForm

variable {δ : Type} (form : RecordForm δ)

/-- Adds an entry of a map; one that is no field is passed over. -/
def putEntry (draft : δ) : MapEntry → Decoded δ
  | (.error f, _) => .error (.fault f)
  | (.ok key, n) =>
    if form.fields.any (·.1 == key) then form.put draft key n
    else do
      liftFault n.skip
      .ok draft

/-- The draft of a map. -/
def ofEntries (entries : List MapEntry) : Decoded δ := entries.foldlM form.putEntry form.blank

/-- `n` elements, in words. -/
def elements (n : Nat) : String := if n = 1 then "1 element" else toString n ++ " elements"

/-- The elements after the last field. -/
def refuseSurplus (surplus : Surplus) : List Node → Decoded Unit
  | [] => .ok ()
  | n :: rest => match surplus with
    | .ignore => .ok ()
    | .refuseLength =>
      .error (.wrongLength (form.fields.length + rest.length + 1)
        (elements form.fields.length ++ " in sequence"))
    | .refuseText => match n with
      | .broken f _ => .error (.fault f.atLastElement)
      | _ => .error (.fault .trailingCharacters)

/-- Adds the elements of a sequence to the fields from the `i`th on. -/
def putItems (surplus : Surplus) : List (String × Bool) → Nat → List Node → δ → Decoded δ
  | [], _, rest, draft => do
    form.refuseSurplus surplus rest
    .ok draft
  | (_, needed) :: fields, i, [], draft =>
    if needed then
      .error (.wrongLength i
        (form.wanted ++ " with " ++ elements form.fields.length))
    else putItems surplus fields (i + 1) [] draft
  | (name, _) :: fields, i, n :: rest, draft => do
    putItems surplus fields (i + 1) rest (← form.put draft name n)

/-- The draft of a tree. -/
def decode (surplus : Surplus) : Node → Decoded δ
  | .map entries => form.ofEntries entries
  | .seq items => form.putItems surplus form.fields 0 items form.blank
  | .tooDeep _ => .error (.fault .nestingLimit)
  | n => .error (n.mismatch form.wanted)

end RecordForm

end TypeExport.Data
