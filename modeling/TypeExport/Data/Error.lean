import TypeExport.Data.Node
import TypeExport.Decimal.FloatText
import TypeExport.Text.Quoted
import TypeExport.TypeExpr.Parser

/-!
# Errors of decoding
-/

namespace TypeExport.Data

open Json (Fault)

/-- What a decoder found in the place of something else. -/
inductive Found where
  | null
  | bool (b : Bool)
  | integer (i : Int)
  | float (x : Float)
  | text (s : String)
  | seq
  | map

def Found.message (format : FloatFormat) : Found → String
  | .null => "null"
  | .bool b => "boolean `" ++ toString b ++ "`"
  | .integer i => "integer `" ++ toString i ++ "`"
  | .float x => "floating point `" ++ format.text x ++ "`"
  | .text s => "string " ++ Text.quoted s
  | .seq => "sequence"
  | .map => "map"

/-- Why a tree cannot be decoded. -/
inductive DecodeError where
  | fault (f : Fault)
  | missingField (name : String)
  | duplicateField (name : String)
  | unknownVariant (found : String) (known : List String)
  | wrongType (found : Found) (wanted : String)
  | wrongValue (found : Found) (wanted : String)
  | wrongLength (length : Nat) (wanted : String)
  | typeExpr (e : TypeExpr.ParseError)

/-- The wording of an error. Floating-point numbers are written in the format of the text's
language. -/
def DecodeError.message (format : FloatFormat) : DecodeError → String
  | .fault f => f.message
  | .missingField name => "missing field `" ++ name ++ "`"
  | .duplicateField name => "duplicate field `" ++ name ++ "`"
  | .unknownVariant found known =>
    "unknown variant `" ++ found ++ "`, expected one of " ++
      String.intercalate ", " (known.map fun k => "`" ++ k ++ "`")
  | .wrongType found wanted => "invalid type: " ++ found.message format ++ ", expected " ++ wanted
  | .wrongValue found wanted => "invalid value: " ++ found.message format ++ ", expected " ++ wanted
  | .wrongLength length wanted =>
    "invalid length " ++ toString length ++ ", expected " ++ wanted
  | .typeExpr e => e.message

/-- The result of decoding. -/
abbrev Decoded (α : Type) := Except DecodeError α

end TypeExport.Data
