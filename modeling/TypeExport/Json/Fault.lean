/-!
# Faults of JSON texts
-/

namespace TypeExport.Json

/-- What is wrong with a JSON text. -/
inductive Fault where
  | endInValue
  | endInArray
  | endInObject
  | endInString
  | noValue
  | badLiteral
  | noColon
  | noArrayEnd
  | noObjectEnd
  | trailingComma
  | trailingCharacters
  | keyNotString
  | badNumber
  | numberOutOfRange
  | badEscape
  | loneSurrogate
  | unpairedSurrogate
  | controlCharacter
  | nestingLimit
  deriving DecidableEq, Repr, Inhabited

def Fault.message : Fault → String
  | .endInValue => "EOF while parsing a value"
  | .endInArray => "EOF while parsing a list"
  | .endInObject => "EOF while parsing an object"
  | .endInString => "EOF while parsing a string"
  | .noValue => "expected value"
  | .badLiteral => "expected ident"
  | .noColon => "expected `:`"
  | .noArrayEnd => "expected `,` or `]`"
  | .noObjectEnd => "expected `,` or `\x7d`"
  | .trailingComma => "trailing comma"
  | .trailingCharacters => "trailing characters"
  | .keyNotString => "key must be a string"
  | .badNumber => "invalid number"
  | .numberOutOfRange => "number out of range"
  | .badEscape => "invalid escape"
  | .loneSurrogate => "lone leading surrogate in hex escape"
  | .unpairedSurrogate => "unexpected end of hex escape"
  | .controlCharacter => "control character (\\u0000-\\u001F) found while parsing a string"
  | .nestingLimit => "recursion limit exceeded"

/-- The fault where an array is expected to end, if `f` is the fault where a further element is. -/
def Fault.atLastElement : Fault → Fault
  | .endInArray => .endInArray
  | .trailingComma => .trailingComma
  | _ => .trailingCharacters

end TypeExport.Json
