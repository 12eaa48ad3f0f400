import TypeExport.Text.Segments

/-!
# Primitive types

The scalar types of a model. Each has a canonical name, other spellings, a TypeScript alias and a
tag for reports. `Primitive.ofName?` recognises every spelling, qualified or not.
-/

namespace TypeExport

/-- A scalar type. -/
inductive Primitive where
  | string | char | guid | dateTimeOffset
  | byte | sbyte | int16 | uint16 | int32 | uint32 | int64 | uint64
  | single | double | decimal
  | boolean | object | void
  deriving DecidableEq, Repr, Inhabited

namespace Primitive

def all : List Primitive :=
  [.string, .char, .guid, .dateTimeOffset, .byte, .sbyte, .int16, .uint16, .int32, .uint32,
    .int64, .uint64, .single, .double, .decimal, .boolean, .object, .void]

/-- The name that type expressions show. -/
def name : Primitive → String
  | .string => "string"
  | .char => "char"
  | .guid => "Guid"
  | .dateTimeOffset => "DateTimeOffset"
  | .byte => "byte"
  | .sbyte => "sbyte"
  | .int16 => "short"
  | .uint16 => "ushort"
  | .int32 => "int"
  | .uint32 => "uint"
  | .int64 => "long"
  | .uint64 => "ulong"
  | .single => "float"
  | .double => "double"
  | .decimal => "decimal"
  | .boolean => "bool"
  | .object => "object"
  | .void => "void"

/-- The spellings besides the canonical name. -/
def aliases : Primitive → List String
  | .string => ["String", "str"]
  | .char => ["Char"]
  | .guid => ["Uuid"]
  | .dateTimeOffset => []
  | .byte => ["Byte", "u8"]
  | .sbyte => ["SByte", "i8"]
  | .int16 => ["Int16", "i16"]
  | .uint16 => ["UInt16", "u16"]
  | .int32 => ["Int32", "i32"]
  | .uint32 => ["UInt32", "u32"]
  | .int64 => ["Int64", "i64", "isize"]
  | .uint64 => ["UInt64", "u64", "usize"]
  | .single => ["Single", "f32"]
  | .double => ["Double", "f64"]
  | .decimal => ["Decimal"]
  | .boolean => ["Boolean"]
  | .object => ["Object"]
  | .void => ["Void"]

/-- The primitive that the last segment of a qualified name spells. -/
def ofName? (name : String) : Option Primitive :=
  all.find? fun p => p.name == Text.lastSegment name || p.aliases.contains (Text.lastSegment name)

/-- The TypeScript type of its values. -/
def typescript : Primitive → String
  | .string | .char | .guid | .dateTimeOffset => "string"
  | .byte | .sbyte | .int16 | .uint16 | .int32 | .uint32 | .int64 | .uint64 | .single | .double
  | .decimal => "number"
  | .boolean => "boolean"
  | .object => "any"
  | .void => "void"

/-- Its values can be absent only through a nullable wrapper. -/
def isValueType : Primitive → Bool
  | .string | .object | .void => false
  | _ => true

/-- The word for it in data about types. -/
def tag : Primitive → String
  | .string => "string"
  | .char => "char"
  | .guid => "guid"
  | .dateTimeOffset => "date_time_offset"
  | .byte => "byte"
  | .sbyte => "s_byte"
  | .int16 => "int16"
  | .uint16 => "u_int16"
  | .int32 => "int32"
  | .uint32 => "u_int32"
  | .int64 => "int64"
  | .uint64 => "u_int64"
  | .single => "single"
  | .double => "double"
  | .decimal => "decimal"
  | .boolean => "boolean"
  | .object => "object"
  | .void => "void"

end Primitive

end TypeExport
