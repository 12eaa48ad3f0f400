import TypeExport.Source.Token

/-!
# The syntax of source files

What a source file says, as far as it can matter for a model: its structures, enumerations and
modules, with their attributes, the types of fields and the expressions that give enumeration members
their values. All else is only told apart from texts that are no source files.
-/

namespace TypeExport.Source

mutual

/-- A type. -/
inductive TypeSyntax where
  | reference (target : TypeSyntax)
  | parens (inner : TypeSyntax)
  | array (element : TypeSyntax)
  | slice (element : TypeSyntax)
  | tuple (items : List TypeSyntax)
  /-- A path. It is relative to a type if it begins with one in angle brackets, and global if it begins
  with a double colon. -/
  | path (ofType isGlobal : Bool) (segments : List Segment)
  /-- A single bound in the place of a type. -/
  | bound
  | other

/-- A part of a path. -/
inductive Segment where
  | mk (name : String) (args : List Argument)

/-- An argument in angle brackets. -/
inductive Argument where
  | type (t : TypeSyntax)
  | lifetime (name : String)
  | other

end

def Segment.name : Segment → String
  | .mk n _ => n

def Segment.args : Segment → List Argument
  | .mk _ as => as

/-- The type is a name, perhaps with arguments. -/
def TypeSyntax.isName : TypeSyntax → Bool
  | .path false false [_] => true
  | _ => false

/-- The type may also be read as a bound. -/
def TypeSyntax.isBound : TypeSyntax → Bool
  | .path false _ _ => true
  | .bound => true
  | _ => false

/-- An expression, as far as it can matter. -/
inductive Expr where
  | literal (l : Literal)
  | negative (e : Expr)
  | parens (e : Expr)
  | comparison
  | range
  /-- An expression that ends with its block, such as a loop. -/
  | block
  | macroCall (d : Delimiter)
  | other
  deriving DecidableEq, Repr

/-- A comma has to stand between the expression and another arm. -/
def Expr.needsComma (e : Expr) : Bool := e != .block

/-- A semicolon has to stand between the expression and another statement. -/
def Expr.needsSemicolon : Expr → Bool
  | .macroCall d => d != .brace
  | e => e.needsComma

/-- What an attribute says after its path. -/
inductive Meta where
  | word
  | list (tokens : List Token)
  | value (e : Expr)

structure Attribute where
  /-- The path begins with a double colon. -/
  isGlobal : Bool
  path : List String
  content : Meta

/-- The attribute has a single name. -/
def Attribute.isNamed (a : Attribute) (name : String) : Bool := !a.isGlobal && a.path == [name]

structure Field where
  attributes : List Attribute
  isPublic : Bool
  name : String
  type : TypeSyntax

/-- The fields of a structure or of an enumeration member. -/
inductive Fields where
  | named (fields : List Field)
  | unnamed
  | none

structure Variant where
  name : String
  fields : Fields
  /-- The expression for the value. -/
  value : Option Expr

/-- A structure. -/
structure StructItem where
  attributes : List Attribute
  isPublic : Bool
  name : String
  /-- It has parameters that are types. -/
  isGeneric : Bool
  fields : Fields

/-- An enumeration. -/
structure EnumItem where
  attributes : List Attribute
  isPublic : Bool
  name : String
  variants : List Variant

/-- An item of a file or a module. -/
inductive Item where
  | structure (s : StructItem)
  | enumeration (e : EnumItem)
  /-- A module with its items. -/
  | module (name : String) (items : List Item)
  /-- Any other item. A module whose items are in another file is one. -/
  | other

end TypeExport.Source
