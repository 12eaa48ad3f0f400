import TypeExport.TypeExpr.Basic

/-!
# TypeScript types

`Output.typeText` writes a type expression as a TypeScript type: arrays and sequences get `[]`,
nullable value types `|null`, dictionaries become map types and operations their result.
`Output.references` lists the declared types that occur in that text.
-/

namespace TypeExport.Output

/-- The array type of an element type. A union has to stand in parentheses. -/
def arrayOf (element : String) : String :=
  if Text.hasChar '|' element then "(" ++ element ++ ")[]" else element ++ "[]"

/-- The map type of a key type and a value type. -/
def mapOf (key value : String) : String := "\x7b [key: " ++ key ++ "]: " ++ value ++ " \x7d"

/-- A type expression as a TypeScript type. A wrapper with another number of arguments than it takes,
like any other generic type, is written as its simple name. -/
def typeText : TypeExpr → String
  | .primitive p => p.typescript
  | .named n => Text.simpleName n
  | .array e => arrayOf (typeText e)
  | .generic .dictionary [k, v] => mapOf (typeText k) (typeText v)
  | .generic .nullable [t] =>
    if (TypeExpr.generic .nullable [t]).nullableValue?.isSome then typeText t ++ "|null"
    else typeText t
  | .generic .enumerable [e] => arrayOf (typeText e)
  | .generic .collection [e] => arrayOf (typeText e)
  | .generic .task [t] => typeText t
  | .generic w _ => Text.simpleName w.name

mutual

/-- The simple names of the declared types in the text of a type expression, in their order. A
custom generic type is written as its own name only, which no declaration has. -/
def references : TypeExpr → List String
  | .primitive _ => []
  | .named n => [Text.simpleName n]
  | .array e => references e
  | .generic (.custom _) _ => []
  | .generic _ args => referencesList args

def referencesList : List TypeExpr → List String
  | [] => []
  | t :: ts => references t ++ referencesList ts

end

end TypeExport.Output
