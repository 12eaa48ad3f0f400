import TypeExport.Json.Writer
import TypeExport.Schema.Decode

/-!
# Writing models

`Schema.toJson` is the text of a model. A declaration without nested ones has no `nested`, one
without documentation no `doc`, and a model without endpoints no `endpoints`.
-/

namespace TypeExport

open Json (Value)

/-- A documentation entry, if there is any documentation. -/
def docEntry : Option String → List (String × Value)
  | some doc => [("doc", .text doc)]
  | none => []

def Property.toValue (p : Property) : Value :=
  .object <| [("name", .text p.name), ("type", .text p.type.display),
    ("visibility", .text p.visibility.tag)] ++ docEntry p.doc

def Member.toValue (m : Member) : Value :=
  .object [("name", .text m.name), ("value", .int m.value)]

def Endpoint.toValue (e : Endpoint) : Value :=
  .object [("name", .text e.name), ("namespace", .text e.ns), ("returns", .text e.returns.display)]

/-- The entries for what a declaration declares. -/
def Shape.entries : Shape → List (String × Value)
  | .classType a ps =>
    [("kind", .text "class"), ("abstract", .bool a), ("properties", .array (ps.map (·.toValue)))]
  | .interfaceType ps =>
    [("kind", .text "interface"), ("properties", .array (ps.map (·.toValue)))]
  | .enumeration ms => [("kind", .text "enum"), ("members", .array (ms.map (·.toValue)))]

namespace Declaration

mutual

def toValue : Declaration → Value
  | ⟨name, ns, shape, nested, doc⟩ =>
    .object <| [("name", .text name), ("namespace", .text ns)] ++ shape.entries ++
      nestedEntry nested ++ docEntry doc

/-- The entry for nested declarations, if there are any. -/
def nestedEntry : List Declaration → List (String × Value)
  | [] => []
  | d :: ds => [("nested", .array (d.toValue :: toValues ds))]

def toValues : List Declaration → List Value
  | [] => []
  | d :: ds => d.toValue :: toValues ds

end

end Declaration

def Schema.toValue (s : Schema) : Value :=
  .object <| [("types", .array (Declaration.toValues s.types))] ++
    if s.endpoints.isEmpty then []
    else [("endpoints", .array (s.endpoints.map (·.toValue)))]

/-- The text of a model. -/
def Schema.toJson (s : Schema) : String := s.toValue.compact

end TypeExport
