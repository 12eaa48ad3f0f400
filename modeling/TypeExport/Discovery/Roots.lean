import TypeExport.Discovery.Filter
import TypeExport.Discovery.Payload
import TypeExport.Error
import TypeExport.Schema.Lookup

/-!
# Root types

The roots of a namespace are the types that get a module of their own. `Schema.candidates` lists
where they come from: the concrete classes that are not nested, then the results of the endpoints.
`Schema.roots` is the list of their payloads: primitives are left out, a declared type goes by its
full name, and each root is listed once.
-/

namespace TypeExport

/-- The type expression for a declaration that is not nested. -/
def Declaration.reference (d : Declaration) : TypeExpr :=
  .named (if d.ns = "" then d.name else d.ns ++ "." ++ d.name)

namespace Schema

/-- The candidates of a filter. -/
def candidates (s : Schema) (f : NamespaceFilter) : List TypeExpr :=
  (s.types.filter fun d => d.isConcreteClass && f.accepts d.ns).map (·.reference) ++
    (s.endpoints.filter fun e => f.accepts e.ns).map (·.returns)

/-- A declared type by its full name, so that all its spellings are one. -/
def canonical (s : Schema) : TypeExpr → TypeExpr
  | .named n => match s.resolve? n with
    | some e => .named e.fullName
    | none => .named n
  | t => t

/-- The payload of a candidate. -/
def payloadOf (t : TypeExpr) : Except ExportError TypeExpr :=
  match t.payload with
  | .ok p => .ok p
  | .error .unsupportedShape => .error (.unsupportedShape t)
  | .error .tooDeep => .error (.tooDeep t maxUnwrapDepth)

/-- Adds the root of a candidate. -/
def addRoot (s : Schema) (roots : List TypeExpr) (candidate : TypeExpr) :
    Except ExportError (List TypeExpr) := do
  let payload ← payloadOf candidate
  let root := s.canonical payload
  .ok (if payload.isPrimitive ∨ root ∈ roots then roots else roots ++ [root])

/-- The roots of a filter. -/
def roots (s : Schema) (f : NamespaceFilter) : Except ExportError (List TypeExpr) :=
  (s.candidates f).foldlM s.addRoot []

end Schema

end TypeExport
