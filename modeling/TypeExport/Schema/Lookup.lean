import TypeExport.Schema.Basic
import TypeExport.Text.Segments

/-!
# Looking up declarations

* `Schema.allTypes`: every declaration with its full name (`Ns.Outer.Inner`).
* `Schema.resolve?`: the declaration that a name refers to. A full name comes before a path within a
  namespace (`Outer.Inner`), and a path before the simple name of a nested declaration.
* `Schema.namespaces`: the namespaces in use.
-/

namespace TypeExport

/-- A declaration and its full name. -/
structure Entry where
  fullName : String
  declaration : Declaration
  deriving DecidableEq, Repr

namespace Declaration

mutual

/-- The declaration and all that is nested in it, each with its name below `parent`. -/
def entries (parent : String) : Declaration → List Entry
  | ⟨n, ns, s, ds, doc⟩ =>
    ⟨parent ++ "." ++ n, ⟨n, ns, s, ds, doc⟩⟩ :: entriesList (parent ++ "." ++ n) ds

def entriesList (parent : String) : List Declaration → List Entry
  | [] => []
  | d :: ds => d.entries parent ++ entriesList parent ds

end

end Declaration

namespace Schema

/-- In the global namespace a full name has no leading dot. -/
def withoutLeadingDot (name : String) : String := (Text.stripPrefix? "." name).getD name

/-- Every declaration with its full name, depth first. -/
def allTypes (s : Schema) : List Entry :=
  (s.types.flatMap fun d => d.entries d.ns).map fun e =>
    { e with fullName := withoutLeadingDot e.fullName }

end Schema

/-- The declaration's path within its namespace. A full name outside that namespace is its own
path. -/
def Entry.path (e : Entry) : String :=
  match Text.stripPrefix? e.declaration.ns e.fullName with
  | some rest => String.ofList (rest.toList.dropWhile (· == '.'))
  | none => e.fullName

namespace Schema

/-- The declaration that a name refers to. -/
def resolve? (s : Schema) (name : String) : Option Entry :=
  (s.allTypes.find? (·.fullName == name)).or <|
  (s.allTypes.find? (·.path == name)).or <|
  if Text.hasChar '.' name then none else s.allTypes.find? (·.declaration.name == name)

/-- The declarations of a namespace that are not nested. -/
def typesIn (s : Schema) (ns : String) : List Declaration :=
  s.types.filter (·.ns == ns)

/-- The namespaces of the declarations, then those of the endpoints, each once. -/
def namespaces (s : Schema) : List String :=
  (s.types.map (·.ns) ++ s.endpoints.map (·.ns)).foldl
    (fun seen ns => if seen.contains ns then seen else seen ++ [ns]) []

end Schema

end TypeExport
