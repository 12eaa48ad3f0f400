import TypeExport.Text.Segments

/-!
# Choosing namespaces

A `NamespaceFilter` accepts one namespace, and on request those below it.
-/

namespace TypeExport

structure NamespaceFilter where
  /-- The accepted namespace. -/
  ns : String
  /-- Also accept the namespaces below it (`Ns.Sub`, `ns::sub`). -/
  includeNested : Bool := false
  deriving DecidableEq, Repr

/-- The text begins with a separator of namespaces. -/
def startsBelow (rest : String) : Bool :=
  match rest.toList with
  | '.' :: _ => true
  | ':' :: ':' :: _ => true
  | _ => false

/-- The filter accepts a namespace. All namespaces lie below the empty one. -/
def NamespaceFilter.accepts (f : NamespaceFilter) (ns : String) : Bool :=
  ns == f.ns ||
    f.includeNested && match Text.stripPrefix? f.ns ns with
      | some rest => f.ns == "" || startsBelow rest
      | none => false

end TypeExport
