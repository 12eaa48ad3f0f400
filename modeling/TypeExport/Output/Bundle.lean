import TypeExport.Discovery.Roots
import TypeExport.Output.Module

/-!
# Bundles of modules

`Schema.render` makes the modules of all roots of a filter, and a barrel module that exports them.
Two roots cannot share a file. Without roots there are no files.
-/

namespace TypeExport

/-- A file of a bundle. -/
structure OutputFile where
  name : String
  /-- The lines, without their ends. -/
  lines : List String
  deriving DecidableEq, Repr

/-- The text of a file; every line is ended. -/
def OutputFile.contents (f : OutputFile) : String :=
  String.join (f.lines.map (· ++ "\n"))

/-- The module of a declared type. -/
structure TypeModule where
  typeName : String
  lines : List String
  deriving DecidableEq, Repr

namespace TypeModule

def fileName (m : TypeModule) : String := Output.fileName m.typeName

def file (m : TypeModule) : OutputFile := ⟨m.fileName, m.lines⟩

/-- The module of a declaration. -/
def of (d : Declaration) : TypeModule := ⟨d.name, Output.declarationLines d⟩

end TypeModule

namespace Schema

/-- The module of a root. -/
def moduleOf (s : Schema) : TypeExpr → Except ExportError TypeModule
  | .named n => match s.resolve? n with
    | some e => .ok (.of e.declaration)
    | none => .error (.unknownType n)
  | t => .error (.unknownType t.display)

/-- A root and its module. -/
abbrev RootModule := TypeExpr × TypeModule

/-- Adds the module of a root. -/
def addModule (s : Schema) (done : List RootModule) (root : TypeExpr) :
    Except ExportError (List RootModule) := do
  let m ← s.moduleOf root
  match done.find? (·.2.fileName == m.fileName) with
  | some first => .error (.duplicateFile m.fileName first.1 root)
  | none => .ok (done ++ [(root, m)])

/-- The files of modules, the barrel last. -/
def bundle (barrel : String) (modules : List TypeModule) : List OutputFile :=
  match modules with
  | [] => []
  | ms => ms.map (·.file) ++ [⟨barrel, Output.barrelLines (ms.map (·.typeName))⟩]

/-- The files of a filter. -/
def render (s : Schema) (f : NamespaceFilter) (barrel : String) :
    Except ExportError (List OutputFile) := do
  let roots ← s.roots f
  let modules ← roots.foldlM s.addModule []
  .ok (bundle barrel (modules.map (·.2)))

end Schema

end TypeExport
