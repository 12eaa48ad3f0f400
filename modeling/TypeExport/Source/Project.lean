import TypeExport.Error
import TypeExport.Files.Path
import TypeExport.Source.Declaration
import TypeExport.Source.File

/-!
# Projects

A project is a directory of source files. `Schema.scan` reads all of them and collects their
declarations. The directories are visited one by one, what a directory holds before what follows it, in
the order of the names.

The namespace of a file follows its path below the directory (`Source.moduleName`). A file that does not
follow the grammar has no declarations.
-/

namespace TypeExport

namespace Source

/-- The file names that name no module of their own. -/
def rootNames : List String := ["mod", "lib", "main"]

/-- The path of the module in a file. The file is given by the names that lead to it, without its
extension. -/
def modulePath (names : List String) : List String :=
  "crate" ::
    if names.getLast?.any rootNames.contains then names.dropLast else names

/-- The namespace of a file. -/
def moduleName (names : List String) : String := String.intercalate "::" (modulePath names)

/-- A source file of a project. -/
structure SourceFile where
  path : String
  /-- The names that lead to it from the directory of the project, without its extension. -/
  names : List String
  deriving DecidableEq, Repr

/-- A name is one of a source file. -/
def isSourceName (name : String) : Bool := Path.extension? name == some "rs"

/-- The source file with a name, if it has such a name. -/
def sourceFile? (dir : String) (above : List String) (name : String) : Option SourceFile :=
  if isSourceName name then some ⟨Path.join dir name, above ++ [Path.withoutExtension name]⟩ else none

/-- The declarations that a source file with a text adds. -/
def SourceFile.declarations (f : SourceFile) (text : String) : List Declaration :=
  match itemsOfFile? text with
  | some items => Source.declarations (moduleName f.names) items
  | none => []

section

variable {m : Type → Type} [Monad m] (files : FileAccess m)

/-- The source files in a directory and the directories below it, down to a depth. A directory that
cannot be listed has none. -/
def filesIn : Nat → String → List String → m (List SourceFile)
  | 0, _, _ => return []
  | depth + 1, dir, above => do
    match ← files.list dir with
    | .error _ => return []
    | .ok entries =>
      let found ← (entries.mergeSort fun a b => a.name ≤ b.name).mapM fun e => do
        let below ←
          if e.isDirectory then filesIn depth (Path.join dir e.name) (above ++ [e.name]) else pure []
        return (sourceFile? dir above e.name).toList ++ below
      return found.flatten

/-- More directories than this cannot stand in each other, because of the length of their paths. -/
def maxDepth : Nat := 4096

/-- The source files of a project. A directory with the name of a source file counts as one. -/
def sourceFiles (root : String) : m (List SourceFile) := do
  let isSource ← if isSourceName root then files.pathExists root else pure false
  let found ← filesIn files maxDepth root []
  return (if isSource then [⟨root, []⟩] else []) ++ found

end

end Source

/-- The model in the source files of a directory. The first file that cannot be read is an error. -/
def Schema.scan {m : Type → Type} [Monad m] (files : FileAccess m) (root : String) :
    m (Except ExportError Schema) := do
  let found ← Source.sourceFiles files root
  let parts : Except ExportError (List (List Declaration)) ← ExceptT.run <| found.mapM fun f => do
    match ← files.readText f.path with
    | .ok text => return f.declarations text
    | .error e => throw (.io e)
  return parts.map fun parts => { types := parts.flatten }

end TypeExport
