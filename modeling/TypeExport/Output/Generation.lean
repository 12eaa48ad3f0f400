import TypeExport.Files.Access
import TypeExport.Files.Path
import TypeExport.Output.Bundle

/-!
# Writing bundles

`Schema.generate` renders a bundle and writes its files into a directory. Nothing is written unless
everything can be rendered. The first failure of an access ends the run; files written before it stay.
-/

namespace TypeExport

/-- What a run has written. -/
structure GenerationReport where
  /-- The names of the exported types. -/
  types : List String := []
  /-- The paths of the files. -/
  files : List String := []
  /-- The name of the barrel module, if there is one. -/
  barrel : Option String := none
  deriving DecidableEq, Repr

/-- Adds a file that has been written. -/
def GenerationReport.add (directory barrel : String) (r : GenerationReport) (f : OutputFile) :
    GenerationReport :=
  let r := { r with files := r.files ++ [Path.join directory f.name] }
  if f.name == barrel then { r with barrel := some f.name }
  else { r with types := r.types ++ (Text.stripSuffix? ".ts" f.name).toList }

section

variable {m : Type → Type} [Monad m] (files : FileAccess m)

/-- Writes files into a directory, one after the other. -/
def writeBundle (directory barrel : String) :
    GenerationReport → List OutputFile → m (Except ExportError GenerationReport)
  | r, [] => pure (.ok r)
  | r, f :: fs => do
    match ← files.writeText (Path.join directory f.name) f.contents with
    | .ok () => writeBundle directory barrel (r.add directory barrel f) fs
    | .error e => pure (.error (.io e))

/-- Creates a directory that is missing. -/
def ensureDirectory (directory : String) : m (Except ExportError Unit) := do
  if ← files.pathExists directory then return .ok ()
  match ← files.createDirectories directory with
  | .ok () => return .ok ()
  | .error e => return .error (.io e)

/-- Writes the bundle of a filter into a directory. -/
def Schema.generate (s : Schema) (f : NamespaceFilter) (directory barrel : String) :
    m (Except ExportError GenerationReport) := do
  match s.render f barrel with
  | .error e => return .error e
  | .ok [] => return .ok {}
  | .ok bundle => match ← ensureDirectory files directory with
    | .error e => return .error e
    | .ok () => writeBundle files directory barrel {} bundle

end

end TypeExport
