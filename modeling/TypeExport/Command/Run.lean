import TypeExport.Command.Basic
import TypeExport.Config.EnvironmentFile
import TypeExport.Config.Load
import TypeExport.Discovery.Roots
import TypeExport.Output.Generation
import TypeExport.Schema.Load

/-!
# Running commands

`Command.run` carries a command out on a file system. A run prints lines and may end with a fault.
-/

namespace TypeExport

/-- What a run prints, and the fault that ends it if there is one. -/
structure RunResult where
  lines : List String := []
  fault : Option CommandFault := none
  deriving DecidableEq, Repr

/-- A run that prints nothing because of a fault. -/
def RunResult.failed (fault : CommandFault) : RunResult := { fault := some fault }

/-! ## What is printed -/

/-- There is nothing in the namespace. -/
def emptyLines (ns : String) : List String := ["! No types found in namespace " ++ ns]

/-- What has been generated. -/
def GenerationReport.lines (r : GenerationReport) (p : Plan) : List String :=
  if r.types.isEmpty then emptyLines p.filter.ns
  else
    ["✓ Generated " ++ toString r.types.length ++ " type(s) in " ++ p.output.directory] ++
      r.types.map (fun t => "  + " ++ t ++ ".ts") ++ r.barrel.toList.map ("  + " ++ ·)

/-- The roots of the namespace. -/
def rootLines (ns : String) (roots : List TypeExpr) : List String :=
  ("→ " ++ toString roots.length ++ " root type(s) in " ++ ns ++ ":") ::
    roots.map fun t => "  " ++ t.display

/-- The files of a bundle. -/
def fileLines (directory : String) (bundle : List OutputFile) : List String :=
  ["", "Files:"] ++ bundle.map fun f => "  " ++ Path.join directory f.name

/-! ## The commands -/

/-- Lists the roots and the files of a model. -/
def Schema.listing (s : Schema) (p : Plan) : RunResult :=
  match s.roots p.filter with
  | .error e => .failed (.exportFailed e)
  | .ok [] => { lines := emptyLines p.filter.ns }
  | .ok roots => match s.render p.filter p.output.barrel with
    | .error e => { lines := rootLines p.filter.ns roots, fault := some (.exportFailed e) }
    | .ok bundle =>
      { lines := rootLines p.filter.ns roots ++ fileLines p.output.directory bundle }

section

variable {m : Type → Type} [Monad m] (files : FileAccess m)

/-- Generates the modules of a model. -/
def Schema.generation (s : Schema) (p : Plan) : m RunResult := do
  match ← s.generate files p.filter p.output.directory p.output.barrel with
  | .ok report => return { lines := report.lines p }
  | .error e => return .failed (.exportFailed e)

/-- The configuration in a file. Without the file it is the usual one. -/
def Config.readOrUsual (env : Placeholder.Environment) (path : String) :
    m (Except ModelError Config) := do
  if ← files.pathExists path then Config.read files env path else return .ok {}

/-- Carries a command out with a plan. -/
def Command.follow (command : Command) (p : Plan) : m RunResult := do
  match ← p.source.load files with
  | .error e => return .failed (.exportFailed e)
  | .ok s => match command with
    | .generate _ _ _ => s.generation files p
    | .discover _ => return s.listing p

/-- Carries a command out. The environment is extended by the next environment file. -/
def Command.run (env : Placeholder.Environment) (command : Command) : m RunResult := do
  let env ← EnvironmentFile.load files env
  match ← Config.readOrUsual files env command.options.config with
  | .error e => return .failed (.model e)
  | .ok c => match (command.apply c).plan with
    | .error fault => return .failed fault
    | .ok p => command.follow files p

end

end TypeExport
