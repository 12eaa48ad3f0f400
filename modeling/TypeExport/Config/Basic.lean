import TypeExport.Error
import TypeExport.Text.Blank

/-!
# Configurations

What a run needs to know: where the model comes from, where the modules go, and which namespace is
exported. `Config.validate` says whether a run can start.
-/

namespace TypeExport

/-- Where a model can come from. -/
inductive ModelSource where
  /-- A JSON or TOML file. -/
  | schemaFile (path : String)
  /-- A directory of Rust source files. -/
  | sourceDirectory (path : String)
  deriving DecidableEq, Repr

def ModelSource.display : ModelSource → String
  | .schemaFile path => "schema " ++ path
  | .sourceDirectory path => "Rust sources in " ++ path

/-- The source of the model. Exactly one of the two has to be given. -/
structure SourceSettings where
  schemaFile : Option String := none
  sourceDirectory : Option String := none
  deriving DecidableEq, Repr

structure OutputSettings where
  /-- The directory of the modules. -/
  directory : String := "generated"
  /-- The name of the module that exports all others. -/
  barrel : String := "dto.exports.ts"
  deriving DecidableEq, Repr

structure DiscoverySettings where
  /-- The namespace that is exported. -/
  ns : Option String := none
  /-- Also export the namespaces below it. -/
  includeNested : Bool := false
  deriving DecidableEq, Repr

structure Config where
  source : SourceSettings := {}
  output : OutputSettings := {}
  discovery : DiscoverySettings := {}
  deriving DecidableEq, Repr

namespace SourceSettings

/-- Some source is given. -/
def isConfigured (s : SourceSettings) : Bool := s.schemaFile.isSome || s.sourceDirectory.isSome

/-- The source that is given. -/
def source (s : SourceSettings) : Except ModelError ModelSource :=
  match s.schemaFile, s.sourceDirectory with
  | some path, none => .ok (.schemaFile path)
  | none, some path => .ok (.sourceDirectory path)
  | some _, some _ => .error (.config .twoSources)
  | none, none => .error (.config .noSource)

end SourceSettings

/-- A run can start from this configuration. -/
def Config.validate (c : Config) : Except ModelError Unit := do
  let _ ← c.source.source
  if c.discovery.ns.isNone then .error (.config .noNamespace)
  else if (Text.trim c.output.barrel).isEmpty then .error (.config .blankBarrel)
  else .ok ()

end TypeExport
