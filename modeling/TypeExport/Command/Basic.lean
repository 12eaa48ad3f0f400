import TypeExport.Config.Basic
import TypeExport.Discovery.Filter
import TypeExport.Error

/-!
# Commands

A `Command` is what a command line asks for: to generate modules, or to list what would be generated.
Options of a command line take precedence over the configuration file (`Command.apply`). A `Plan` is a
configuration from which a run can start.
-/

namespace TypeExport

/-- Options of all commands. -/
structure SourceOptions where
  /-- The path of the configuration file. -/
  config : String := "dtogen.toml"
  schemaFile : Option String := none
  sourceDirectory : Option String := none
  ns : Option String := none
  includeNested : Bool := false
  deriving DecidableEq, Repr

inductive Command where
  /-- Generate modules, perhaps in a directory and with a barrel of another name. -/
  | generate (options : SourceOptions) (directory barrel : Option String)
  /-- List the roots and the files that would be generated. -/
  | discover (options : SourceOptions)
  deriving DecidableEq, Repr

/-- Why a command fails. -/
inductive CommandFault where
  /-- The configuration is not complete. -/
  | incomplete (e : ModelError)
  | model (e : ModelError)
  | exportFailed (e : ExportError)
  deriving DecidableEq, Repr

namespace CommandFault

def message : CommandFault → String
  | .incomplete _ =>
    "Invalid configuration. Pass --schema or --src and --namespace, or create dtogen.toml"
  | .model e => e.message
  | .exportFailed e => e.message

/-- What is behind the fault, if the message does not say all of it. -/
def cause? : CommandFault → Option String
  | .incomplete e => some e.message
  | .exportFailed (.io e) => some e.message
  | _ => none

/-- The report about the fault. -/
def report (f : CommandFault) : String :=
  "Error: " ++ f.message ++ "\n" ++
    match f.cause? with
    | some cause => "\nCaused by:\n    " ++ cause ++ "\n"
    | none => ""

end CommandFault

/-! ## Options and configurations -/

/-- The configuration with the options of all commands in it. A source on the command line replaces the
source of the configuration, of whichever kind that is. -/
def SourceOptions.apply (o : SourceOptions) (c : Config) : Config :=
  let source : SourceSettings := match o.schemaFile, o.sourceDirectory with
    | _, some path => ⟨none, some path⟩
    | some path, none => ⟨some path, none⟩
    | none, none => c.source
  { c with
    source
    discovery := ⟨o.ns.or c.discovery.ns, o.includeNested || c.discovery.includeNested⟩ }

namespace Command

def options : Command → SourceOptions
  | .generate o _ _ => o
  | .discover o => o

/-- The configuration with all options in it. -/
def apply (command : Command) (c : Config) : Config :=
  let c := command.options.apply c
  match command with
  | .generate _ directory barrel =>
    { c with output := ⟨directory.getD c.output.directory, barrel.getD c.output.barrel⟩ }
  | .discover _ => c

end Command

/-- What a run needs. -/
structure Plan where
  source : ModelSource
  filter : NamespaceFilter
  output : OutputSettings
  deriving Repr

/-- The plan that a configuration gives. -/
def Config.plan (c : Config) : Except CommandFault Plan := do
  c.validate.mapError .incomplete
  let source ← c.source.source.mapError .model
  return ⟨source, ⟨c.discovery.ns.getD "", c.discovery.includeNested⟩, c.output⟩

end TypeExport
