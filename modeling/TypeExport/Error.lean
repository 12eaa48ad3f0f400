import TypeExport.Data.Error
import TypeExport.Files.Access

/-!
# Errors

`ModelError` says why a model or a configuration cannot be had, `ExportError` why a model cannot be
exported. The wording of all of them is in `ModelError.message` and `ExportError.message`.
-/

namespace TypeExport

/-- What is wrong with a configuration. -/
inductive ConfigFault where
  | unreadable (e : OsError)
  /-- Not TOML, or not the right content. -/
  | malformed (detail : String)
  | noSource
  | twoSources
  | noNamespace
  | blankBarrel
  | noSourceDirectory (path : String)
  deriving DecidableEq, Repr

def ConfigFault.message : ConfigFault → String
  | .unreadable e => "Failed to read config file: " ++ e.message
  | .malformed detail => "Failed to parse config: " ++ detail
  | .noSource => "No metadata source: set source.schema or source.src_dir"
  | .twoSources => "source.schema and source.src_dir are mutually exclusive"
  | .noNamespace => "No namespace to generate: set discovery.namespace"
  | .blankBarrel => "output.barrel_file must not be empty"
  | .noSourceDirectory path => "Source directory not found: " ++ path

/-- What is wrong with a schema file, apart from its content. -/
inductive SchemaFault where
  | unreadable (path : String) (e : OsError)
  | unsupportedExtension (extension : String)
  deriving DecidableEq, Repr

def SchemaFault.message : SchemaFault → String
  | .unreadable path e => "Failed to read " ++ path ++ ": " ++ e.message
  | .unsupportedExtension extension => "Unsupported schema file extension: ." ++ extension

/-- The formats of schema files. -/
inductive TextFormat where
  | json
  | toml
  deriving DecidableEq, Repr

/-- Why a model or a configuration cannot be had. -/
inductive ModelError where
  | config (fault : ConfigFault)
  | schema (fault : SchemaFault)
  | typeExpr (e : TypeExpr.ParseError)
  /-- A text that is not well formed, or not the right content. -/
  | content (format : TextFormat) (detail : String)
  deriving DecidableEq, Repr

def ModelError.message : ModelError → String
  | .config fault => "Configuration error: " ++ fault.message
  | .schema fault => "Schema error: " ++ fault.message
  | .typeExpr e => e.message
  | .content _ detail => "Serialization error: " ++ detail

/-- Why a model cannot be exported. -/
inductive ExportError where
  /-- A candidate under a wrapper that cannot be taken off. -/
  | unsupportedShape (t : TypeExpr)
  /-- A candidate under more than `depth` wrappers. -/
  | tooDeep (t : TypeExpr) (depth : Nat)
  | unknownType (name : String)
  /-- Two roots whose modules would be one file. -/
  | duplicateFile (file : String) (first second : TypeExpr)
  | model (e : ModelError)
  | io (e : OsError)
  deriving DecidableEq, Repr

def ExportError.message : ExportError → String
  | .unsupportedShape t =>
    "Unsupported generic shape `" ++ t.display ++
      "`: only async results and enumerables can be unwrapped"
  | .tooDeep t depth =>
    "Unwrapping `" ++ t.display ++ "` exceeded " ++ toString depth ++ " wrapper levels"
  | .unknownType name => "Unknown type `" ++ name ++ "`: not declared in the schema"
  | .duplicateFile file first second =>
    "Types `" ++ first.display ++ "` and `" ++ second.display ++ "` would both be written to `" ++
      file ++ "`"
  | .model e => e.message
  | .io e => "IO error: " ++ e.message

end TypeExport
