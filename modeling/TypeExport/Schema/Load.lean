import TypeExport.Config.Basic
import TypeExport.Files.Path
import TypeExport.Json.Reader
import TypeExport.Schema.Decode
import TypeExport.Source.Project
import TypeExport.Toml.Document

/-!
# Loading models

`Schema.ofJson` and `Schema.ofToml` read a model from a text, `Schema.read` from a file whose extension
tells the format, and `ModelSource.load` from wherever it comes.
-/

namespace TypeExport

namespace Schema

/-- The model in a JSON text. -/
def ofJson (text : String) : Except ModelError Schema :=
  match Json.decode (ofNode .refuseText) text with
  | .ok s => .ok s
  | .error e => .error (.content .json (e.message Json.floatFormat))

/-- The model in a TOML text. -/
def ofToml (text : String) : Except ModelError Schema :=
  match Toml.decode (ofNode .ignore) text with
  | .ok s => .ok s
  | .error e => .error (.content .toml e.message)

/-- The model in the text of a file with an extension. Without an extension it is JSON. -/
def ofText (extension? : Option String) (text : String) : Except ModelError Schema :=
  match extension? with
  | some "toml" => ofToml text
  | some "json" | none => ofJson text
  | some extension => .error (.schema (.unsupportedExtension extension))

variable {m : Type → Type} [Monad m] (files : FileAccess m)

/-- The model in a file. -/
def read (path : String) : m (Except ModelError Schema) := do
  match ← files.readText path with
  | .ok text => return ofText (Path.extension? path) text
  | .error e => return .error (.schema (.unreadable path e))

end Schema

/-- Loads the model from its source. -/
def ModelSource.load {m : Type → Type} [Monad m] (files : FileAccess m) :
    ModelSource → m (Except ExportError Schema)
  | .schemaFile path => do return (← Schema.read files path).mapError .model
  | .sourceDirectory path => do
    if ← files.isDirectory path then Schema.scan files path
    else return .error (.model (.config (.noSourceDirectory path)))

end TypeExport
