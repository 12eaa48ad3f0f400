import TypeExport.Config.Basic
import TypeExport.Config.Placeholder
import TypeExport.Files.Access
import TypeExport.Toml.Document

/-!
# Reading configurations

A configuration is a TOML text with placeholders for environment variables. `Config.ofToml` reads a
text, `Config.read` a file.
-/

namespace TypeExport

open Data

structure SourceSettings.Draft where
  schemaFile : Option (Option String) := none
  sourceDirectory : Option (Option String) := none

def SourceSettings.form : RecordForm SourceSettings.Draft where
  wanted := "struct SourceConfig"
  fields := [("schema", true), ("src_dir", true)]
  blank := {}
  put d
    | "schema", n => do
      .ok { d with schemaFile := ← once d.schemaFile "schema" (n.optional Node.path) }
    | "src_dir", n => do
      .ok { d with sourceDirectory := ← once d.sourceDirectory "src_dir" (n.optional Node.path) }
    | _, _ => .ok d

def SourceSettings.ofNode (n : Node) : Decoded SourceSettings := do
  let d ← form.decode .ignore n
  .ok ⟨d.schemaFile.getD none, d.sourceDirectory.getD none⟩

structure OutputSettings.Draft where
  directory : Option String := none
  barrel : Option String := none

def OutputSettings.form : RecordForm OutputSettings.Draft where
  wanted := "struct OutputConfig"
  fields := [("dir", false), ("barrel_file", false)]
  blank := {}
  put d
    | "dir", n => do .ok { d with directory := ← once d.directory "dir" n.path }
    | "barrel_file", n => do .ok { d with barrel := ← once d.barrel "barrel_file" n.string }
    | _, _ => .ok d

def OutputSettings.ofNode (n : Node) : Decoded OutputSettings := do
  let d ← form.decode .ignore n
  let usual : OutputSettings := {}
  .ok ⟨d.directory.getD usual.directory, d.barrel.getD usual.barrel⟩

structure DiscoverySettings.Draft where
  ns : Option (Option String) := none
  includeNested : Option Bool := none

def DiscoverySettings.form : RecordForm DiscoverySettings.Draft where
  wanted := "struct DiscoveryConfig"
  fields := [("namespace", true), ("include_nested_namespaces", false)]
  blank := {}
  put d
    | "namespace", n => do .ok { d with ns := ← once d.ns "namespace" (n.optional Node.string) }
    | "include_nested_namespaces", n => do
      .ok { d with includeNested := ← once d.includeNested "include_nested_namespaces" n.flag }
    | _, _ => .ok d

def DiscoverySettings.ofNode (n : Node) : Decoded DiscoverySettings := do
  let d ← form.decode .ignore n
  .ok ⟨d.ns.getD none, d.includeNested.getD false⟩

structure Config.Draft where
  source : Option SourceSettings := none
  output : Option OutputSettings := none
  discovery : Option DiscoverySettings := none

def Config.form : RecordForm Config.Draft where
  wanted := "struct DtogenConfig"
  fields := [("source", false), ("output", false), ("discovery", false)]
  blank := {}
  put d
    | "source", n => do
      .ok { d with source := ← once d.source "source" (SourceSettings.ofNode n) }
    | "output", n => do
      .ok { d with output := ← once d.output "output" (OutputSettings.ofNode n) }
    | "discovery", n => do
      .ok { d with discovery := ← once d.discovery "discovery" (DiscoverySettings.ofNode n) }
    | _, _ => .ok d

namespace Config

def ofNode (n : Node) : Decoded Config := do
  let d ← form.decode .ignore n
  .ok ⟨d.source.getD {}, d.output.getD {}, d.discovery.getD {}⟩

/-- The configuration in a text. -/
def ofToml (env : Placeholder.Environment) (text : String) : Except ModelError Config :=
  match Toml.decode ofNode (Placeholder.substitute env text) with
  | .ok c => .ok c
  | .error e => .error (.config (.malformed e.message))

/-- The configuration in a file. -/
def read {m : Type → Type} [Monad m] (files : FileAccess m) (env : Placeholder.Environment)
    (path : String) : m (Except ModelError Config) := do
  match ← files.readText path with
  | .ok text => return ofToml env text
  | .error e => return .error (.config (.unreadable e))

end Config

end TypeExport
