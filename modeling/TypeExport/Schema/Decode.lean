import TypeExport.Data.Decoder
import TypeExport.Schema.Basic

/-!
# Decoding models

`Schema.ofNode` decodes a model from a tree of data.

A declaration is a map. Its name, namespace, nested declarations and documentation are decoded as
they come. Its other entries are only looked at when the map has been read to its end: first `kind`,
which says what the declaration is, then the entries that this kind has.
-/

namespace TypeExport

open Data
open Json (Fault)

/-! ## Properties and members -/

/-- The words for the visibilities. -/
def Visibility.tag : Visibility → String
  | .exposed => "public"
  | .hidden => "private"
  | .writeOnly => "write_only"

/-- The visibility that a word denotes. -/
def Visibility.ofTag (tag : String) : Decoded Visibility :=
  match [Visibility.exposed, .hidden, .writeOnly].find? (·.tag == tag) with
  | some v => .ok v
  | none => .error (.unknownVariant tag ["public", "private", "write_only"])

/-- A visibility is a word, or a map with the word as its only key. -/
def Visibility.ofNode : Node → Decoded Visibility
  | .text s => ofTag s
  | .map [(.ok key, n)] => do
    let v ← ofTag key
    match n with
    | .null | .map [] => .ok v
    | n => .error (n.mismatch "unit")
  | .map _ => .error (.wrongValue .map "map with a single key")
  | n => .error (n.mismatch "string or map")

structure Property.Draft where
  name : Option String := none
  type : Option TypeExpr := none
  visibility : Option Visibility := none
  doc : Option (Option String) := none

def Property.form : RecordForm Property.Draft where
  wanted := "struct PropertyDef"
  fields := [("name", true), ("type", true), ("visibility", false), ("doc", false)]
  blank := {}
  put d
    | "name", n => do .ok { d with name := ← once d.name "name" n.string }
    | "type", n => do .ok { d with type := ← once d.type "type" n.typeExpr }
    | "visibility", n => do
      .ok { d with visibility := ← once d.visibility "visibility" (Visibility.ofNode n) }
    | "doc", n => do .ok { d with doc := ← once d.doc "doc" (n.optional Node.string) }
    | _, _ => .ok d

def Property.ofNode (n : Node) : Decoded Property := do
  let d ← Property.form.decode .refuseLength n
  let name ← required d.name "name"
  let type ← required d.type "type"
  .ok ⟨name, type, d.visibility.getD .exposed, d.doc.getD none⟩

structure Member.Draft where
  name : Option String := none
  value : Option Int := none

def Member.form : RecordForm Member.Draft where
  wanted := "struct EnumMember"
  fields := [("name", true), ("value", true)]
  blank := {}
  put d
    | "name", n => do .ok { d with name := ← once d.name "name" n.string }
    | "value", n => do .ok { d with value := ← once d.value "value" n.int64 }
    | _, _ => .ok d

def Member.ofNode (n : Node) : Decoded Member := do
  let d ← Member.form.decode .refuseLength n
  let name ← required d.name "name"
  let value ← required d.value "value"
  .ok ⟨name, value⟩

/-! ## Shapes -/

/-- What a declaration declares, without its content. -/
inductive ShapeKind where
  | classType
  | interfaceType
  | enumeration
  deriving DecidableEq, Repr

namespace ShapeKind

/-- The words for the kinds. -/
def tag : ShapeKind → String
  | .classType => "class"
  | .interfaceType => "interface"
  | .enumeration => "enum"

def all : List ShapeKind := [.classType, .interfaceType, .enumeration]

/-- A kind is a word, or its position among the kinds where integers have no sign. -/
def ofNode : Node → Decoded ShapeKind
  | .text s => match all.find? (·.tag == s) with
    | some k => .ok k
    | none => .error (.unknownVariant s (all.map tag))
  | .unsigned n => match all[n]? with
    | some k => .ok k
    | none => .error (.wrongValue (.integer n) "variant index 0 <= i < 3")
  | n => .error (n.mismatch "variant identifier")

end ShapeKind

structure Shape.Draft where
  isAbstract : Option Bool := none
  properties : Option (List Property) := none
  members : Option (List Member) := none

/-- The content of a kind. -/
def Shape.form (kind : ShapeKind) : RecordForm Shape.Draft where
  wanted := "struct variant"
  fields := match kind with
    | .classType => [("abstract", false), ("properties", false)]
    | .interfaceType => [("properties", false)]
    | .enumeration => [("members", false)]
  blank := {}
  put d
    | "abstract", n => do .ok { d with isAbstract := ← once d.isAbstract "abstract" n.flag }
    | "properties", n => do
      .ok { d with properties := ← once d.properties "properties" (n.list Property.ofNode) }
    | "members", n => do
      .ok { d with members := ← once d.members "members" (n.list Member.ofNode) }
    | _, _ => .ok d

/-- Takes up the kind among the entries of a declaration. -/
def ShapeKind.take (kind : Option ShapeKind) : MapEntry → Decoded (Option ShapeKind)
  | (.ok "kind", n) => match kind with
    | some _ => .error (.duplicateField "kind")
    | none => (ofNode n).map some
  | _ => .ok kind

/-- The shape that the entries of a declaration describe. -/
def Shape.ofEntries (entries : List MapEntry) : Decoded Shape := do
  let kind ← required (← entries.foldlM ShapeKind.take none) "kind"
  let d ← (Shape.form kind).ofEntries entries
  .ok <| match kind with
    | .classType => .classType (d.isAbstract.getD false) (d.properties.getD [])
    | .interfaceType => .interfaceType (d.properties.getD [])
    | .enumeration => .enumeration (d.members.getD [])

/-! ## Declarations -/

structure Declaration.Draft where
  name : Option String := none
  ns : Option String := none
  nested : Option (List Declaration) := none
  doc : Option (Option String) := none
  /-- The entries that are looked at later, last one first. -/
  others : List MapEntry := []

/-- Completes a declaration. -/
def Declaration.Draft.finish (d : Declaration.Draft) : Decoded Declaration := do
  let name ← required d.name "name"
  let shape ← Shape.ofEntries d.others.reverse
  .ok ⟨name, d.ns.getD "", shape, d.nested.getD [], d.doc.getD none⟩

namespace Declaration

mutual

def ofNode : Node → Decoded Declaration
  | .map entries => do (← ofEntries entries {}).finish
  | .tooDeep (.map _) => .error (.fault .nestingLimit)
  | n => .error (n.mismatch "struct TypeDef")

/-- Adds the entries of a declaration to its draft. -/
def ofEntries : List MapEntry → Draft → Decoded Draft
  | [], d => .ok d
  | (.error f, _) :: _, _ => .error (.fault f)
  | (.ok key, n) :: rest, d => do
    let d ← match key with
      | "name" => do .ok { d with name := ← once d.name "name" n.string }
      | "namespace" => do .ok { d with ns := ← once d.ns "namespace" n.string }
      | "nested" => do .ok { d with nested := ← once d.nested "nested" (listOfNode n) }
      | "doc" => do .ok { d with doc := ← once d.doc "doc" (n.optional Node.string) }
      | key => do
        liftFault n.read
        .ok { d with others := (.ok key, n) :: d.others }
    ofEntries rest d

def listOfNode : Node → Decoded (List Declaration)
  | .seq items => ofItems items
  | .tooDeep (.seq _) => .error (.fault .nestingLimit)
  | n => .error (n.mismatch "a sequence")

def ofItems : List Node → Decoded (List Declaration)
  | [] => .ok []
  | n :: ns => do
    let d ← ofNode n
    let ds ← ofItems ns
    .ok (d :: ds)

end

end Declaration

/-! ## Endpoints and models -/

structure Endpoint.Draft where
  name : Option String := none
  ns : Option String := none
  returns : Option TypeExpr := none

def Endpoint.form : RecordForm Endpoint.Draft where
  wanted := "struct EndpointDef"
  fields := [("name", true), ("namespace", false), ("returns", true)]
  blank := {}
  put d
    | "name", n => do .ok { d with name := ← once d.name "name" n.string }
    | "namespace", n => do .ok { d with ns := ← once d.ns "namespace" n.string }
    | "returns", n => do .ok { d with returns := ← once d.returns "returns" n.typeExpr }
    | _, _ => .ok d

def Endpoint.ofNode (surplus : Surplus) (n : Node) : Decoded Endpoint := do
  let d ← Endpoint.form.decode surplus n
  let name ← required d.name "name"
  let returns ← required d.returns "returns"
  .ok ⟨name, d.ns.getD "", returns⟩

structure Schema.Draft where
  types : Option (List Declaration) := none
  endpoints : Option (List Endpoint) := none

def Schema.form (surplus : Surplus) : RecordForm Schema.Draft where
  wanted := "struct Schema"
  fields := [("types", false), ("endpoints", false)]
  blank := {}
  put d
    | "types", n => do .ok { d with types := ← once d.types "types" (Declaration.listOfNode n) }
    | "endpoints", n => do
      .ok { d with endpoints := ← once d.endpoints "endpoints" (n.list (Endpoint.ofNode surplus)) }
    | _, _ => .ok d

/-- The model that a tree describes. `surplus` is the text format's way with sequences that are too
long for a record. -/
def Schema.ofNode (surplus : Surplus) (n : Node) : Decoded Schema := do
  let d ← (Schema.form surplus).decode surplus n
  .ok ⟨d.types.getD [], d.endpoints.getD []⟩

end TypeExport
