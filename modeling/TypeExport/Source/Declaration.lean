import TypeExport.Data.IntegerRange
import TypeExport.Schema.Basic
import TypeExport.Source.FieldOption
import TypeExport.Source.TypeExpr
import TypeExport.Text.Blank

/-!
# From items to declarations

`Source.declarations` lists the declarations in the items of a file: a class for each public structure
with named fields and no types as parameters, and an enumeration for each public enumeration whose
members have no fields. The items of a module are in a namespace of their own, whoever can see the
module.
-/

namespace TypeExport.Source

/-! ## Documentation -/

/-- The text of a documentation attribute, without the blanks around it. -/
def Attribute.docText? (a : Attribute) : Option String :=
  match a.content with
  | .value (.literal (.text s)) => if a.isNamed "doc" then some (Text.trim s) else none
  | _ => none

/-- The documentation in attributes, a line for each. -/
def documentation (as : List Attribute) : Option String :=
  match as.filterMap Attribute.docText? with
  | [] => none
  | texts => some (String.intercalate "\n" texts)

/-! ## Structures -/

/-- The property for a field. -/
def Field.toProperty (f : Field) : Property :=
  let options := FieldOption.ofAttributes f.attributes
  { name := (FieldOption.newName? options).getD f.name
    type := f.type.toExpr
    visibility := if f.isPublic && !FieldOption.areSkipping options then .exposed else .hidden
    doc := documentation f.attributes }

/-- The class for a structure. -/
def StructItem.declaration? (s : StructItem) (ns : String) : Option Declaration :=
  match s.fields with
  | .named fields =>
    if s.isPublic && !s.isGeneric then
      some { name := s.name, ns, shape := .classType false (fields.map Field.toProperty),
             doc := documentation s.attributes }
    else none
  | _ => none

/-! ## Enumerations -/

/-- The number that an expression gives, if it is a literal, perhaps with signs and parentheses. A
number that has no signed representation in 64 bits is none. -/
def Expr.integer? : Expr → Option Int
  | .literal (.integer n _) => if n < int64Bound then some n else none
  | .negative e => e.integer?.map (- ·)
  | .parens e => e.integer?
  | _ => none

def Fields.isNone : Fields → Bool
  | .none => true
  | _ => false

/-- Members with their values. A member without a readable value has one more than the member before
it. -/
def membersFrom (next : Int) : List Variant → List Member
  | [] => []
  | v :: vs =>
    let value := (v.value.bind Expr.integer?).getD next
    ⟨v.name, value⟩ :: membersFrom ((value + 1).bmod UInt64.size) vs

/-- The declaration for an enumeration. -/
def EnumItem.declaration? (e : EnumItem) (ns : String) : Option Declaration :=
  if e.isPublic && e.variants.all (·.fields.isNone) then
    some { name := e.name, ns, shape := .enumeration (membersFrom 0 e.variants),
           doc := documentation e.attributes }
  else none

/-! ## Items -/

mutual

/-- The declarations in an item. -/
def Item.declarations (ns : String) : Item → List Declaration
  | .structure s => (s.declaration? ns).toList
  | .enumeration e => (e.declaration? ns).toList
  | .module name items => declarations (ns ++ "::" ++ name) items
  | .other => []

/-- The declarations in items. -/
def declarations (ns : String) : List Item → List Declaration
  | [] => []
  | i :: is => i.declarations ns ++ declarations ns is

end

end TypeExport.Source
