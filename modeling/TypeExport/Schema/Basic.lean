import TypeExport.Text.Lowercase
import TypeExport.TypeExpr.Basic

/-!
# Models of declared types

A `Schema` lists the declarations of a model and the endpoints of its interface. A `Declaration` is
a class, an interface or an enumeration, with the declarations nested in it.
`Declaration.flatten` lists a declaration and all that is nested in it, outermost first.
-/

namespace TypeExport

/-- Who can read a property. -/
inductive Visibility where
  | exposed
  | hidden
  /-- It can be set from outside, but not read. -/
  | writeOnly
  deriving DecidableEq, Repr, Inhabited

/-- A declared property. -/
structure Property where
  name : String
  type : TypeExpr
  visibility : Visibility := .exposed
  doc : Option String := none
  deriving DecidableEq, Repr

/-- Code outside the type can read the property. -/
def Property.isReadable (p : Property) : Bool := p.visibility == .exposed

/-- The property's name in TypeScript. -/
def Property.tsName (p : Property) : String := Text.lowercaseInitial p.name

/-- A member of an enumeration with its value, a 64-bit integer. -/
structure Member where
  name : String
  value : Int
  deriving DecidableEq, Repr

/-- What a declaration declares. -/
inductive Shape where
  | classType (isAbstract : Bool) (properties : List Property)
  | interfaceType (properties : List Property)
  | enumeration (members : List Member)
  deriving DecidableEq, Repr, Inhabited

/-- A declared type. -/
structure Declaration where
  name : String
  /-- The namespace of the outermost declaration it is nested in. -/
  ns : String
  shape : Shape
  /-- The declarations inside this one. -/
  nested : List Declaration := []
  doc : Option String := none
  deriving Repr, Inhabited

/-- An operation of the model's interface. -/
structure Endpoint where
  name : String
  ns : String := ""
  /-- The declared type of its result, wrappers included. -/
  returns : TypeExpr
  deriving DecidableEq, Repr

/-- A model. -/
structure Schema where
  /-- The declarations that are not nested. -/
  types : List Declaration := []
  endpoints : List Endpoint := []
  deriving Repr, Inhabited

/-! ## Shapes -/

namespace Shape

/-- The declared properties; an enumeration has none. -/
def properties : Shape → List Property
  | .classType _ ps => ps
  | .interfaceType ps => ps
  | .enumeration _ => []

/-- The members; only an enumeration has any. -/
def members : Shape → List Member
  | .enumeration ms => ms
  | _ => []

/-- A class becomes abstract; other shapes stay. -/
def markAbstract : Shape → Shape
  | .classType _ ps => .classType true ps
  | s => s

/-- Adds a property; an enumeration stays. -/
def addProperty (p : Property) : Shape → Shape
  | .classType a ps => .classType a (ps ++ [p])
  | .interfaceType ps => .interfaceType (ps ++ [p])
  | .enumeration ms => .enumeration ms

/-- Adds a member to an enumeration; other shapes stay. -/
def addMember (m : Member) : Shape → Shape
  | .enumeration ms => .enumeration (ms ++ [m])
  | s => s

end Shape

/-! ## Declarations -/

namespace Declaration

mutual

/-- Equality of declarations is decided part by part. -/
def decEq : (a b : Declaration) → Decidable (a = b)
  | ⟨n, ns, s, ds, d⟩, ⟨n', ns', s', ds', d'⟩ =>
    if h : n = n' ∧ ns = ns' ∧ s = s' ∧ d = d' then
      match decEqList ds ds' with
      | isTrue hs => isTrue (by simp [h, hs])
      | isFalse hs => isFalse (by simp [hs])
    else isFalse (by
      simp only [Declaration.mk.injEq]
      exact fun hc => h ⟨hc.1, hc.2.1, hc.2.2.1, hc.2.2.2.2⟩)

def decEqList : (as bs : List Declaration) → Decidable (as = bs)
  | [], [] => isTrue rfl
  | a :: as, b :: bs => match decEq a b, decEqList as bs with
    | isTrue h, isTrue hs => isTrue (by rw [h, hs])
    | isFalse h, _ => isFalse (by simp [h])
    | _, isFalse hs => isFalse (by simp [hs])
  | [], _ :: _ | _ :: _, [] => isFalse (by simp)

end

instance : DecidableEq Declaration := decEq

def properties (d : Declaration) : List Property := d.shape.properties

def members (d : Declaration) : List Member := d.shape.members

/-- The properties that code outside the type can read. -/
def readable (d : Declaration) : List Property := d.properties.filter (·.isReadable)

def isEnumeration (d : Declaration) : Bool :=
  match d.shape with
  | .enumeration _ => true
  | _ => false

/-- A class that can have instances. -/
def isConcreteClass (d : Declaration) : Bool :=
  match d.shape with
  | .classType false _ => true
  | _ => false

mutual

/-- The declaration, then all that is nested in it, depth first. -/
def flatten : Declaration → List Declaration
  | ⟨n, ns, s, ds, doc⟩ => ⟨n, ns, s, ds, doc⟩ :: flattenList ds

def flattenList : List Declaration → List Declaration
  | [] => []
  | d :: ds => d.flatten ++ flattenList ds

end

end Declaration

instance : DecidableEq Schema := fun a b =>
  if h : a.types = b.types ∧ a.endpoints = b.endpoints then
    isTrue (by cases a; cases b; simp_all)
  else isFalse (by rintro rfl; exact h ⟨rfl, rfl⟩)

end TypeExport
