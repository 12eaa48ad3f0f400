import TypeExport.Schema.Basic

/-!
# Building models

Empty declarations, and what can be added to declarations and models. Additions go to the end of
their list. What a shape cannot hold is dropped: an enumeration takes no properties, and only an
enumeration takes members.
-/

namespace TypeExport

namespace Declaration

/-- A class without properties. -/
def emptyClass (ns name : String) : Declaration := { name, ns, shape := .classType false [] }

/-- An interface without properties. -/
def emptyInterface (ns name : String) : Declaration := { name, ns, shape := .interfaceType [] }

/-- An enumeration without members. -/
def emptyEnumeration (ns name : String) : Declaration := { name, ns, shape := .enumeration [] }

def markAbstract (d : Declaration) : Declaration := { d with shape := d.shape.markAbstract }

def describe (d : Declaration) (doc : String) : Declaration := { d with doc := some doc }

def addProperty (d : Declaration) (p : Property) : Declaration :=
  { d with shape := d.shape.addProperty p }

def addMember (d : Declaration) (m : Member) : Declaration :=
  { d with shape := d.shape.addMember m }

def addNested (d inner : Declaration) : Declaration := { d with nested := d.nested ++ [inner] }

end Declaration

namespace Schema

def addType (s : Schema) (d : Declaration) : Schema := { s with types := s.types ++ [d] }

def addEndpoint (s : Schema) (e : Endpoint) : Schema := { s with endpoints := s.endpoints ++ [e] }

end Schema

end TypeExport
