import Mathlib.Data.List.Basic
import TypeExport.Output.Bundle

/-!
# What cannot be seen is not exported

`Schema.redact` leaves out the properties that nobody outside can read, all documentation and the
names of endpoints. The files of a model, and the errors, depend on nothing of that.

* `Declaration.flatten_redact`, `Declaration.entries_redact`: what is nested is redacted as well.
* `Schema.resolve?_redact`: a name refers to the same declaration, redacted.
* `Schema.roots_redact`, `Output.declarationLines_redact`: neither the roots nor the lines of a
  declaration change.
* `Schema.render_eq_of_redact_eq`: models that are redacted to the same have the same files.
-/

namespace TypeExport

/-! ## Redaction -/

def Property.redact (p : Property) : Property := { p with doc := none }

/-- Only readable properties stay. -/
def Shape.redact : Shape → Shape
  | .classType a ps => .classType a ((ps.filter (·.isReadable)).map (·.redact))
  | .interfaceType ps => .interfaceType ((ps.filter (·.isReadable)).map (·.redact))
  | .enumeration ms => .enumeration ms

namespace Declaration

mutual

def redact : Declaration → Declaration
  | ⟨n, ns, s, ds, _⟩ => ⟨n, ns, s.redact, redactList ds, none⟩

def redactList : List Declaration → List Declaration
  | [] => []
  | d :: ds => d.redact :: redactList ds

end

end Declaration

def Endpoint.redact (e : Endpoint) : Endpoint := { e with name := "" }

def Entry.redact (e : Entry) : Entry := { e with declaration := e.declaration.redact }

/-- The model without hidden properties, documentation and names of endpoints. -/
def Schema.redact (s : Schema) : Schema :=
  ⟨s.types.map (·.redact), s.endpoints.map (·.redact)⟩

/-! ## Declarations -/

namespace Declaration

@[simp] theorem redact_name (d : Declaration) : d.redact.name = d.name := by
  cases d
  rfl

@[simp] theorem redact_ns (d : Declaration) : d.redact.ns = d.ns := by
  cases d
  rfl

theorem redact_shape (d : Declaration) : d.redact.shape = d.shape.redact := by
  cases d
  rfl

@[simp] theorem isConcreteClass_redact (d : Declaration) :
    d.redact.isConcreteClass = d.isConcreteClass := by
  unfold isConcreteClass
  rw [redact_shape]
  rcases d.shape with ⟨_ | _, ps⟩ | ps | ms <;> rfl

@[simp] theorem reference_redact (d : Declaration) : d.redact.reference = d.reference := by
  simp [reference]

/-- The readable properties stay, without their documentation. -/
theorem readable_redact (d : Declaration) : d.redact.readable = d.readable.map (·.redact) := by
  have hreadable : ∀ ps : List Property,
      ((ps.filter (·.isReadable)).map (·.redact)).filter (·.isReadable) =
        (ps.filter (·.isReadable)).map (·.redact) := fun ps => by
    rw [List.filter_eq_self]
    intro p hp
    obtain ⟨q, hq, rfl⟩ := List.mem_map.mp hp
    exact (List.mem_filter.mp hq).2
  unfold readable properties
  rw [redact_shape]
  cases d.shape with
  | classType a ps => exact hreadable ps
  | interfaceType ps => exact hreadable ps
  | enumeration ms => rfl

mutual

theorem flatten_redact : (d : Declaration) → d.redact.flatten = d.flatten.map (·.redact)
  | ⟨n, ns, s, ds, doc⟩ => by
    rw [redact, flatten, flatten, flattenList_redact ds]
    rfl

theorem flattenList_redact :
    (ds : List Declaration) → flattenList (redactList ds) = (flattenList ds).map (·.redact)
  | [] => rfl
  | d :: ds => by
    rw [redactList, flattenList, flattenList, flatten_redact d, flattenList_redact ds,
      List.map_append]

end

mutual

theorem entries_redact (parent : String) :
    (d : Declaration) → d.redact.entries parent = (d.entries parent).map (·.redact)
  | ⟨n, ns, s, ds, doc⟩ => by
    rw [redact, entries, entries, entriesList_redact (parent ++ "." ++ n) ds]
    rfl

theorem entriesList_redact (parent : String) : (ds : List Declaration) →
    entriesList parent (redactList ds) = (entriesList parent ds).map (·.redact)
  | [] => rfl
  | d :: ds => by
    rw [redactList, entriesList, entriesList, entries_redact parent d,
      entriesList_redact parent ds, List.map_append]

end

end Declaration

/-! ## Lines -/

namespace Output

theorem importNames_redact (d : Declaration) : importNames d.redact = importNames d := by
  unfold importNames
  rw [Declaration.readable_redact, List.flatMap_map, Declaration.redact_name]
  rfl

theorem ownLines_redact (d : Declaration) : ownLines d.redact = ownLines d := by
  have hproperties : d.redact.readable.map propertyLine = d.readable.map propertyLine := by
    rw [Declaration.readable_redact, List.map_map]
    rfl
  unfold ownLines importBlock
  rw [Declaration.redact_shape, Declaration.redact_name, importNames_redact, hproperties]
  cases d.shape <;> rfl

theorem declarationLines_redact (d : Declaration) :
    declarationLines d.redact = declarationLines d := by
  have hlines : ownLines ∘ Declaration.redact = ownLines := funext ownLines_redact
  unfold declarationLines
  rw [Declaration.flatten_redact, List.map_map, hlines]

end Output

theorem TypeModule.of_redact (d : Declaration) : TypeModule.of d.redact = TypeModule.of d := by
  rw [TypeModule.of, TypeModule.of, Declaration.redact_name, Output.declarationLines_redact]

/-! ## Look-up and roots -/

@[simp] theorem Entry.path_redact (e : Entry) : e.redact.path = e.path := by
  simp [Entry.path, Entry.redact]

namespace Schema

variable (s : Schema)

theorem allTypes_redact : s.redact.allTypes = s.allTypes.map (·.redact) := by
  have hentries : s.redact.types.flatMap (fun d => d.entries d.ns) =
      (s.types.flatMap fun d => d.entries d.ns).map (·.redact) := by
    rw [redact, List.flatMap_map, List.map_flatMap]
    exact List.flatMap_congr fun d _ => by rw [Declaration.redact_ns, d.entries_redact]
  unfold allTypes
  rw [hentries, List.map_map, List.map_map]
  rfl

/-- A name refers to the same declaration as before, redacted. -/
theorem resolve?_redact (n : String) : s.redact.resolve? n = (s.resolve? n).map (·.redact) := by
  have hfull : (fun e : Entry => e.redact.fullName == n) = fun e => e.fullName == n := rfl
  have hname : (fun e : Entry => e.redact.declaration.name == n) =
      fun e => e.declaration.name == n := funext fun e => by simp [Entry.redact]
  unfold resolve?
  simp only [allTypes_redact, List.find?_map, Function.comp_def, Entry.path_redact, hfull, hname,
    Option.map_or]
  split <;> rfl

theorem canonical_redact : s.redact.canonical = s.canonical := by
  funext t
  cases t with
  | named n =>
    simp only [canonical, resolve?_redact]
    cases s.resolve? n <;> rfl
  | primitive p => rfl
  | array e => rfl
  | generic w args => rfl

theorem candidates_redact (f : NamespaceFilter) : s.redact.candidates f = s.candidates f := by
  simp [candidates, redact, List.filter_map, Function.comp_def, Endpoint.redact]

theorem roots_redact (f : NamespaceFilter) : s.redact.roots f = s.roots f := by
  have hstep : s.redact.addRoot = s.addRoot := by
    unfold addRoot
    rw [canonical_redact]
  rw [roots, roots, candidates_redact, hstep]

theorem moduleOf_redact : s.redact.moduleOf = s.moduleOf := by
  funext t
  cases t with
  | named n =>
    simp only [moduleOf, resolve?_redact]
    cases s.resolve? n with
    | none => rfl
    | some e => exact congrArg Except.ok (TypeModule.of_redact e.declaration)
  | primitive p => rfl
  | array e => rfl
  | generic w args => rfl

/-- Redaction changes neither the files of a model nor the error. -/
theorem render_redact (f : NamespaceFilter) (barrel : String) :
    s.redact.render f barrel = s.render f barrel := by
  have hstep : s.redact.addModule = s.addModule := by
    unfold addModule
    rw [moduleOf_redact]
  rw [render, render, roots_redact, hstep]

/-- **What cannot be seen is not exported.** Two models that differ at most in hidden properties, in
documentation and in the names of endpoints have the same files for every filter, with the same
lines, or fail with the same error. -/
theorem render_eq_of_redact_eq {s t : Schema} (h : s.redact = t.redact) (f : NamespaceFilter)
    (barrel : String) : s.render f barrel = t.render f barrel := by
  rw [← s.render_redact, h, t.render_redact]

/-- A class with a nested one, an endpoint, and things that cannot be seen. -/
def sampleAccount : Schema where
  types := [{
    name := "Account"
    ns := "Bank"
    shape := .classType false [
      ⟨"Owner", .named "Customer", .exposed, some "Who signs."⟩,
      ⟨"Secret", .named "Token", .hidden, none⟩]
    nested := [{
      name := "Limit"
      ns := "Bank"
      shape := .interfaceType [
        ⟨"Pin", .generic (.custom "Vault") [], .writeOnly, some "Never shown."⟩,
        ⟨"Amount", .primitive .decimal, .exposed, none⟩]
      doc := some "Per day." }] }]
  endpoints := [⟨"GetAccount", "Bank", .generic .task [.named "Account"]⟩]

/-- A model of which the same can be seen. -/
def sampleAccountSeen : Schema where
  types := [{
    name := "Account"
    ns := "Bank"
    shape := .classType false [⟨"Owner", .named "Customer", .exposed, none⟩]
    nested := [{
      name := "Limit"
      ns := "Bank"
      shape := .interfaceType [
        ⟨"Amount", .primitive .decimal, .exposed, some "In cents."⟩,
        ⟨"Used", .named "Customer", .hidden, none⟩] }]
    doc := some "Of a customer." }]
  endpoints := [⟨"FindAccount", "Bank", .generic .task [.named "Account"]⟩]

theorem render_eq_of_redact_eq_sampleAccount :
    sampleAccount ≠ sampleAccountSeen ∧ sampleAccount.redact = sampleAccountSeen.redact ∧
      sampleAccount.render ⟨"Bank", false⟩ "index.ts" =
        sampleAccountSeen.render ⟨"Bank", false⟩ "index.ts" ∧
      sampleAccountSeen.render ⟨"Bank", false⟩ "index.ts" = .ok
        [⟨"Account.ts", ["import \x7bCustomer\x7d from \"./Customer\";", "",
            "export interface Account \x7b", "  owner: Customer;", "\x7d", "",
            "export interface Limit \x7b", "  amount: number;", "\x7d"]⟩,
          ⟨"index.ts", ["export \x7bAccount\x7d from \"./Account\";"]⟩] := by
  have hredact : sampleAccount.redact = sampleAccountSeen.redact := by decide
  exact ⟨by decide, hredact, render_eq_of_redact_eq hredact _ _, rfl⟩

end Schema

end TypeExport
