import TypeExport.Proofs.Lists
import TypeExport.Schema.Decode

/-!
# Parts of models, and declarations entry by entry

* `Schema.declarations`, `Schema.members`, `Schema.typeExprs`: all that a model has of a kind.
* `Declaration.put`: what an entry adds to the draft of a declaration. `Declaration.ofEntries_cons`
  decodes the entries with it one after the other.
-/

namespace TypeExport

open Data

namespace Schema

/-- The declarations of a model, nested ones included. -/
def declarations (s : Schema) : List Declaration := Declaration.flattenList s.types

/-- The members of all enumerations of a model. -/
def members (s : Schema) : List Member := s.declarations.flatMap (·.members)

/-- The type expressions in a model: the types of all properties and the results of the endpoints. -/
def typeExprs (s : Schema) : List TypeExpr :=
  s.declarations.flatMap (·.properties.map (·.type)) ++ s.endpoints.map (·.returns)

theorem forall_members_iff {s : Schema} {P : Member → Prop} :
    (∀ m ∈ s.members, P m) ↔ ∀ d ∈ s.declarations, ∀ m ∈ d.members, P m := by
  simp only [members, List.forall_mem_flatMap]

theorem forall_typeExprs_iff {s : Schema} {P : TypeExpr → Prop} :
    (∀ t ∈ s.typeExprs, P t) ↔
      (∀ d ∈ s.declarations, ∀ p ∈ d.properties, P p.type) ∧ ∀ e ∈ s.endpoints, P e.returns := by
  simp only [typeExprs, List.forall_mem_append, List.forall_mem_flatMap, List.forall_mem_map]

end Schema

namespace Declaration

/-- Adds an entry to the draft of a declaration. -/
def put (d : Draft) (key : String) (n : Node) : Decoded Draft :=
  match key with
  | "name" => do .ok { d with name := ← once d.name "name" n.string }
  | "namespace" => do .ok { d with ns := ← once d.ns "namespace" n.string }
  | "nested" => do .ok { d with nested := ← once d.nested "nested" (listOfNode n) }
  | "doc" => do .ok { d with doc := ← once d.doc "doc" (n.optional Node.string) }
  | key => do
    liftFault n.read
    .ok { d with others := (.ok key, n) :: d.others }

theorem ofEntries_cons (key : String) (n : Node) (rest : List MapEntry) (d : Draft) :
    ofEntries ((.ok key, n) :: rest) d = put d key n >>= ofEntries rest := by
  rw [ofEntries.eq_def, put.eq_def]
  dsimp only
  split
  all_goals simp only [bind_assoc]

end Declaration

end TypeExport
