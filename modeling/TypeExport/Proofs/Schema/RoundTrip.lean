import TypeExport.Proofs.Json.Documents
import TypeExport.Proofs.Schema.WellTyped
import TypeExport.Schema.Encode
import TypeExport.Schema.Load

/-!
# Models read back as they were written

`Value.node` is the tree that a written document stands for, so a model reads back from its text if the
decoders undo `toValue`.

* `Declaration.ofNode_toValue`: a declaration is decoded from the tree of its document, if its types are
  well formed and its values have 64 bits.
* `Schema.ofNode_toValue`: so is a model.
* `Schema.toValue_storable`: the integers in a model's document are the values of members.
* `Schema.ofJson_toJson_of_wellFormed`: a model with well-formed type expressions reads back.
* `Schema.ofJson_toJson_eq_ok_iff`: which models read back from their texts.
-/

namespace TypeExport

open Data
open Json (Value)

/-! ## Properties, members and endpoints -/

theorem Visibility.ofTag_tag (v : Visibility) : ofTag v.tag = .ok v := by
  cases v <;> rfl

theorem int64_integer {i : Int} (h : isInt64 i = true) : (Json.integer i).int64 = .ok i := by
  obtain ⟨hlow, hhigh⟩ : -(int64Bound : Int) ≤ i ∧ i < int64Bound := by simpa [isInt64] using h
  unfold Json.integer
  split
  · next hi =>
    rw [Node.int64, if_pos (by omega), Int.toNat_of_nonneg hi]
  · rfl

/-- A list of documents is decoded item by item. -/
theorem list_toValue {α : Type} {decode : Node → Decoded α} {toValue : α → Value} (as : List α)
    (h : ∀ a ∈ as, decode (toValue a).node = .ok a) :
    Node.list decode (.seq (as.map (Value.node ∘ toValue))) = .ok as := by
  rw [Node.list, Node.items, Except.ok_bind]
  exact List.mapM_map_eq_ok h

theorem Property.ofNode_toValue {p : Property} (h : p.type.WellFormed) :
    Property.ofNode p.toValue.node = .ok p := by
  obtain ⟨name, type, visibility, doc⟩ := p
  cases doc <;>
    simp [Property.ofNode, Property.toValue, docEntry, Value.node, RecordForm.decode,
      RecordForm.ofEntries, RecordForm.putEntry, Property.form, Node.string, Node.typeExpr_display h,
      Visibility.ofNode, Visibility.ofTag_tag, Node.optional, Except.map, required]

theorem Member.ofNode_toValue {m : Member} (h : isInt64 m.value = true) :
    Member.ofNode m.toValue.node = .ok m := by
  simp [Member.ofNode, Member.toValue, Value.node, RecordForm.decode, RecordForm.ofEntries,
    RecordForm.putEntry, Member.form, Node.string, int64_integer h, required]

theorem Endpoint.ofNode_toValue {e : Endpoint} (surplus : Surplus) (h : e.returns.WellFormed) :
    Endpoint.ofNode surplus e.toValue.node = .ok e := by
  simp [Endpoint.ofNode, Endpoint.toValue, Value.node, RecordForm.decode, RecordForm.ofEntries,
    RecordForm.putEntry, Endpoint.form, Node.string, Node.typeExpr_display h, required]

/-! ## Declarations -/

/-- The kind that a shape's entries tell. -/
def Shape.kind : Shape → ShapeKind
  | .classType _ _ => .classType
  | .interfaceType _ => .interfaceType
  | .enumeration _ => .enumeration

theorem Shape.take_entries (shape : Shape) :
    (Value.entryNodes shape.entries).foldlM ShapeKind.take none = .ok (some shape.kind) := by
  cases shape <;>
    simp [Shape.entries, Shape.kind, Value.node, ShapeKind.take, ShapeKind.ofNode, ShapeKind.all,
      ShapeKind.tag, Except.map]

/-- A shape reads back from its entries. -/
theorem Shape.ofEntries_entries {shape : Shape} (htypes : ∀ p ∈ shape.properties, p.type.WellFormed)
    (hvalues : ∀ m ∈ shape.members, isInt64 m.value = true) :
    Shape.ofEntries (Value.entryNodes shape.entries) = .ok shape := by
  rw [Shape.ofEntries, Shape.take_entries, Except.ok_bind, required, Except.ok_bind]
  cases shape with
  | classType a ps =>
    have hps := list_toValue ps fun p hp => Property.ofNode_toValue (htypes p hp)
    simp [Shape.kind, Shape.entries, Value.node, Shape.form, RecordForm.ofEntries,
      RecordForm.putEntry, Node.skip, liftFault, Node.flag, hps]
  | interfaceType ps =>
    have hps := list_toValue ps fun p hp => Property.ofNode_toValue (htypes p hp)
    simp [Shape.kind, Shape.entries, Value.node, Shape.form, RecordForm.ofEntries,
      RecordForm.putEntry, Node.skip, liftFault, hps]
  | enumeration ms =>
    have hms := list_toValue ms fun m hm => Member.ofNode_toValue (hvalues m hm)
    simp [Shape.kind, Shape.entries, Value.node, Shape.form, RecordForm.ofEntries,
      RecordForm.putEntry, Node.skip, liftFault, hms]

namespace Declaration

/-- What a text can hold of a declaration, nested ones not included. -/
structure Writable (d : Declaration) : Prop where
  types : d.WellTyped
  values : ∀ m ∈ d.members, isInt64 m.value = true

theorem put_other {key : String} (h : key ∉ ["name", "namespace", "nested", "doc"]) (d : Draft)
    (v : Value) : put d key v.node = .ok { d with others := (.ok key, v.node) :: d.others } := by
  simp only [List.mem_cons, List.not_mem_nil, or_false, not_or] at h
  unfold put
  simp [h, Value.read_node, liftFault]

theorem ofEntries_shape (shape : Shape) (rest : List MapEntry) (d : Draft) :
    ofEntries (Value.entryNodes shape.entries ++ rest) d =
      ofEntries rest { d with others := (Value.entryNodes shape.entries).reverse ++ d.others } := by
  cases shape with
  | classType | interfaceType | enumeration => simp [Shape.entries, ofEntries_cons, put_other]

theorem ofEntries_nestedEntry {nested : List Declaration} {d : Draft} (hd : d.nested = none)
    (hlist : ofItems (Value.nodes (toValues nested)) = .ok nested) (rest : List MapEntry) :
    ∃ slot, slot.getD [] = nested ∧
      ofEntries (Value.entryNodes (nestedEntry nested) ++ rest) d =
        ofEntries rest { d with nested := slot } := by
  cases nested with
  | nil => exact ⟨none, rfl, by rw [← hd]; rfl⟩
  | cons e es =>
    refine ⟨some (e :: es), rfl, ?_⟩
    have hput : put d "nested" (Value.node (.array (e.toValue :: toValues es))) =
        .ok { d with nested := some (e :: es) } := by
      rw [toValues] at hlist
      simp only [put, hd, Value.node, listOfNode, hlist, once_none, Except.ok_bind]
    rw [nestedEntry, Value.entryNodes, List.cons_append, ofEntries_cons, hput]
    rfl

theorem ofEntries_docEntry (doc : Option String) {d : Draft} (hd : d.doc = none) :
    ∃ slot, slot.getD none = doc ∧
      ofEntries (Value.entryNodes (docEntry doc)) d = .ok { d with doc := slot } := by
  cases doc with
  | none => exact ⟨none, rfl, by rw [← hd]; rfl⟩
  | some doc =>
    refine ⟨some (some doc), rfl, ?_⟩
    simp [docEntry, ofEntries_cons, put, hd, Value.node, Node.optional, Node.string, Except.map, ofEntries]

mutual

theorem ofNode_toValue : ∀ d : Declaration, (∀ e ∈ d.flatten, e.Writable) →
    ofNode d.toValue.node = .ok d
  | ⟨name, ns, shape, nested, doc⟩, h => by
    rw [flatten, List.forall_mem_cons] at h
    obtain ⟨⟨htypes, hvalues⟩, hnested⟩ := h
    have hshape : Shape.ofEntries (Value.entryNodes shape.entries) = .ok shape :=
      Shape.ofEntries_entries htypes hvalues
    have hlist := ofItems_toValues nested hnested
    -- The draft after the entries of the shape, then with the nested declarations, then with all.
    let draft : Draft := ⟨some name, some ns, none, none, (Value.entryNodes shape.entries).reverse ++ []⟩
    obtain ⟨slot, hslot, hnestedEntry⟩ := ofEntries_nestedEntry (d := draft) rfl hlist
      (Value.entryNodes (docEntry doc))
    obtain ⟨docSlot, hdocSlot, hdocEntry⟩ := ofEntries_docEntry doc
      (d := { draft with nested := slot }) rfl
    have hstart : ∀ rest, ofEntries
        (Value.entryNodes ([("name", .text name), ("namespace", .text ns)] ++ shape.entries) ++ rest)
        {} = ofEntries rest draft := by
      intro rest
      simp only [Value.entryNodes, List.cons_append, List.nil_append, ofEntries_cons, put, once_none,
        Value.node, Node.string, Except.ok_bind]
      exact ofEntries_shape shape rest _
    rw [toValue, Value.node, ofNode, Value.entryNodes_append, Value.entryNodes_append,
      List.append_assoc, hstart, hnestedEntry, hdocEntry, Except.ok_bind]
    simp only [Draft.finish, draft, required, List.append_nil, List.reverse_reverse, hshape,
      Except.ok_bind, Option.getD_some, hslot, hdocSlot]

theorem ofItems_toValues : ∀ ds : List Declaration, (∀ e ∈ flattenList ds, e.Writable) →
    ofItems (Value.nodes (toValues ds)) = .ok ds
  | [], _ => rfl
  | d :: ds, h => by
    rw [flattenList, List.forall_mem_append] at h
    rw [toValues, Value.nodes, ofItems, ofNode_toValue d h.1, Except.ok_bind,
      ofItems_toValues ds h.2]
    rfl

end

end Declaration

/-! ## Integers -/

theorem docEntry_storable (doc : Option String) : ∀ e ∈ docEntry doc, e.2.Storable := by
  cases doc with
  | none => simp [docEntry]
  | some doc => simpa [docEntry] using .text doc

theorem Property.toValue_storable (p : Property) : p.toValue.Storable := by
  refine .object (List.forall_mem_append.mpr ⟨?_, docEntry_storable p.doc⟩)
  simpa using ⟨.text _, .text _, .text _⟩

theorem Member.toValue_storable {m : Member} (h : isInt64 m.value = true) : m.toValue.Storable :=
  .object (by simpa using ⟨.text _, .int h⟩)

theorem Endpoint.toValue_storable (e : Endpoint) : e.toValue.Storable :=
  .object (by simpa using ⟨.text _, .text _, .text _⟩)

theorem Shape.entries_storable {shape : Shape} (h : ∀ m ∈ shape.members, isInt64 m.value = true) :
    ∀ e ∈ shape.entries, e.2.Storable := by
  have hps (ps : List Property) : (Value.array (ps.map (·.toValue))).Storable :=
    .array (List.forall_mem_map.mpr fun p _ => p.toValue_storable)
  cases shape with
  | classType a ps => simpa [Shape.entries] using ⟨.text _, .bool a, hps ps⟩
  | interfaceType ps => simpa [Shape.entries] using ⟨.text _, hps ps⟩
  | enumeration ms =>
    have hms : (Value.array (ms.map (·.toValue))).Storable :=
      .array (List.forall_mem_map.mpr fun m hm => Member.toValue_storable (h m hm))
    simpa [Shape.entries] using ⟨.text _, hms⟩

namespace Declaration

theorem nestedEntry_storable {ds : List Declaration} (h : ∀ v ∈ toValues ds, v.Storable) :
    ∀ e ∈ nestedEntry ds, e.2.Storable := by
  cases ds with
  | nil => simp [nestedEntry]
  | cons d ds =>
    rw [toValues] at h
    simpa [nestedEntry] using .array h

mutual

theorem toValue_storable : ∀ d : Declaration,
    (∀ e ∈ d.flatten, ∀ m ∈ e.members, isInt64 m.value = true) → d.toValue.Storable
  | ⟨name, ns, shape, nested, doc⟩, h => by
    rw [flatten, List.forall_mem_cons] at h
    have hnested := nestedEntry_storable (storable_of_mem_toValues nested h.2)
    rw [toValue]
    refine .object ?_
    simp only [List.forall_mem_append]
    refine ⟨⟨⟨?_, Shape.entries_storable h.1⟩, hnested⟩, docEntry_storable doc⟩
    simpa using ⟨.text name, .text ns⟩

theorem storable_of_mem_toValues : ∀ ds : List Declaration,
    (∀ e ∈ flattenList ds, ∀ m ∈ e.members, isInt64 m.value = true) → ∀ v ∈ toValues ds, v.Storable
  | [], _ => by simp [toValues]
  | d :: ds, h => by
    rw [flattenList, List.forall_mem_append] at h
    rw [toValues, List.forall_mem_cons]
    exact ⟨toValue_storable d h.1, storable_of_mem_toValues ds h.2⟩

end

end Declaration

/-! ## Models -/

namespace Schema

theorem ofNode_toValue {s : Schema} (surplus : Surplus)
    (hdeclarations : ∀ d ∈ s.declarations, d.Writable)
    (hendpoints : ∀ e ∈ s.endpoints, e.returns.WellFormed) :
    ofNode surplus s.toValue.node = .ok s := by
  obtain ⟨types, endpoints⟩ := s
  have htypes : Declaration.listOfNode (.seq ((Declaration.toValues types).map Value.node)) =
      .ok types := by
    rw [← Value.nodes_eq_map]
    exact Declaration.ofItems_toValues types hdeclarations
  have hends := list_toValue endpoints
    fun e he => Endpoint.ofNode_toValue surplus (hendpoints e he)
  cases endpoints <;>
    simp_all [ofNode, toValue, Value.node, RecordForm.decode, RecordForm.ofEntries,
      RecordForm.putEntry, form]

/-- Only values of members can be too large for a text. -/
theorem toValue_storable {s : Schema} (h : ∀ m ∈ s.members, isInt64 m.value = true) :
    s.toValue.Storable := by
  have htypes : ∀ v ∈ Declaration.toValues s.types, v.Storable :=
    Declaration.storable_of_mem_toValues s.types (forall_members_iff.mp h)
  refine .object (List.forall_mem_append.mpr ⟨by simpa using .array htypes, ?_⟩)
  split
  · simp
  · simp only [List.mem_singleton, forall_eq]
    exact .array (List.forall_mem_map.mpr fun e _ => Endpoint.toValue_storable e)

theorem ofJson_toJson_of_wellFormed {s : Schema} (hvalues : ∀ m ∈ s.members, isInt64 m.value = true)
    (hdepth : s.toValue.depth ≤ 127) (htypes : ∀ t ∈ s.typeExprs, t.WellFormed) :
    ofJson s.toJson = .ok s := by
  have hdecode : Json.decode (ofNode .refuseText) s.toJson = ofNode .refuseText s.toValue.node :=
    Json.decode_compact _ (toValue_storable hvalues) hdepth
  obtain ⟨hproperties, hendpoints⟩ := forall_typeExprs_iff.mp htypes
  have hmembers := forall_members_iff.mp hvalues
  rw [ofJson, hdecode,
    ofNode_toValue .refuseText (fun d hd => ⟨hproperties d hd, hmembers d hd⟩) hendpoints]

/-- A model whose text is not nested too deeply reads back as it was written exactly if all of its
type expressions are well formed. -/
theorem ofJson_toJson_eq_ok_iff (s : Schema) (hvalues : ∀ m ∈ s.members, isInt64 m.value = true)
    (hdepth : s.toValue.depth ≤ 127) :
    ofJson s.toJson = .ok s ↔ ∀ t ∈ s.typeExprs, t.WellFormed :=
  ⟨wellFormed_of_ofJson, ofJson_toJson_of_wellFormed hvalues hdepth⟩

/-- A model with nested declarations, a text that needs escapes and wrappers in each other. -/
def sampleModel : Schema where
  types := [
    { name := "Order"
      ns := "Shop"
      shape := .classType false [
        ⟨"Rows", .generic .dictionary [.primitive .string, .array (.named "Shop.Line")], .hidden,
          some "a \"row\"\nper line"⟩]
      nested := [{ name := "State", ns := "Shop", shape := .enumeration [⟨"Lost", -1⟩, ⟨"Paid", 2⟩] }] }]
  endpoints := [⟨"All", "Shop", .generic .task [.generic (.custom "Paged") [.named "Shop.Order"]]⟩]

theorem ofJson_toJson_sampleModel :
    ⟨"Lost", -1⟩ ∈ sampleModel.members ∧ (∀ m ∈ sampleModel.members, isInt64 m.value = true) ∧
      sampleModel.toValue.depth ≤ 127 ∧ ofJson sampleModel.toJson = .ok sampleModel := by
  have hvalues : ∀ m ∈ sampleModel.members, isInt64 m.value = true := by decide
  have hdepth : sampleModel.toValue.depth ≤ 127 := by decide
  have htypes : ∀ t ∈ sampleModel.typeExprs, t.WellFormed := by decide +kernel
  exact ⟨by decide, hvalues, hdepth,
    (ofJson_toJson_eq_ok_iff sampleModel hvalues hdepth).mpr htypes⟩

end Schema

end TypeExport
