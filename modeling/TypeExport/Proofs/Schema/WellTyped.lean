import TypeExport.Proofs.Data.Decoder
import TypeExport.Proofs.Schema.Basic
import TypeExport.Schema.Load

/-!
# The types of decoded models

* `Schema.ofNode_wellFormed`: all type expressions of a decoded model are well formed, whatever the model
  is decoded from.
* `Schema.wellFormed_of_ofJson`, `Schema.wellFormed_of_ofToml`: so are those of models from texts.
-/

namespace TypeExport

open Data

/-! ## Properties, endpoints and shapes -/

section

variable {n : Node} {name : String}

/-- The type of a property comes from a type expression. -/
theorem Property.put_type {d d' : Property.Draft} (hd : ∀ t ∈ d.type, t.WellFormed)
    (h : Property.form.put d name n = .ok d') : ∀ t ∈ d'.type, t.WellFormed := by
  simp only [Property.form] at h
  split at h
  case h_2 =>
    obtain ⟨-, t, ht, rfl⟩ := once_bind_eq_ok_iff.mp h
    simpa using Node.typeExpr_wellFormed ht
  case h_5 =>
    cases h
    exact hd
  all_goals
    obtain ⟨-, -, -, rfl⟩ := once_bind_eq_ok_iff.mp h
    exact hd

theorem Property.ofNode_wellFormed {p : Property} (h : Property.ofNode n = .ok p) :
    p.type.WellFormed := by
  obtain ⟨d, hd, h⟩ := Except.bind_eq_ok_iff.mp h
  obtain ⟨name, -, h⟩ := Except.bind_eq_ok_iff.mp h
  obtain ⟨type, htype, h⟩ := Except.bind_eq_ok_iff.mp h
  cases h
  have hinv : ∀ t ∈ d.type, t.WellFormed :=
    RecordForm.decode_preserves (P := fun d => ∀ t ∈ d.type, t.WellFormed) (by rintro t ⟨⟩)
      (fun _ _ _ _ => Property.put_type) hd
  exact hinv type (required_eq_ok_iff.mp htype)

/-- The result of an endpoint comes from a type expression. -/
theorem Endpoint.put_returns {d d' : Endpoint.Draft} (hd : ∀ t ∈ d.returns, t.WellFormed)
    (h : Endpoint.form.put d name n = .ok d') : ∀ t ∈ d'.returns, t.WellFormed := by
  simp only [Endpoint.form] at h
  split at h
  case h_3 =>
    obtain ⟨-, t, ht, rfl⟩ := once_bind_eq_ok_iff.mp h
    simpa using Node.typeExpr_wellFormed ht
  case h_4 =>
    cases h
    exact hd
  all_goals
    obtain ⟨-, -, -, rfl⟩ := once_bind_eq_ok_iff.mp h
    exact hd

theorem Endpoint.ofNode_wellFormed {surplus : Surplus} {e : Endpoint}
    (h : Endpoint.ofNode surplus n = .ok e) : e.returns.WellFormed := by
  obtain ⟨d, hd, h⟩ := Except.bind_eq_ok_iff.mp h
  obtain ⟨name, -, h⟩ := Except.bind_eq_ok_iff.mp h
  obtain ⟨returns, hreturns, h⟩ := Except.bind_eq_ok_iff.mp h
  cases h
  have hinv : ∀ t ∈ d.returns, t.WellFormed :=
    RecordForm.decode_preserves (P := fun d => ∀ t ∈ d.returns, t.WellFormed) (by rintro t ⟨⟩)
      (fun _ _ _ _ => Endpoint.put_returns) hd
  exact hinv returns (required_eq_ok_iff.mp hreturns)

/-- The properties of a draft have well-formed types. -/
def Shape.Draft.WellTyped (d : Shape.Draft) : Prop :=
  ∀ ps ∈ d.properties, ∀ p ∈ ps, p.type.WellFormed

theorem Shape.put_wellTyped {kind : ShapeKind} {d d' : Shape.Draft} (hd : d.WellTyped)
    (h : (Shape.form kind).put d name n = .ok d') : d'.WellTyped := by
  simp only [Shape.form] at h
  split at h
  case h_2 =>
    obtain ⟨-, ps, hps, rfl⟩ := once_bind_eq_ok_iff.mp h
    simpa [Shape.Draft.WellTyped] using
      Node.forall_of_list (fun _ _ => Property.ofNode_wellFormed) hps
  case h_4 =>
    cases h
    exact hd
  all_goals
    obtain ⟨-, -, -, rfl⟩ := once_bind_eq_ok_iff.mp h
    exact hd

theorem Shape.Draft.WellTyped.getD {d : Shape.Draft} (hd : d.WellTyped) :
    ∀ p ∈ d.properties.getD [], p.type.WellFormed := by
  cases hp : d.properties with
  | none => simp
  | some ps => exact hd ps hp

theorem Shape.ofEntries_wellTyped {entries : List MapEntry} {shape : Shape}
    (h : Shape.ofEntries entries = .ok shape) : ∀ p ∈ shape.properties, p.type.WellFormed := by
  obtain ⟨slot, -, h⟩ := Except.bind_eq_ok_iff.mp h
  obtain ⟨kind, -, h⟩ := Except.bind_eq_ok_iff.mp h
  obtain ⟨d, hd, h⟩ := Except.bind_eq_ok_iff.mp h
  have hinv : d.WellTyped :=
    List.foldlM_preserves
      (fun _ _ _ hd => RecordForm.putEntry_preserves (fun _ _ _ _ => Shape.put_wellTyped) hd)
      (by rintro ps ⟨⟩) hd
  cases kind <;> cases h
  · exact hinv.getD
  · exact hinv.getD
  · simp [Shape.properties]

end

/-! ## Declarations and models -/

/-- The properties of a declaration, those of nested ones not included, have well-formed types. -/
def Declaration.WellTyped (d : Declaration) : Prop := ∀ p ∈ d.properties, p.type.WellFormed

namespace Declaration

/-- The nested declarations of a draft, and those nested in them, are well typed. -/
def Draft.WellTyped (d : Draft) : Prop := ∀ ds ∈ d.nested, ∀ e ∈ flattenList ds, e.WellTyped

theorem finish_wellTyped {draft : Draft} {d : Declaration} (hdraft : draft.WellTyped)
    (h : draft.finish = .ok d) : ∀ e ∈ d.flatten, e.WellTyped := by
  obtain ⟨name, -, h⟩ := Except.bind_eq_ok_iff.mp h
  obtain ⟨shape, hshape, h⟩ := Except.bind_eq_ok_iff.mp h
  cases h
  simp only [flatten, List.forall_mem_cons]
  refine ⟨Shape.ofEntries_wellTyped hshape, ?_⟩
  cases hn : draft.nested with
  | none => simp [flattenList]
  | some ds => exact hdraft ds hn

mutual

theorem ofNode_wellTyped : ∀ (n : Node) {d : Declaration}, ofNode n = .ok d →
    ∀ e ∈ d.flatten, e.WellTyped
  | .map entries, d, h => by
    rw [ofNode] at h
    obtain ⟨draft, hdraft, h⟩ := Except.bind_eq_ok_iff.mp h
    exact finish_wellTyped (ofEntries_wellTyped entries (by rintro ds ⟨⟩) hdraft) h
  | .tooDeep n, d, h => by cases n <;> cases h
  | .null, _, h | .bool _, _, h | .unsigned _, _, h | .signed _, _, h | .float _, _, h
  | .text _, _, h | .seq _, _, h | .refused _, _, h | .broken _ _, _, h => by cases h

theorem ofEntries_wellTyped : ∀ (entries : List MapEntry) {draft draft' : Draft},
    draft.WellTyped → ofEntries entries draft = .ok draft' → draft'.WellTyped
  | [], draft, draft', hdraft, h => by
    cases h
    exact hdraft
  | (.error f, n) :: rest, draft, draft', hdraft, h => by cases h
  | (.ok key, n) :: rest, draft, draft', hdraft, h => by
    rw [ofEntries_cons] at h
    obtain ⟨next, hnext, h⟩ := Except.bind_eq_ok_iff.mp h
    refine ofEntries_wellTyped rest ?_ h
    unfold put at hnext
    split at hnext
    case h_3 =>
      obtain ⟨-, ds, hds, rfl⟩ := once_bind_eq_ok_iff.mp hnext
      simpa [Draft.WellTyped] using listOfNode_wellTyped n hds
    all_goals
      obtain ⟨slot, -, hnext⟩ := Except.bind_eq_ok_iff.mp hnext
      cases hnext
      exact hdraft

theorem listOfNode_wellTyped : ∀ (n : Node) {ds : List Declaration}, listOfNode n = .ok ds →
    ∀ e ∈ flattenList ds, e.WellTyped
  | .seq items, ds, h => ofItems_wellTyped items h
  | .tooDeep n, d, h => by cases n <;> cases h
  | .null, _, h | .bool _, _, h | .unsigned _, _, h | .signed _, _, h | .float _, _, h
  | .text _, _, h | .map _, _, h | .refused _, _, h | .broken _ _, _, h => by cases h

theorem ofItems_wellTyped : ∀ (ns : List Node) {ds : List Declaration}, ofItems ns = .ok ds →
    ∀ e ∈ flattenList ds, e.WellTyped
  | [], ds, h => by
    cases h
    simp [flattenList]
  | n :: ns, ds, h => by
    obtain ⟨d, hd, h⟩ := Except.bind_eq_ok_iff.mp h
    obtain ⟨ds', hds, h⟩ := Except.bind_eq_ok_iff.mp h
    cases h
    simp only [flattenList, List.forall_mem_append]
    exact ⟨ofNode_wellTyped n hd, ofItems_wellTyped ns hds⟩

end

end Declaration

/-- A draft of a model whose declarations and endpoints have well-formed types. -/
def Schema.Draft.WellTyped (d : Schema.Draft) : Prop :=
  (∀ ds ∈ d.types, ∀ e ∈ Declaration.flattenList ds, e.WellTyped) ∧
    ∀ es ∈ d.endpoints, ∀ e ∈ es, e.returns.WellFormed

theorem Schema.put_wellTyped {surplus : Surplus} {n : Node} {name : String} {d d' : Schema.Draft}
    (hd : d.WellTyped) (h : (Schema.form surplus).put d name n = .ok d') : d'.WellTyped := by
  obtain ⟨htypes, hendpoints⟩ := hd
  simp only [Schema.form] at h
  split at h
  · obtain ⟨-, ds, hds, rfl⟩ := once_bind_eq_ok_iff.mp h
    refine ⟨?_, hendpoints⟩
    simpa using Declaration.listOfNode_wellTyped n hds
  · obtain ⟨-, es, hes, rfl⟩ := once_bind_eq_ok_iff.mp h
    refine ⟨htypes, ?_⟩
    simpa using Node.forall_of_list (fun _ _ => Endpoint.ofNode_wellFormed) hes
  · cases h
    exact ⟨htypes, hendpoints⟩

/-- All type expressions of a decoded model are well formed. -/
theorem Schema.ofNode_wellFormed {surplus : Surplus} {n : Node} {s : Schema}
    (h : Schema.ofNode surplus n = .ok s) : ∀ t ∈ s.typeExprs, t.WellFormed := by
  obtain ⟨d, hd, h⟩ := Except.bind_eq_ok_iff.mp h
  cases h
  obtain ⟨htypes, hendpoints⟩ : d.WellTyped :=
    RecordForm.decode_preserves (P := Schema.Draft.WellTyped) ⟨by rintro ds ⟨⟩, by rintro es ⟨⟩⟩
      (fun _ _ _ _ => Schema.put_wellTyped) hd
  refine Schema.forall_typeExprs_iff.mpr ⟨?_, ?_⟩
  · cases ht : d.types with
    | none => simp [Schema.declarations, Declaration.flattenList]
    | some ds => exact htypes ds ht
  · cases he : d.endpoints with
    | none => simp
    | some es => exact hendpoints es he

/-! ## Decoded texts -/

theorem Json.exists_node_of_decode {α : Type} {decoder : Node → Decoded α} {text : String} {a : α}
    (h : decode decoder text = .ok a) : ∃ n, decoder n = .ok a := by
  obtain ⟨b, hb, h⟩ := Except.bind_eq_ok_iff.mp h
  refine ⟨_, hb.trans ?_⟩
  split at h <;> cases h
  rfl

theorem Toml.exists_node_of_decode {α : Type} {decoder : Node → Decoded α} {text : String} {a : α}
    (h : decode decoder text = .ok a) : ∃ n, decoder n = .ok a := by
  unfold decode at h
  split at h
  · cases h
  · next t _ =>
    split at h
    · next b hb =>
      cases h
      exact ⟨_, hb⟩
    · cases h

namespace Schema

variable {text : String} {s : Schema}

theorem wellFormed_of_ofJson (h : ofJson text = .ok s) : ∀ t ∈ s.typeExprs, t.WellFormed := by
  unfold ofJson at h
  split at h
  · next hs =>
    cases h
    obtain ⟨n, hn⟩ := Json.exists_node_of_decode hs
    exact ofNode_wellFormed hn
  · cases h

theorem wellFormed_of_ofToml (h : ofToml text = .ok s) : ∀ t ∈ s.typeExprs, t.WellFormed := by
  unfold ofToml at h
  split at h
  · next hs =>
    cases h
    obtain ⟨n, hn⟩ := Toml.exists_node_of_decode hs
    exact ofNode_wellFormed hn
  · cases h

end Schema

end TypeExport
