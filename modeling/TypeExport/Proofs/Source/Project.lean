import TypeExport.Proofs.Actions
import TypeExport.Proofs.Schema.Basic
import TypeExport.Proofs.Json.Documents
import TypeExport.Proofs.Source.Declaration
import TypeExport.Schema.Encode
import TypeExport.Source.Project

/-!
# Models of source files

A scan visits files on any file system, and what it finds there are declarations of source files.

* `Schema.FromSource`: what the models of scans are like (`Schema.fromSource_of_scan`).
* `Schema.FromSource.exists_toExpr`: their type expressions are those for types in source files.
* `Schema.FromSource.depth_toValue_le`: their texts are never nested deeply.
-/

namespace TypeExport

open Json (Value)
open Json.Value (depth depth_array_le_iff depth_object_le_iff)

/-! ## What a scan finds -/

/-- What the models of source files are like: there are no endpoints, and all declarations are declarations
of source files. -/
structure Schema.FromSource (s : Schema) : Prop where
  endpoints : s.endpoints = []
  types : ∀ d ∈ s.types, Source.FromItem d

namespace Source.SourceFile

theorem fromItem_of_mem (f : SourceFile) (text : String) :
    ∀ d ∈ f.declarations text, FromItem d := by
  intro d hd
  unfold declarations at hd
  split at hd
  · exact Source.fromItem_of_mem _ _ d hd
  · cases hd

variable {σ : Type}

/-- The step of a scan at a file. -/
def load (files : FileAccess (StateM σ)) (f : SourceFile) :
    ExceptT ExportError (StateM σ) (List Declaration) := do
  match ← files.readText f.path with
  | .ok text => return f.declarations text
  | .error e => throw (.io e)

theorem fromItem_of_load {files : FileAccess (StateM σ)} {f : SourceFile} {st : σ}
    {ds : List Declaration} (h : ((f.load files).run.run st).1 = .ok ds) :
    ∀ d ∈ ds, FromItem d := by
  obtain ⟨read, -, h⟩ := exists_of_run_bind h
  cases read with
  | ok text =>
    cases h
    exact f.fromItem_of_mem text
  | error e => cases h

end Source.SourceFile

namespace Schema

variable {σ : Type} {files : FileAccess (StateM σ)} {root : String} {st : σ} {s : Schema}

/-- A model of a scan has the declarations of its files one after the other. -/
theorem exists_parts_of_scan (h : ((scan files root).run st).1 = .ok s) :
    ∃ found st' parts,
      ((List.mapM (Source.SourceFile.load files) found).run.run st').1 = .ok parts ∧
        s = { types := parts.flatten } := by
  let found := (Source.sourceFiles files root).run st
  have hscan : ((scan files root).run st).1 =
      ((List.mapM (Source.SourceFile.load files) found.1).run.run found.2).1.map
        fun parts => { types := parts.flatten } := rfl
  rw [hscan] at h
  cases hparts : ((List.mapM (Source.SourceFile.load files) found.1).run.run found.2).1 with
  | ok parts =>
    rw [hparts] at h
    cases h
    exact ⟨found.1, found.2, parts, hparts, rfl⟩
  | error e =>
    rw [hparts] at h
    cases h

/-- Whatever the file system does, the model of a scan is one of source files. -/
theorem fromSource_of_scan (h : ((scan files root).run st).1 = .ok s) : s.FromSource := by
  obtain ⟨found, st', parts, hparts, rfl⟩ := exists_parts_of_scan h
  refine ⟨rfl, fun d hd => ?_⟩
  obtain ⟨ds, hds, hd⟩ := List.mem_flatten.mp hd
  exact forall_of_run_mapM (fun _ _ _ => Source.SourceFile.fromItem_of_load) hparts ds hds d hd

end Schema

/-! ## Declarations without nested ones -/

theorem Declaration.flatten_of_nested {d : Declaration} (h : d.nested = []) : d.flatten = [d] := by
  obtain ⟨name, ns, shape, nested, doc⟩ := d
  obtain rfl : nested = [] := h
  rfl

theorem Declaration.flattenList_of_nested {ds : List Declaration} (h : ∀ d ∈ ds, d.nested = []) :
    flattenList ds = ds := by
  induction ds with
  | nil => rfl
  | cons d ds ih =>
    obtain ⟨hd, hds⟩ := List.forall_mem_cons.mp h
    rw [flattenList, flatten_of_nested hd, ih hds]
    rfl

theorem depth_docEntry_le (doc : Option String) : ∀ e ∈ docEntry doc, e.2.depth ≤ 0 := by
  cases doc <;> simp [docEntry, depth]

theorem Property.depth_toValue_le (p : Property) : p.toValue.depth ≤ 1 :=
  depth_object_le_iff.mpr
    (List.forall_mem_append.mpr ⟨by simp [depth], depth_docEntry_le p.doc⟩)

theorem Member.depth_toValue_le (m : Member) : m.toValue.depth ≤ 1 :=
  depth_object_le_iff.mpr (by simp [depth])

theorem Shape.depth_entries_le (shape : Shape) : ∀ e ∈ shape.entries, e.2.depth ≤ 2 := by
  have hproperties (ps : List Property) : (Value.array (ps.map (·.toValue))).depth ≤ 2 :=
    depth_array_le_iff.mpr (List.forall_mem_map.mpr fun p _ => p.depth_toValue_le)
  have hmembers (ms : List Member) : (Value.array (ms.map (·.toValue))).depth ≤ 2 :=
    depth_array_le_iff.mpr (List.forall_mem_map.mpr fun m _ => m.depth_toValue_le)
  have htext (text : String) : (Value.text text).depth ≤ 2 := Nat.zero_le 2
  have hbool (b : Bool) : (Value.bool b).depth ≤ 2 := Nat.zero_le 2
  cases shape <;> simp only [entries, List.forall_mem_cons, htext, hbool, hproperties, hmembers,
    true_and, List.not_mem_nil, false_imp_iff, implies_true]

theorem Declaration.depth_toValue_le {d : Declaration} (h : d.nested = []) :
    d.toValue.depth ≤ 3 := by
  obtain ⟨name, ns, shape, nested, doc⟩ := d
  obtain rfl : nested = [] := h
  rw [toValue, nestedEntry, List.append_nil, depth_object_le_iff]
  refine List.forall_mem_append.mpr ⟨List.forall_mem_append.mpr ⟨?_, shape.depth_entries_le⟩, ?_⟩
  · simp [depth]
  · exact fun e he => Nat.le_trans (depth_docEntry_le doc e he) (Nat.zero_le 2)

theorem Declaration.depth_of_mem_toValues {ds : List Declaration} (h : ∀ d ∈ ds, d.nested = []) :
    ∀ v ∈ toValues ds, v.depth ≤ 3 := by
  induction ds with
  | nil => simp [toValues]
  | cons d ds ih =>
    obtain ⟨hd, hds⟩ := List.forall_mem_cons.mp h
    exact List.forall_mem_cons.mpr ⟨depth_toValue_le hd, ih hds⟩

/-! ## Models of source files -/

namespace Schema.FromSource

variable {s : Schema}

theorem declarations_eq (h : s.FromSource) : s.declarations = s.types :=
  Declaration.flattenList_of_nested fun d hd => (h.types d hd).nested

/-- The type expressions of the model are those for types in source files. -/
theorem exists_toExpr (h : s.FromSource) :
    ∀ t ∈ s.typeExprs, ∃ T : Source.TypeSyntax, t = T.toExpr := by
  refine forall_typeExprs_iff.mpr ⟨?_, ?_⟩
  · rw [h.declarations_eq]
    exact fun d hd => (h.types d hd).types
  · simp [h.endpoints]

theorem isInt64_of_mem (h : s.FromSource) : ∀ m ∈ s.members, isInt64 m.value = true := by
  rw [forall_members_iff, h.declarations_eq]
  exact fun d hd => (h.types d hd).values

/-- Nothing is nested in the declarations, so the text of the model is never nested deeply. -/
theorem depth_toValue_le (h : s.FromSource) : s.toValue.depth ≤ 5 := by
  obtain ⟨types, endpoints⟩ := s
  obtain rfl : endpoints = [] := h.endpoints
  refine depth_object_le_iff.mpr (List.forall_mem_singleton.mpr (depth_array_le_iff.mpr ?_))
  exact Declaration.depth_of_mem_toValues fun d hd => (h.types d hd).nested

end Schema.FromSource

end TypeExport
