import TypeExport.Proofs.Discovery.Namespaces
import TypeExport.Proofs.Source.Collection
import TypeExport.Proofs.Source.Scan

/-!
# Filters of modules

The types of a project are in the namespaces of the modules that they stand in, so the filter of a module finds
the types of the module and of all modules in it.

* `Source.DeclaredIn`: a type of a project, with the module of its file and the inline modules around it.
* `Schema.exists_declaredIn_of_scan`: all types of a scan are such types.
* `NamespaceFilter.accepts_outcome`: what filters accept, as an order of namespaces and of the modules of a project.
-/

namespace TypeExport

namespace Source

/-- A source file of the tree declares a type. The file has a module path, and the type stands in inline modules
of the inner names, outermost first. -/
inductive DeclaredIn (t : DirectoryTree) (modules inner : List String) (d : Declaration) : Prop where
  | mk {names : List String} {text : String} {items : List Item} {position : List Nat} {x : Item}
    (source : t.HasSource names text) (path : IsModulePath names modules)
    (parsed : itemsOfFile? text = some items) (stands : Stands items position inner x)
    (gives : Gives (String.intercalate "::" (modules ++ inner)) x d)

variable {t : DirectoryTree} {names modules inner outer : List String} {text : String} {d : Declaration}

theorem Gives.ns_eq {ns : String} {x : Item} (h : Gives ns x d) : d.ns = ns := by
  cases h <;> rfl

theorem IsModulePath.ne_nil (h : IsModulePath names modules) : modules ≠ [] := by
  cases h <;> simp

theorem namespaceIn_intercalate (h : modules ≠ []) (inner : List String) :
    namespaceIn (String.intercalate "::" modules) inner = String.intercalate "::" (modules ++ inner) := by
  by_cases hinner : inner = []
  · rw [hinner, namespaceIn_nil, List.append_nil]
  · rw [namespaceIn, String.intercalate_cons_of_ne_nil hinner, String.intercalate_append_of_ne_nil h hinner]

/-- The types of a source file stand in its inline modules, or in none. -/
theorem exists_declaredIn (hsource : t.HasSource names text) (hd : d ∈ t.declarations names text) :
    ∃ modules inner, DeclaredIn t modules inner d := by
  generalize hds : t.declarations names text = ds at hd
  have hadds : Adds names text ds := hds ▸ DirectoryTree.adds_declarations hsource.1 text
  cases hadds with
  | @valid items modules parsed path =>
    rw [← map_snd_placedFrom _ 0 items] at hd
    obtain ⟨⟨position, d⟩, hmem, rfl⟩ := List.mem_map.mp hd
    obtain ⟨i, top, rest, hplace, rfl, hinner⟩ := mem_placedFrom_iff.mp hmem
    obtain ⟨inner, x, hbelow, hgives⟩ := top.exists_gives_of_mem hinner
    rw [namespaceIn_intercalate path.ne_nil] at hgives
    exact ⟨modules, inner, .mk hsource path parsed ⟨i, top, rest, hplace, rfl, hbelow⟩ hgives⟩
  | invalid => cases hd

/-- The filters of the file's module and of all inline modules around a type find the type. -/
theorem DeclaredIn.accepts (h : DeclaredIn t modules inner d) (houter : outer <+: inner) :
    NamespaceFilter.accepts ⟨String.intercalate "::" (modules ++ outer), true⟩ d.ns = true := by
  obtain ⟨-, path, -, -, hgives⟩ := h
  rw [hgives.ns_eq]
  exact ModulePath.accepts_below (by simp [separators]) (by simp [path.ne_nil])
    ((List.prefix_append_right_inj modules).mpr houter)

end Source

/-- The types of a scan are those of source files of the tree. -/
theorem Schema.exists_declaredIn_of_scan {σ : Type} {files : FileAccess (StateM σ)} {st : σ}
    {t : DirectoryTree} {s : Schema} (hshows : files.Shows st t)
    (h : ((scan files t.root).run st).1 = .ok s) :
    ∀ d ∈ s.types, ∃ modules inner, Source.DeclaredIn t modules inner d := by
  have hreadable := readable_of_scan hshows h
  rw [scan_run hshows hreadable] at h
  obtain rfl := Except.ok.inj h
  intro d hd
  obtain ⟨ds, hds, hd⟩ := List.mem_flatten.mp hd
  obtain ⟨⟨names, text⟩, hvisited, rfl⟩ := List.mem_map.mp hds
  exact Source.exists_declaredIn ((DirectoryTree.mem_visited_iff hreadable).mp hvisited) hd

open ModulePath in
/-- **What filters accept.** Namespaces are paths of modules, written with double colons or with dots.
* With nested namespaces, a filter accepts the paths that its own path begins; without them, its own path.
* So it is a partial order which namespace accepts which.
* A module next to the one of the filter, or in a module next to it, is not accepted, however its name begins.
* The types of a project stand in the inline modules of source files, and the filter of each module that a type
  stands in, from the file's own module to the innermost one, accepts its namespace. -/
theorem NamespaceFilter.accepts_outcome :
    (∀ sep ∈ separators, ∀ xs ys, ModulePath xs → ModulePath ys →
      (accepts ⟨String.intercalate sep xs, true⟩ (String.intercalate sep ys) = true ↔ xs <+: ys) ∧
      (accepts ⟨String.intercalate sep xs, false⟩ (String.intercalate sep ys) = true ↔ xs = ys)) ∧
    (∀ sep ∈ separators, ∀ nested, ∀ a ∈ Namespaces sep, ∀ b ∈ Namespaces sep, ∀ c ∈ Namespaces sep,
      accepts ⟨a, nested⟩ a = true ∧
      (accepts ⟨a, nested⟩ b = true → accepts ⟨b, nested⟩ c = true → accepts ⟨a, nested⟩ c = true) ∧
      (accepts ⟨a, nested⟩ b = true → accepts ⟨b, nested⟩ a = true → a = b)) ∧
    (∀ sep ∈ separators, ∀ nested above x y below, ModulePath (above ++ [x]) → ModulePath (above ++ y :: below) →
      x ≠ y → accepts ⟨String.intercalate sep (above ++ [x]), nested⟩
        (String.intercalate sep (above ++ y :: below)) = false) ∧
    ∀ {σ : Type} (files : FileAccess (StateM σ)) (st : σ) (t : DirectoryTree) (s : Schema),
      files.Shows st t → ((Schema.scan files t.root).run st).1 = .ok s →
      ∀ d ∈ s.types, ∃ modules inner, Source.DeclaredIn t modules inner d ∧
        ∀ outer, outer <+: inner → accepts ⟨String.intercalate "::" (modules ++ outer), true⟩ d.ns = true := by
  refine ⟨fun sep hsep xs ys hx hy => ⟨accepts_nested_iff hsep hx hy, accepts_iff_eq hsep hx hy⟩,
    fun sep hsep nested a ha b hb c hc => ⟨accepts_refl a, accepts_trans hsep ha hb hc,
      accepts_antisymm hsep ha hb⟩, fun sep hsep nested above x y below hx hy hne => ?_,
    fun files st t s hshows h d hd => ?_⟩
  · -- Neither path begins the other one, since they differ in one place.
    rw [Bool.eq_false_iff]
    intro h
    have hprefix : above ++ [x] <+: above ++ y :: below := by
      cases nested with
      | true => exact (accepts_nested_iff hsep hx hy).mp h
      | false => exact (accepts_iff_eq hsep hx hy).mp h ▸ List.prefix_refl _
    rw [List.prefix_append_right_inj, List.cons_prefix_cons] at hprefix
    exact hne hprefix.1
  · obtain ⟨modules, inner, hdeclared⟩ := Schema.exists_declaredIn_of_scan hshows h d hd
    exact ⟨modules, inner, hdeclared, fun outer => hdeclared.accepts⟩

/-- A source file with a structure in an inline module. -/
def adminText : String := "pub mod admin \x7b pub struct User \x7b pub id: i64 \x7d \x7d"

/-- A project with this file only. -/
def adminProject : Disk where
  items := [(["src"], .directory), (["src", "dto.rs"], .file adminText.toUTF8)]

theorem wellFormed_adminProject : adminProject.WellFormed := by
  decide

def adminTree : DirectoryTree := adminProject.tree wellFormed_adminProject "src"

theorem visited_adminTree : adminTree.visited = [(["dto.rs"], adminText)] := by
  decide +kernel

theorem readable_adminTree : adminTree.Readable := by
  refine DirectoryTree.readable_of_visited ?_
  rw [visited_adminTree]
  exact List.forall_mem_singleton.mpr (Except.toOption_eq_some_iff.mp (by decide +kernel))

/-- The filter of the file's module finds the structure, and that of a module with a longer name does not. -/
theorem accepts_outcome_adminFile :
    ModulePath ["crate", "dto"] ∧ ModulePath ["crate", "dtos"] ∧
    NamespaceFilter.accepts ⟨"crate::dto", true⟩ "crate::dtos" = false ∧
    ∃ s, ((Schema.scan Disk.access adminTree.root).run adminProject).1 = .ok s ∧
      s.types.map (fun d => (d.ns, d.name)) = [("crate::dto::admin", "User")] ∧
      ∀ d ∈ s.types, NamespaceFilter.accepts ⟨"crate::dto", true⟩ d.ns = true := by
  have hdto : ModulePath ["crate", "dto"] := ⟨by decide, by decide⟩
  have hdtos : ModulePath ["crate", "dtos"] := ⟨by decide, by decide⟩
  have hshows : Disk.access.Shows adminProject adminTree := Disk.shows_tree wellFormed_adminProject "src"
  have hrun := Schema.scan_run hshows readable_adminTree
  obtain ⟨-, -, hsiblings, hmodules⟩ := NamespaceFilter.accepts_outcome
  refine ⟨hdto, hdtos, hsiblings "::" (by decide) true ["crate"] "dto" "dtos" [] hdto hdtos (by decide),
    _, congrArg Prod.fst hrun, ?_, fun d hd => ?_⟩
  · rw [visited_adminTree]
    decide +kernel
  · obtain ⟨modules, inner, ⟨hsource, path, -, -, -⟩, haccepts⟩ :=
      hmodules Disk.access adminProject adminTree _ hshows (congrArg Prod.fst hrun) d hd
    have hvisited := (DirectoryTree.mem_visited_iff readable_adminTree).mpr hsource
    rw [visited_adminTree, List.mem_singleton] at hvisited
    obtain ⟨rfl, rfl⟩ := Prod.mk.inj hvisited
    obtain rfl : modules = ["crate", "dto"] := (Source.isModulePath_iff.mp path).2.trans (by decide +kernel)
    exact haccepts [] List.nil_prefix

end TypeExport
