import TypeExport.Output.Bundle
import TypeExport.Proofs.Discovery.Roots

/-!
# What a bundle holds

`Schema.render` discovers the roots of a filter, converts them in order and refuses a second module of
the same name. The statements here say when it succeeds, what it gives and which error wins.

* `Schema.Exports`: the roots name declarations, and the names of these differ.
* `Schema.foldlM_addModule_eq_ok_iff`: the modules of all roots can be made exactly if the roots are
  exports, and are then the modules of their declarations.
* `Schema.addModule_eq_error_iff`: a further root fails if it is unknown, or its name was taken.
* `Schema.render_eq_ok_iff`, `Schema.render_eq_error_iff`: the result of rendering, and its error.
* `Schema.nodup_dropLast_of_render`, `Schema.eq_nil_or_concat_of_render`: the files of the roots, with
  different names, and then the barrel.
* `Schema.render_outcome`: both in terms of candidates, roots and declarations.
-/

namespace TypeExport

open List (zip)

theorem Output.fileName_inj {m n : String} : Output.fileName m = Output.fileName n ↔ m = n :=
  String.append_left_inj _

theorem Output.exportLine_eq (name : String) :
    exportLine name = "export \x7b" ++ name ++ "\x7d from \"./" ++ name ++ "\";" := rfl

namespace Schema

variable {s : Schema}

/-- The entry of the declaration that a root names. -/
def entryOf? (s : Schema) : TypeExpr → Option Entry
  | .named n => s.resolve? n
  | _ => none

/-- The roots name the declarations of the entries, no two of which share a name. -/
structure Exports (s : Schema) (roots : List TypeExpr) (entries : List Entry) : Prop where
  declared : roots.map s.entryOf? = entries.map some
  distinct : (entries.map (·.declaration.name)).Nodup

/-- Roots, each with the module of its declaration. -/
def modulesOf (exported : List (TypeExpr × Entry)) : List RootModule :=
  exported.map fun x => (x.1, .of x.2.declaration)

theorem Exports.length_eq {roots : List TypeExpr} {entries : List Entry}
    (h : s.Exports roots entries) : roots.length = entries.length := by
  simpa using congrArg List.length h.declared

/-- Roots are exports exactly if each names a declaration and the names differ. -/
theorem exists_exports_iff {roots : List TypeExpr} :
    (∃ entries, s.Exports roots entries) ↔ (∀ r ∈ roots, ∃ e, s.entryOf? r = some e) ∧
      ((roots.filterMap s.entryOf?).map (·.declaration.name)).Nodup := by
  have hfilter : ∀ entries : List Entry, roots.map s.entryOf? = entries.map some →
      roots.filterMap s.entryOf? = entries := fun entries h => by
    have := congrArg (List.filterMap id) h
    simpa only [List.filterMap_map, Function.id_comp, List.filterMap_some] using this
  constructor
  · rintro ⟨entries, hdecl, hdist⟩
    rw [hfilter entries hdecl]
    refine ⟨fun r hr => ?_, hdist⟩
    have hmem := List.mem_map_of_mem (f := s.entryOf?) hr
    rw [hdecl] at hmem
    obtain ⟨e, -, he⟩ := List.mem_map.mp hmem
    exact ⟨e, he.symm⟩
  · rintro ⟨hdecl, hdist⟩
    refine ⟨roots.filterMap s.entryOf?, ?_, hdist⟩
    clear hdist hfilter
    induction roots with
    | nil => rfl
    | cons r rs ih =>
      obtain ⟨⟨e, he⟩, hrs⟩ := List.forall_mem_cons.mp hdecl
      rw [List.filterMap_cons_some he, List.map_cons, List.map_cons, he, ← ih hrs]

theorem exports_concat_iff {roots : List TypeExpr} {entries : List Entry} {root : TypeExpr}
    {e : Entry} : s.Exports (roots ++ [root]) (entries ++ [e]) ↔
      s.Exports roots entries ∧ s.entryOf? root = some e ∧
        ∀ x ∈ entries, x.declaration.name ≠ e.declaration.name := by
  constructor
  · rintro ⟨hdecl, hdist⟩
    rw [List.map_append, List.map_append] at hdecl
    rw [List.map_append] at hdist
    obtain ⟨hdecl, hroot⟩ := List.append_inj' hdecl rfl
    obtain ⟨hdist, -, hne⟩ := List.nodup_append.mp hdist
    refine ⟨⟨hdecl, hdist⟩, (List.cons.inj hroot).1, fun x hx => ?_⟩
    exact hne _ (List.mem_map_of_mem hx) _ (List.mem_singleton.mpr rfl)
  · rintro ⟨⟨hdecl, hdist⟩, hroot, hne⟩
    refine ⟨by simp [hdecl, hroot], ?_⟩
    rw [List.map_append, List.nodup_append]
    refine ⟨hdist, by simp, fun n hn m hm => ?_⟩
    obtain ⟨x, hx, rfl⟩ := List.mem_map.mp hn
    rw [List.mem_singleton.mp hm]
    exact hne x hx

/-! ## One root -/

theorem moduleOf_eq_ok_iff {root : TypeExpr} {m : TypeModule} :
    s.moduleOf root = .ok m ↔ ∃ e, s.entryOf? root = some e ∧ m = .of e.declaration := by
  cases root with
  | named n =>
    simp only [moduleOf, entryOf?]
    cases s.resolve? n with
    | none => simp
    | some e => simp [eq_comm]
  | primitive | array | generic => simp [moduleOf, entryOf?]

theorem moduleOf_named_eq_error_iff {n : String} {err : ExportError} :
    s.moduleOf (.named n) = .error err ↔ s.resolve? n = none ∧ err = .unknownType n := by
  simp only [moduleOf]
  cases s.resolve? n with
  | none => simp [eq_comm]
  | some e => simp

/-- The first export with a name. -/
theorem find?_modulesOf_eq_none_iff {exported : List (TypeExpr × Entry)} {d : Declaration} :
    (modulesOf exported).find? (·.2.fileName == (TypeModule.of d).fileName) = none ↔
      ∀ x ∈ exported, x.2.declaration.name ≠ d.name := by
  simp [modulesOf, TypeModule.fileName, TypeModule.of, Output.fileName_inj]

theorem find?_modulesOf_eq_some_iff {exported : List (TypeExpr × Entry)} {d : Declaration}
    {first : RootModule} :
    (modulesOf exported).find? (·.2.fileName == (TypeModule.of d).fileName) = some first ↔
      ∃ earlier x later, exported = earlier ++ x :: later ∧
        x.2.declaration.name = d.name ∧ (∀ y ∈ earlier, y.2.declaration.name ≠ d.name) ∧
        first = (x.1, .of x.2.declaration) := by
  rw [List.find?_eq_some_iff_append]
  constructor
  · rintro ⟨hname, as, bs, hsplit, hbefore⟩
    rw [modulesOf, List.map_eq_append_iff] at hsplit
    obtain ⟨earlier, rest, rfl, rfl, hrest⟩ := hsplit
    obtain ⟨x, later, rfl, rfl, rfl⟩ := List.map_eq_cons_iff.mp hrest
    refine ⟨earlier, x, later, rfl, ?_, fun y hy => ?_, rfl⟩
    · simpa [TypeModule.fileName, TypeModule.of, Output.fileName_inj] using hname
    · have := hbefore _ (List.mem_map_of_mem hy)
      simpa [TypeModule.fileName, TypeModule.of, Output.fileName_inj] using this
  · rintro ⟨earlier, x, later, rfl, hname, hbefore, rfl⟩
    refine ⟨by simp [TypeModule.fileName, TypeModule.of, hname], modulesOf earlier,
      modulesOf later, by simp [modulesOf], List.forall_mem_map.mpr fun y hy => ?_⟩
    simpa [TypeModule.fileName, TypeModule.of, Output.fileName_inj] using hbefore y hy

theorem addModule_eq_ok_iff {exported : List (TypeExpr × Entry)} {root : TypeExpr}
    {done : List RootModule} :
    s.addModule (modulesOf exported) root = .ok done ↔ ∃ e, s.entryOf? root = some e ∧
      (∀ x ∈ exported, x.2.declaration.name ≠ e.declaration.name) ∧
      done = modulesOf (exported ++ [(root, e)]) := by
  unfold addModule
  simp only [Except.bind_eq_ok_iff, moduleOf_eq_ok_iff]
  constructor
  · rintro ⟨_, ⟨e, he, rfl⟩, h⟩
    split at h
    · cases h
    · next hnone =>
      cases h
      exact ⟨e, he, find?_modulesOf_eq_none_iff.mp hnone, by simp [modulesOf]⟩
  · rintro ⟨e, he, hne, rfl⟩
    refine ⟨_, ⟨e, he, rfl⟩, ?_⟩
    rw [find?_modulesOf_eq_none_iff.mpr hne]
    simp [modulesOf]

/-- Why a root fails after those that were exported. -/
def RootFails (s : Schema) (exported : List (TypeExpr × Entry)) (n : String) (err : ExportError) :
    Prop :=
  (s.resolve? n = none ∧ err = .unknownType n) ∨
    ∃ e earlier x later, s.resolve? n = some e ∧ exported = earlier ++ x :: later ∧
      x.2.declaration.name = e.declaration.name ∧
      (∀ y ∈ earlier, y.2.declaration.name ≠ e.declaration.name) ∧
      err = .duplicateFile (e.declaration.name ++ ".ts") x.1 (.named n)

/-- A further root fails if it is unknown, or its name was taken before. -/
theorem addModule_eq_error_iff {exported : List (TypeExpr × Entry)} {n : String}
    {err : ExportError} :
    s.addModule (modulesOf exported) (.named n) = .error err ↔ s.RootFails exported n err := by
  unfold addModule RootFails
  rw [Except.bind_eq_error_iff, moduleOf_named_eq_error_iff]
  refine or_congr_right ⟨?_, ?_⟩
  · rintro ⟨m, hm, h⟩
    obtain ⟨e, he, rfl⟩ := moduleOf_eq_ok_iff.mp hm
    split at h
    · next first hfirst =>
      cases h
      obtain ⟨earlier, x, later, hsplit, hname, hbefore, rfl⟩ :=
        find?_modulesOf_eq_some_iff.mp hfirst
      exact ⟨e, earlier, x, later, he, hsplit, hname, hbefore, rfl⟩
    · cases h
  · rintro ⟨e, earlier, x, later, he, hsplit, hname, hbefore, rfl⟩
    refine ⟨.of e.declaration, moduleOf_eq_ok_iff.mpr ⟨e, he, rfl⟩, ?_⟩
    rw [find?_modulesOf_eq_some_iff.mpr ⟨earlier, x, later, hsplit, hname, hbefore, rfl⟩]
    rfl

/-! ## All roots -/

/-- The modules of all roots can be made exactly if the roots are exports. -/
theorem foldlM_addModule_eq_ok_iff {roots : List TypeExpr} {done : List RootModule} :
    roots.foldlM s.addModule [] = .ok done ↔
      ∃ entries, s.Exports roots entries ∧ done = modulesOf (zip roots entries) := by
  induction roots using List.reverseRecOn generalizing done with
  | nil =>
    constructor
    · intro h
      cases h
      exact ⟨[], ⟨rfl, List.nodup_nil⟩, rfl⟩
    · rintro ⟨_, -, rfl⟩
      rfl
  | append_singleton roots root ih =>
    rw [List.foldlM_concat_eq_ok_iff]
    simp only [ih]
    constructor
    · rintro ⟨_, ⟨entries, hexp, rfl⟩, h⟩
      obtain ⟨e, he, hne, rfl⟩ := addModule_eq_ok_iff.mp h
      have hsnd : (zip roots entries).map Prod.snd = entries :=
        List.map_snd_zip (Nat.le_of_eq hexp.length_eq.symm)
      have hne' : ∀ x ∈ entries, x.declaration.name ≠ e.declaration.name := by
        rw [← hsnd, List.forall_mem_map]
        exact hne
      refine ⟨entries ++ [e], exports_concat_iff.mpr ⟨hexp, he, hne'⟩, ?_⟩
      rw [List.zip_append hexp.length_eq]
      rfl
    · rintro ⟨entries', hexp, rfl⟩
      have hdecl := hexp.declared.symm
      rw [List.map_append, List.map_eq_append_iff] at hdecl
      obtain ⟨entries, last, rfl, -, hlast⟩ := hdecl
      obtain ⟨e, rfl, -⟩ := List.map_eq_singleton_iff.mp hlast
      obtain ⟨hexp, he, hne⟩ := exports_concat_iff.mp hexp
      refine ⟨_, ⟨entries, hexp, rfl⟩, addModule_eq_ok_iff.mpr ⟨e, he, ?_, ?_⟩⟩
      · exact fun x hx => hne _ (List.of_mem_zip hx).2
      · rw [List.zip_append hexp.length_eq]
        rfl

/-- The files of declarations: a module each, then the barrel. -/
theorem bundle_modulesOf (barrel : String) {roots : List TypeExpr} {entries : List Entry}
    (h : roots.length = entries.length) :
    bundle barrel ((modulesOf (zip roots entries)).map (·.2)) =
      if entries = [] then [] else
        entries.map (fun e =>
          ⟨e.declaration.name ++ ".ts", Output.declarationLines e.declaration⟩) ++
        [⟨barrel, entries.map fun e => Output.exportLine e.declaration.name⟩] := by
  have hmodules : (modulesOf (zip roots entries)).map (·.2) =
      entries.map fun e => TypeModule.of e.declaration := by
    rw [modulesOf, List.map_map]
    conv => rhs; rw [← List.map_snd_zip (Nat.le_of_eq h.symm), List.map_map]
    rfl
  rw [hmodules]
  cases entries with
  | nil => rfl
  | cons e es =>
    simp [bundle, TypeModule.file, TypeModule.fileName, TypeModule.of, Output.fileName,
      Output.barrelLines]

theorem render_eq_ok_iff {f : NamespaceFilter} {barrel : String} {files : List OutputFile} :
    s.render f barrel = .ok files ↔ ∃ roots entries,
      s.roots f = .ok roots ∧ s.Exports roots entries ∧
      files = if entries = [] then [] else
        entries.map (fun e =>
          ⟨e.declaration.name ++ ".ts", Output.declarationLines e.declaration⟩) ++
        [⟨barrel, entries.map fun e => Output.exportLine e.declaration.name⟩] := by
  unfold render
  simp only [Except.bind_eq_ok_iff, foldlM_addModule_eq_ok_iff, Except.ok.injEq]
  constructor
  · rintro ⟨roots, hroots, _, ⟨entries, hexp, rfl⟩, rfl⟩
    exact ⟨roots, entries, hroots, hexp, bundle_modulesOf barrel hexp.length_eq⟩
  · rintro ⟨roots, entries, hroots, hexp, rfl⟩
    exact ⟨roots, hroots, _, ⟨entries, hexp, rfl⟩, bundle_modulesOf barrel hexp.length_eq⟩

/-- The files before the barrel are those of the exports. -/
theorem dropLast_of_render {f : NamespaceFilter} {barrel : String} {files : List OutputFile}
    (h : s.render f barrel = .ok files) : ∃ roots entries, s.roots f = .ok roots ∧
      s.Exports roots entries ∧ files.dropLast = entries.map fun e =>
        ⟨e.declaration.name ++ ".ts", Output.declarationLines e.declaration⟩ := by
  obtain ⟨roots, entries, hroots, hexp, rfl⟩ := render_eq_ok_iff.mp h
  refine ⟨roots, entries, hroots, hexp, ?_⟩
  split
  · next hnil => rw [hnil, List.map_nil, List.dropLast_nil]
  · rw [List.dropLast_concat]

/-- The files before the barrel have different names. -/
theorem nodup_dropLast_of_render {f : NamespaceFilter} {barrel : String} {files : List OutputFile}
    (h : s.render f barrel = .ok files) : (files.dropLast.map (·.name)).Nodup := by
  obtain ⟨roots, entries, -, hexp, hfiles⟩ := dropLast_of_render h
  have hdistinct : ((entries.map (·.declaration.name)).map Output.fileName).Nodup :=
    List.Pairwise.map Output.fileName (fun _ _ => mt Output.fileName_inj.mp) hexp.distinct
  rw [List.map_map] at hdistinct
  rwa [hfiles, List.map_map]

/-- The barrel is the last file, if there are files. -/
theorem eq_nil_or_concat_of_render {f : NamespaceFilter} {barrel : String}
    {files : List OutputFile} (h : s.render f barrel = .ok files) :
    files = [] ∨ ∃ last, files = files.dropLast ++ [last] ∧ last.name = barrel := by
  obtain ⟨roots, entries, -, -, rfl⟩ := render_eq_ok_iff.mp h
  split
  · exact .inl rfl
  · exact .inr ⟨_, by rw [List.dropLast_concat], rfl⟩

theorem render_eq_error_iff {f : NamespaceFilter} {barrel : String} {err : ExportError} :
    s.render f barrel = .error err ↔ s.roots f = .error err ∨
      ∃ before n after entries, s.roots f = .ok (before ++ .named n :: after) ∧
        s.Exports before entries ∧ s.RootFails (zip before entries) n err := by
  unfold render
  rw [Except.bind_eq_error_iff]
  refine or_congr_right ?_
  simp only [Except.bind_eq_error_iff, reduceCtorEq, and_false, exists_false, or_false,
    List.foldlM_eq_error_iff, foldlM_addModule_eq_ok_iff]
  constructor
  · rintro ⟨_, hroots, before, root, after, _, rfl, ⟨entries, hexp, rfl⟩, h⟩
    obtain ⟨n, rfl⟩ := named_of_mem_roots hroots (List.mem_append_right before List.mem_cons_self)
    exact ⟨before, n, after, entries, hroots, hexp, addModule_eq_error_iff.mp h⟩
  · rintro ⟨before, n, after, entries, hroots, hexp, h⟩
    exact ⟨_, hroots, before, .named n, after, _, rfl, ⟨entries, hexp, rfl⟩,
      addModule_eq_error_iff.mpr h⟩

/-- **The outcome of rendering.**
* The roots are those of the candidates' payloads, if all candidates have one.
* It succeeds exactly if all candidates have a payload, all roots name a declaration and the names of
  these differ.
* It gives a file for each root, in order, with the lines of the root's declaration, and then the
  barrel, which exports the same names in the same order. Without roots there are no files.
* Its error is that of the first candidate without a payload, or else that of the first root that
  names no declaration or one with the name of an earlier root's. -/
theorem render_outcome (s : Schema) (f : NamespaceFilter) (barrel : String) :
    (∀ roots, s.roots f = .ok roots ↔ ∃ payloads,
      (s.candidates f).map TypeExpr.payload = payloads.map .ok ∧ roots = s.rootsOf payloads) ∧
    ((∃ files, s.render f barrel = .ok files) ↔
      (∀ c ∈ s.candidates f, ∃ p, c.payload = .ok p) ∧
      ∀ roots, s.roots f = .ok roots → (∀ r ∈ roots, ∃ e, s.entryOf? r = some e) ∧
        ((roots.filterMap s.entryOf?).map (·.declaration.name)).Nodup) ∧
    (∀ files, s.render f barrel = .ok files → ∃ (roots : List TypeExpr) (entries : List Entry),
      s.roots f = .ok roots ∧ roots.map s.entryOf? = entries.map some ∧
      files = if roots = [] then [] else
        entries.map (fun e =>
          ⟨e.declaration.name ++ ".ts", Output.declarationLines e.declaration⟩) ++
        [⟨barrel, entries.map fun e =>
          "export \x7b" ++ e.declaration.name ++ "\x7d from \"./" ++ e.declaration.name ++ "\";"⟩]) ∧
    ∀ err, s.render f barrel = .error err ↔
      (∃ before c after, s.candidates f = before ++ c :: after ∧
        (∀ b ∈ before, ∃ p, b.payload = .ok p) ∧ HasNoPayload c err) ∨
      ∃ before n after entries, s.roots f = .ok (before ++ .named n :: after) ∧
        s.Exports before entries ∧ s.RootFails (zip before entries) n err := by
  refine ⟨fun _ => roots_eq_ok_iff, ⟨?_, ?_⟩, ?_, fun err => ?_⟩
  · rintro ⟨files, h⟩
    obtain ⟨roots, entries, hroots, hexp, -⟩ := render_eq_ok_iff.mp h
    obtain ⟨payloads, hps, -⟩ := roots_eq_ok_iff.mp hroots
    refine ⟨map_payload_iff.mp ⟨payloads, hps⟩, fun roots' hroots' => ?_⟩
    rw [hroots] at hroots'
    cases hroots'
    exact exists_exports_iff.mp ⟨entries, hexp⟩
  · rintro ⟨hcand, hroots⟩
    obtain ⟨payloads, hps⟩ := map_payload_iff.mpr hcand
    have hok : s.roots f = .ok (s.rootsOf payloads) := roots_eq_ok_iff.mpr ⟨payloads, hps, rfl⟩
    obtain ⟨entries, hexp⟩ := exists_exports_iff.mpr (hroots _ hok)
    exact ⟨_, render_eq_ok_iff.mpr ⟨_, entries, hok, hexp, rfl⟩⟩
  · intro files h
    obtain ⟨roots, entries, hroots, hexp, rfl⟩ := render_eq_ok_iff.mp h
    have hnil : entries = [] ↔ roots = [] := by
      rw [← List.length_eq_zero_iff, ← List.length_eq_zero_iff, hexp.length_eq]
    exact ⟨roots, entries, hroots, hexp.declared, by simp only [hnil, Output.exportLine_eq]⟩
  · rw [render_eq_error_iff, roots_eq_error_iff]

/-- Orders with their lines, a class that has no instances, and a class in a namespace below. There is another
order in another namespace. -/
def sampleRegister : Schema where
  types := [
    { name := "Order", ns := "Shop", shape := .classType false [⟨"Total", .primitive .int32, .exposed, none⟩]
      nested := [{ name := "Line", ns := "Shop", shape := .classType false [] }] },
    { name := "Base", ns := "Shop", shape := .classType true [] },
    { name := "Note", ns := "Shop.Notes", shape := .classType false [] },
    { name := "Order", ns := "Depot", shape := .classType false [] }]
  endpoints := [⟨"GetLines", "Shop", .generic .task [.array (.named "Line")]⟩]

/-- The files for one of the namespaces, and the error for both of them. -/
theorem render_outcome_sampleRegister :
    sampleRegister.candidates ⟨"Shop", true⟩ =
      [.named "Shop.Order", .named "Shop.Notes.Note", .generic .task [.array (.named "Line")]] ∧
    sampleRegister.render ⟨"Shop", true⟩ "index.ts" = .ok [
      ⟨"Order.ts", ["export interface Order \x7b", "  total: number;", "\x7d", "",
        "export interface Line \x7b", "\x7d"]⟩,
      ⟨"Note.ts", ["export interface Note \x7b", "\x7d"]⟩,
      ⟨"Line.ts", ["export interface Line \x7b", "\x7d"]⟩,
      ⟨"index.ts", ["export \x7bOrder\x7d from \"./Order\";", "export \x7bNote\x7d from \"./Note\";",
        "export \x7bLine\x7d from \"./Line\";"]⟩] ∧
    sampleRegister.render ⟨"", true⟩ "index.ts" =
      .error (.duplicateFile "Order.ts" (.named "Shop.Order") (.named "Depot.Order")) := by
  obtain ⟨hroots, hsuccess, hfiles, -⟩ := render_outcome sampleRegister ⟨"Shop", true⟩ "index.ts"
  obtain ⟨hroots', -, -, herror⟩ := render_outcome sampleRegister ⟨"", true⟩ "index.ts"
  have hcandidates : sampleRegister.candidates ⟨"Shop", true⟩ =
      [.named "Shop.Order", .named "Shop.Notes.Note", .generic .task [.array (.named "Line")]] := rfl
  have hok : sampleRegister.roots ⟨"Shop", true⟩ =
      .ok [.named "Shop.Order", .named "Shop.Notes.Note", .named "Shop.Order.Line"] :=
    (hroots _).mpr ⟨[.named "Shop.Order", .named "Shop.Notes.Note", .named "Line"], rfl, rfl⟩
  refine ⟨hcandidates, ?_, ?_⟩
  · have hrenders : ∃ files, sampleRegister.render ⟨"Shop", true⟩ "index.ts" = .ok files := by
      refine hsuccess.mpr ⟨?_, fun roots h => ?_⟩
      · rw [hcandidates]
        simp only [List.forall_mem_cons]
        exact ⟨⟨_, rfl⟩, ⟨_, rfl⟩, ⟨_, rfl⟩, by simp⟩
      · cases hok.symm.trans h
        simp only [List.forall_mem_cons]
        exact ⟨⟨⟨_, rfl⟩, ⟨_, rfl⟩, ⟨_, rfl⟩, by simp⟩, by decide⟩
    obtain ⟨files, hrender⟩ := hrenders
    obtain ⟨roots, entries, h, hentries, rfl⟩ := hfiles files hrender
    cases hok.symm.trans h
    obtain rfl : entries = [⟨"Shop.Order", sampleRegister.types[0]⟩,
        ⟨"Shop.Notes.Note", sampleRegister.types[2]⟩,
        ⟨"Shop.Order.Line", sampleRegister.types[0].nested[0]⟩] :=
      List.map_injective_iff.mpr (fun _ _ => Option.some.inj) (hentries.symm.trans rfl)
    refine hrender.trans (congrArg Except.ok ?_)
    decide +kernel
  · -- The two orders have one name, and the order of the shop comes first.
    have hall : sampleRegister.roots ⟨"", true⟩ = .ok ([.named "Shop.Order", .named "Shop.Notes.Note"] ++
        .named "Depot.Order" :: [.named "Shop.Order.Line"]) :=
      (hroots' _).mpr ⟨[.named "Shop.Order", .named "Shop.Notes.Note", .named "Depot.Order", .named "Line"],
        rfl, rfl⟩
    refine (herror _).mpr (.inr ⟨_, "Depot.Order", _, [⟨"Shop.Order", sampleRegister.types[0]⟩,
      ⟨"Shop.Notes.Note", sampleRegister.types[2]⟩], hall, ⟨rfl, by decide⟩, .inr ?_⟩)
    exact ⟨⟨"Depot.Order", sampleRegister.types[3]⟩, [], _, _, rfl, rfl, rfl, by simp, rfl⟩

end Schema

end TypeExport
