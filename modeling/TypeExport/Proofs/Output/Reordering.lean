import Mathlib
import TypeExport.Proofs.Output.Widening

/-!
# The order of declarations

A name refers to the first declaration that it fits, so the order of declarations matters where names
are shared. If all full names differ, each class is found again under its own, wherever it stands, and
without endpoints nothing else becomes a root.

* `Schema.firstWith?_of_perm`: a full name that is not shared refers to the same declaration in every
  order.
* `Schema.exists_roots`: without endpoints the roots are the full names of the classes that are chosen.
* `Schema.Exports.of_perm`: roots in another order export the same declarations, in another order.
* `Output.SameUpToOrder`: two bundles differ only by the order of files and of lines in the barrel.
* `Schema.render_of_perm`: the order of declarations is only the order of what is rendered.
-/

namespace TypeExport

/-- Two bundles hold the same files before the barrel, and their barrels the same lines, both perhaps
in another order. -/
inductive Output.SameUpToOrder (barrel : String) : List OutputFile → List OutputFile → Prop where
  | empty : SameUpToOrder barrel [] []
  | bundle {files files' : List OutputFile} {lines lines' : List String} (nonempty : files ≠ [])
    (sameFiles : files.Perm files') (sameLines : lines.Perm lines') :
    SameUpToOrder barrel (files ++ [⟨barrel, lines⟩]) (files' ++ [⟨barrel, lines'⟩])

namespace Schema

variable {s s' : Schema} {f : NamespaceFilter} {barrel : String} {roots roots' : List TypeExpr}
  {entries : List Entry} {d : Declaration} {e : Entry}

/-! ## Names -/

theorem allTypes_of_perm (h : s.types.Perm s'.types) : s.allTypes.Perm s'.allTypes :=
  (h.flatMap_right _).map _

/-- A full name that is not shared refers to the same declaration in every order. -/
theorem firstWith?_of_perm (h : s.types.Perm s'.types)
    (hnames : (s.allTypes.map (·.fullName)).Nodup) {n : String} (he : s.firstWith? n = some e) :
    s'.firstWith? n = some e := by
  have hmem : e ∈ s'.allTypes := (allTypes_of_perm h).subset (List.mem_of_find?_eq_some he)
  have hnames' : (s'.allTypes.map (·.fullName)).Nodup :=
    ((allTypes_of_perm h).map _).nodup_iff.mp hnames
  obtain ⟨e', he'⟩ : ∃ e', s'.firstWith? n = some e' := by
    refine Option.isSome_iff_exists.mp (List.find?_isSome.mpr ⟨e, hmem, ?_⟩)
    simpa using fullName_of_firstWith? he
  have hname : e'.fullName = e.fullName := by
    rw [fullName_of_firstWith? he', fullName_of_firstWith? he]
  rw [he', List.inj_on_of_nodup_map hnames' (List.mem_of_find?_eq_some he') hmem hname]

/-! ## Roots -/

theorem Chooses.of_perm (h : s.types.Perm s'.types) (hd : s.Chooses f d) : s'.Chooses f d :=
  ⟨h.subset hd.declared, hd.isConcrete, hd.accepted, hd.plain⟩

/-- The full name of a class that is chosen refers to a declaration. -/
theorem Chooses.exists_firstWith? (hd : s.Chooses f d) :
    ∃ e, s.firstWith? d.fullName = some e := by
  obtain ⟨before, after, hs⟩ := List.append_of_mem hd.declared
  obtain ⟨e, he, -⟩ := Schema.exists_firstWith? hs hd.plain
  exact ⟨e, he⟩

/-- Without endpoints the candidates are the full names of classes. -/
theorem mem_candidates_iff (hends : s.endpoints = []) {c : TypeExpr} :
    c ∈ s.candidates f ↔ ∃ d ∈ s.types, d.isConcreteClass = true ∧ f.accepts d.ns = true ∧
      c = .named d.fullName := by
  simp only [candidates, hends, List.filter_nil, List.map_nil, List.append_nil, List.mem_map,
    List.mem_filter, Bool.and_eq_true, Declaration.reference_eq]
  constructor
  · rintro ⟨d, ⟨hd, hconcrete, haccepted⟩, rfl⟩
    exact ⟨d, hd, hconcrete, haccepted, rfl⟩
  · rintro ⟨d, hd, hconcrete, haccepted, rfl⟩
    exact ⟨d, ⟨hd, hconcrete, haccepted⟩, rfl⟩

/-- Without endpoints the roots are the full names of the classes that are chosen. -/
theorem exists_roots (hends : s.endpoints = [])
    (hplain : ∀ d ∈ s.types, d.ns.toList.head? ≠ some '.') (f : NamespaceFilter) :
    ∃ roots, s.roots f = .ok roots ∧
      ∀ r, r ∈ roots ↔ ∃ d, s.Chooses f d ∧ r = .named d.fullName := by
  have hpayloads : ∀ c ∈ s.candidates f, ∃ p, c.payload = .ok p := fun c hc => by
    obtain ⟨d, -, -, -, rfl⟩ := (mem_candidates_iff hends).mp hc
    exact ⟨_, rfl⟩
  obtain ⟨payloads, hps⟩ := map_payload_iff.mpr hpayloads
  have hroots : s.roots f = .ok (s.rootsOf payloads) := roots_eq_ok_iff.mpr ⟨payloads, hps, rfl⟩
  refine ⟨_, hroots, fun r => ⟨fun hr => ?_, ?_⟩⟩
  · obtain ⟨c, hc, p, hp, -, rfl⟩ := (mem_roots_iff hroots).mp hr
    obtain ⟨d, hd, hconcrete, haccepted, rfl⟩ := (mem_candidates_iff hends).mp hc
    have hchosen : s.Chooses f d := ⟨hd, hconcrete, haccepted, hplain d hd⟩
    obtain ⟨e, he⟩ := hchosen.exists_firstWith?
    cases hp
    refine ⟨d, hchosen, ?_⟩
    simp only [canonical, resolve?_of_firstWith? he, fullName_of_firstWith? he]
  · rintro ⟨d, hd, rfl⟩
    obtain ⟨e, he⟩ := hd.exists_firstWith?
    exact hd.mem_roots hroots he

/-! ## Exports -/

/-- Roots in another order export the same declarations, in another order. -/
theorem Exports.of_perm (h : s.Exports roots entries) (hroots : roots.Perm roots') :
    ∃ entries', s.Exports roots' entries' ∧ entries.Perm entries' := by
  obtain ⟨hdeclared, hdistinct⟩ := exists_exports_iff.mp ⟨entries, h⟩
  obtain ⟨entries', h'⟩ := exists_exports_iff.mpr
    ⟨fun r hr => hdeclared r (hroots.symm.subset hr),
      ((hroots.filterMap s.entryOf?).map _).nodup_iff.mp hdistinct⟩
  have hperm : (entries.map some).Perm (entries'.map some) := by
    rw [← h.declared, ← h'.declared]
    exact hroots.map s.entryOf?
  exact ⟨entries', h', (List.map_perm_map_iff (Option.some_injective Entry)).mp hperm⟩

/-- Exports depend on nothing but the declarations of the roots. -/
theorem Exports.congr (h : s.Exports roots entries)
    (hentry : ∀ r ∈ roots, s'.entryOf? r = s.entryOf? r) : s'.Exports roots entries :=
  ⟨(List.map_congr_left hentry).trans h.declared, h.distinct⟩

/-! ## Bundles -/

/-- A bundle of the declarations in one order has a counterpart in every other order. -/
theorem exists_render_of_perm (h : s.types.Perm s'.types) (hends : s.endpoints = [])
    (hends' : s'.endpoints = []) (hnames : (s.allTypes.map (·.fullName)).Nodup)
    (hplain : ∀ d ∈ s.types, d.ns.toList.head? ≠ some '.') {files : List OutputFile}
    (hrender : s.render f barrel = .ok files) :
    ∃ files', s'.render f barrel = .ok files' ∧ Output.SameUpToOrder barrel files files' := by
  obtain ⟨roots, entries, hroots, hexp, rfl⟩ := render_eq_ok_iff.mp hrender
  have hplain' : ∀ d ∈ s'.types, d.ns.toList.head? ≠ some '.' := fun d hd =>
    hplain d (h.symm.subset hd)
  obtain ⟨_, hok, hmem⟩ := exists_roots hends hplain f
  cases hroots.symm.trans hok
  obtain ⟨roots', hroots', hmem'⟩ := exists_roots hends' hplain' f
  have hperm : roots.Perm roots' := by
    refine (List.perm_ext_iff_of_nodup (nodup_roots hroots) (nodup_roots hroots')).mpr fun r => ?_
    rw [hmem, hmem']
    exact exists_congr fun d => and_congr_left' ⟨.of_perm h, .of_perm h.symm⟩
  -- Both models have the same declaration for a root, the only one of its full name.
  have hentry : ∀ r ∈ roots, s'.entryOf? r = s.entryOf? r := fun r hr => by
    obtain ⟨d, hd, rfl⟩ := (hmem r).mp hr
    obtain ⟨e, he⟩ := hd.exists_firstWith?
    rw [entryOf?, entryOf?, resolve?_of_firstWith? he,
      resolve?_of_firstWith? (firstWith?_of_perm h hnames he)]
  obtain ⟨entries', hexp', hentries⟩ := (hexp.congr hentry).of_perm hperm
  refine ⟨_, render_eq_ok_iff.mpr ⟨roots', entries', hroots', hexp', rfl⟩, ?_⟩
  by_cases hnil : entries = []
  · subst hnil
    rw [if_pos rfl, if_pos hentries.nil_eq.symm]
    exact .empty
  · rw [if_neg hnil, if_neg fun hnil' => hnil (hnil' ▸ hentries).eq_nil]
    exact .bundle (by simpa using hnil) (hentries.map _) (hentries.map _)

/-- **The order of declarations.** Take a model without endpoints whose full names all differ and whose
namespaces do not begin with a dot, and put its declarations in another order. Then both can be rendered
or none, and the bundles differ only by the order of files and of lines in the barrel. -/
theorem render_of_perm (h : s.types.Perm s'.types) (hends : s.endpoints = [])
    (hends' : s'.endpoints = []) (hnames : (s.allTypes.map (·.fullName)).Nodup)
    (hplain : ∀ d ∈ s.types, d.ns.toList.head? ≠ some '.') :
    ((∃ files, s'.render f barrel = .ok files) ↔ ∃ files, s.render f barrel = .ok files) ∧
      ∀ files files', s.render f barrel = .ok files → s'.render f barrel = .ok files' →
        Output.SameUpToOrder barrel files files' := by
  have hnames' : (s'.allTypes.map (·.fullName)).Nodup :=
    ((allTypes_of_perm h).map _).nodup_iff.mp hnames
  have hplain' : ∀ d ∈ s'.types, d.ns.toList.head? ≠ some '.' := fun d hd =>
    hplain d (h.symm.subset hd)
  refine ⟨⟨?_, ?_⟩, fun files files' hfiles hfiles' => ?_⟩
  · rintro ⟨files, hfiles⟩
    obtain ⟨files', hfiles', -⟩ :=
      exists_render_of_perm h.symm hends' hends hnames' hplain' hfiles
    exact ⟨files', hfiles'⟩
  · rintro ⟨files, hfiles⟩
    obtain ⟨files', hfiles', -⟩ := exists_render_of_perm h hends hends' hnames hplain hfiles
    exact ⟨files', hfiles'⟩
  · obtain ⟨_, hok, hsame⟩ := exists_render_of_perm h hends hends' hnames hplain hfiles
    cases hok.symm.trans hfiles'
    exact hsame

/-- Two classes. One has the name of an enumeration that is nested in the other. -/
def sampleDepot : Schema where
  types := [
    { name := "Order"
      ns := "Shop"
      shape := .classType false [⟨"State", .named "Order.State", .exposed, none⟩]
      nested := [{ name := "State", ns := "Shop", shape := .enumeration [⟨"Open", 0⟩] }] },
    { name := "State", ns := "Shop.Admin", shape := .classType false [] }]

/-- The files of the two classes change places. -/
theorem render_of_perm_sampleDepot :
    let s := sampleDepot
    let s' : Schema := { types := sampleDepot.types.reverse }
    s.types.Perm s'.types ∧ s.endpoints = [] ∧ s'.endpoints = [] ∧
      (s.allTypes.map (·.fullName)).Nodup ∧
      (∀ d ∈ s.types, d.ns.toList.head? ≠ some '.') ∧
      ∃ files files', s.render ⟨"Shop", true⟩ "index.ts" = .ok files ∧
        s'.render ⟨"Shop", true⟩ "index.ts" = .ok files' ∧
        files.map (·.name) = ["Order.ts", "State.ts", "index.ts"] ∧
        files'.map (·.name) = ["State.ts", "Order.ts", "index.ts"] ∧
        Output.SameUpToOrder "index.ts" files files' := by
  intro s s'
  have hperm : s.types.Perm s'.types := (List.reverse_perm s.types).symm
  have hnames : (s.allTypes.map (·.fullName)).Nodup := by decide
  have hplain : ∀ d ∈ s.types, d.ns.toList.head? ≠ some '.' := by decide
  obtain ⟨files, hfiles, hfileNames⟩ : ∃ files, s.render ⟨"Shop", true⟩ "index.ts" = .ok files ∧
    files.map (·.name) = ["Order.ts", "State.ts", "index.ts"] := ⟨_, rfl, rfl⟩
  obtain ⟨files', hfiles', hfileNames'⟩ :
    ∃ files', s'.render ⟨"Shop", true⟩ "index.ts" = .ok files' ∧
      files'.map (·.name) = ["State.ts", "Order.ts", "index.ts"] := ⟨_, rfl, rfl⟩
  exact ⟨hperm, rfl, rfl, hnames, hplain, files, files', hfiles, hfiles', hfileNames, hfileNames',
    (render_of_perm hperm rfl rfl hnames hplain).2 files files' hfiles hfiles'⟩

end Schema

end TypeExport
