import TypeExport.Proofs.Output.Classes

/-!
# Wider filters

A wider filter has more candidates, and more of them may fail. Among them are those of the narrower
one, so the roots of the narrower one are found again, perhaps in another order, and have the same
files.

* `Schema.roots_of_wider`: the roots of a narrower filter are roots of the wider one.
* `Schema.Exports.of_subset`: some of the roots that can be exported can be exported on their own.
* `Schema.render_of_wider`: a narrower filter succeeds with a wider one, and its files are among those
  of the wider one.
-/

namespace TypeExport

/-- Every namespace that `f` accepts, `g` accepts as well. -/
def NamespaceFilter.IsWithin (f g : NamespaceFilter) : Prop :=
  ∀ ns, f.accepts ns = true → g.accepts ns = true

theorem NamespaceFilter.isWithin_nested (ns : String) :
    IsWithin { ns := ns, includeNested := false } { ns := ns, includeNested := true } := by
  intro m h
  simp only [accepts, Bool.false_and, Bool.or_false] at h
  simp only [accepts, h, Bool.true_or]

namespace Schema

variable {s : Schema} {f g : NamespaceFilter} {barrel : String} {roots roots' : List TypeExpr}
  {entries : List Entry}

theorem candidates_subset (h : f.IsWithin g) {c : TypeExpr} (hc : c ∈ s.candidates f) :
    c ∈ s.candidates g := by
  simp only [candidates, List.mem_append, List.mem_map, List.mem_filter, Bool.and_eq_true] at hc ⊢
  rcases hc with ⟨d, ⟨hd, hconcrete, haccepts⟩, rfl⟩ | ⟨e, ⟨he, haccepts⟩, rfl⟩
  · exact .inl ⟨d, ⟨hd, hconcrete, h d.ns haccepts⟩, rfl⟩
  · exact .inr ⟨e, ⟨he, h e.ns haccepts⟩, rfl⟩

/-- The roots of a narrower filter can be found, and are roots of the wider one. -/
theorem roots_of_wider (h : f.IsWithin g) (hg : s.roots g = .ok roots) :
    ∃ roots', s.roots f = .ok roots' ∧ ∀ r ∈ roots', r ∈ roots := by
  have hpayloads : ∀ c ∈ s.candidates f, ∃ p, c.payload = .ok p := fun c hc => by
    obtain ⟨payloads, hps, -⟩ := roots_eq_ok_iff.mp hg
    exact map_payload_iff.mp ⟨payloads, hps⟩ c (candidates_subset h hc)
  obtain ⟨payloads, hps⟩ := map_payload_iff.mpr hpayloads
  have hf : s.roots f = .ok (s.rootsOf payloads) := roots_eq_ok_iff.mpr ⟨payloads, hps, rfl⟩
  refine ⟨_, hf, fun r hr => ?_⟩
  obtain ⟨c, hc, hp⟩ := (mem_roots_iff hf).mp hr
  exact (mem_roots_iff hg).mpr ⟨c, candidates_subset h hc, hp⟩

/-- Some of the roots that can be exported can be exported on their own, as the same declarations. -/
theorem Exports.of_subset (h : s.Exports roots entries) (hnodup : roots'.Nodup)
    (hsub : ∀ r ∈ roots', r ∈ roots) :
    ∃ entries', s.Exports roots' entries' ∧ ∀ e ∈ entries', e ∈ entries := by
  have hdeclared : ∀ r ∈ roots', ∃ e, s.entryOf? r = some e := fun r hr =>
    (exists_exports_iff.mp ⟨entries, h⟩).1 r (hsub r hr)
  -- Two of these roots with declarations of one name would share that name among all roots.
  have hdistinct : ((roots'.filterMap s.entryOf?).map (·.declaration.name)).Nodup := by
    rw [List.Nodup, List.pairwise_map, List.pairwise_filterMap]
    refine hnodup.imp_of_mem fun hr₁ hr₂ hne e₁ he₁ e₂ he₂ hname => ?_
    exact hne (h.eq_of_name_eq (hsub _ hr₁) (hsub _ hr₂) he₁ he₂ hname)
  obtain ⟨entries', h'⟩ := exists_exports_iff.mpr ⟨hdeclared, hdistinct⟩
  refine ⟨entries', h', fun e he => ?_⟩
  have hmem : some e ∈ roots'.map s.entryOf? := by
    rw [h'.declared]
    exact List.mem_map_of_mem he
  obtain ⟨r, hr, hre⟩ := List.mem_map.mp hmem
  exact h.mem (hsub r hr) hre

/-- **A wider filter loses nothing.** If a wider filter succeeds, a narrower one does. Each of its
files before the barrel is among those of the wider filter, with the same name and lines, and its
barrel exports nothing that the barrel of the wider filter does not export. -/
theorem render_of_wider {wide : List OutputFile} (h : f.IsWithin g)
    (hg : s.render g barrel = .ok wide) :
    ∃ narrow, s.render f barrel = .ok narrow ∧ (∀ x ∈ narrow.dropLast, x ∈ wide.dropLast) ∧
      ∀ x ∈ narrow.getLast?, x.name = barrel ∧ ∃ y ∈ wide.getLast?, y.name = barrel ∧
        ∀ line ∈ x.lines, line ∈ y.lines := by
  obtain ⟨roots, entries, hroots, hexp, rfl⟩ := render_eq_ok_iff.mp hg
  obtain ⟨roots', hroots', hsub⟩ := roots_of_wider h hroots
  obtain ⟨entries', hexp', hentries⟩ := hexp.of_subset (nodup_roots hroots') hsub
  refine ⟨_, render_eq_ok_iff.mpr ⟨roots', entries', hroots', hexp', rfl⟩, ?_⟩
  by_cases hnil : entries' = []
  · simp [hnil]
  · obtain ⟨e, he⟩ := List.exists_mem_of_ne_nil entries' hnil
    have hne : entries ≠ [] := List.ne_nil_of_mem (hentries e he)
    simp only [if_neg hnil, if_neg hne, List.dropLast_concat, List.getLast?_concat,
      Option.mem_some_iff]
    refine ⟨fun x hx => ?_, ?_⟩
    · obtain ⟨e, he, rfl⟩ := List.mem_map.mp hx
      exact List.mem_map_of_mem (hentries e he)
    · rintro x rfl
      refine ⟨rfl, _, rfl, rfl, fun line hline => ?_⟩
      obtain ⟨e, he, rfl⟩ := List.mem_map.mp hline
      exact List.mem_map_of_mem (hentries e he)

/-- An order, which an endpoint returns with its lines, and the lines below its namespace. -/
def sampleLines : Schema where
  types := [
    { name := "Line", ns := "Shop.Parts", shape := .classType false [] },
    { name := "Order", ns := "Shop", shape := .classType false [] }]
  endpoints := [⟨"GetLines", "Shop", .generic .task [.array (.named "Line")]⟩]

/-- The wider filter finds the lines first, the narrower one finds them by way of the endpoint. -/
theorem render_of_wider_sampleLines :
    NamespaceFilter.IsWithin ⟨"Shop", false⟩ ⟨"Shop", true⟩ ∧
    sampleLines.roots ⟨"Shop", true⟩ = .ok [.named "Shop.Parts.Line", .named "Shop.Order"] ∧
    sampleLines.roots ⟨"Shop", false⟩ = .ok [.named "Shop.Order", .named "Shop.Parts.Line"] ∧
    ∃ narrow wide, sampleLines.render ⟨"Shop", true⟩ "index.ts" = .ok wide ∧
      sampleLines.render ⟨"Shop", false⟩ "index.ts" = .ok narrow ∧
      ∀ x ∈ narrow.dropLast, x ∈ wide.dropLast := by
  have hwithin : NamespaceFilter.IsWithin ⟨"Shop", false⟩ ⟨"Shop", true⟩ :=
    NamespaceFilter.isWithin_nested "Shop"
  obtain ⟨wide, hwide⟩ : ∃ wide, sampleLines.render ⟨"Shop", true⟩ "index.ts" = .ok wide := ⟨_, rfl⟩
  obtain ⟨narrow, hnarrow, hfiles, -⟩ := render_of_wider hwithin hwide
  exact ⟨hwithin, rfl, rfl, narrow, wide, hwide, hnarrow, hfiles⟩

end Schema

end TypeExport
