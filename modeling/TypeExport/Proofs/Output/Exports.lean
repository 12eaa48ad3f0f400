import TypeExport.Proofs.Output.Widening
import TypeExport.Proofs.Schema.FullNames

/-!
# Exported declarations

Candidates lead to roots, and roots to the declarations that are exported. A declaration can have the full
name of another one, so it is full names that are kept on the way.

* `Schema.fullName_of_resolve?_fullName`: the full name of a class refers to a declaration with this full
  name, if to any.
* `Schema.mem_exports_iff`: the full names of the declarations that are exported.
* `Schema.Exports.exists_resolve?`: what roots stand for is declared, if they can be exported.
-/

namespace TypeExport.Schema

variable {s : Schema} {f : NamespaceFilter} {roots : List TypeExpr} {entries : List Entry}
  {d : Declaration} {e : Entry}

/-! ## Names of classes -/

/-- A path does not begin with a dot, unless it is the full name. -/
theorem path_cases (e : Entry) : e.path = e.fullName ∨ e.path.toList.head? ≠ some '.' := by
  unfold Entry.path
  split
  · next rest _ =>
    refine .inr fun hhead => ?_
    have hnot := List.head?_dropWhile_not (fun c => c == '.') rest.toList
    rw [String.toList_ofList] at hhead
    simp [hhead] at hnot
  · exact .inl rfl

/-- The full name of a class refers to a declaration with the same full name, if to any. -/
theorem fullName_of_resolve?_fullName (hd : d ∈ s.types) (h : s.resolve? d.fullName = some e) :
    e.fullName = d.fullName := by
  by_cases hplain : d.ns.toList.head? = some '.'
  · have hns : d.ns ≠ "" := by
      rintro hns
      simp [hns] at hplain
    have hname : d.fullName = d.ns ++ "." ++ d.name := if_neg hns
    have hhead : d.fullName.toList.head? = some '.' := by
      simp [hname, hplain]
    obtain ⟨-, h | h | ⟨hdot, -⟩⟩ := resolve?_cases h
    · exact h
    · rcases path_cases e with hcase | hcase
      · rw [← hcase, h]
      · rw [h] at hcase
        exact absurd hhead hcase
    · simp [Text.hasChar, hname] at hdot
  · obtain ⟨before, after, hs⟩ := List.append_of_mem hd
    obtain ⟨e', he', -⟩ := exists_firstWith? hs hplain
    rw [resolve?_of_firstWith? he'] at h
    cases h
    exact fullName_of_firstWith? he'

theorem lastSegment_of_resolve?_fullName (hd : d ∈ s.types) (h : s.resolve? d.fullName = some e) :
    Text.lastSegment e.declaration.name = Text.lastSegment d.name := by
  rw [← lastSegment_fullName (mem_allTypes_of_resolve? h), fullName_of_resolve?_fullName hd h]
  unfold Declaration.fullName
  split
  · rfl
  · exact congrArg String.ofList (Text.afterLast_append_dot (by simp) d.ns d.name)

/-! ## Roots and their declarations -/

/-- A name and the root that it stands for refer to declarations of one full name. -/
theorem exists_entryOf?_canonical {m : String} (h : s.resolve? m = some e) :
    ∃ e', s.entryOf? (s.canonical (.named m)) = some e' ∧ e'.fullName = e.fullName := by
  simp only [canonical, h, entryOf?]
  exact resolve?_fullName (mem_allTypes_of_resolve? h)

/-- A name that refers to nothing stands for itself. -/
theorem entryOf?_canonical_of_none {m : String} (h : s.resolve? m = none) :
    s.entryOf? (s.canonical (.named m)) = none := by
  simp only [canonical, h, entryOf?]

theorem Exports.exists_root (h : s.Exports roots entries) (he : e ∈ entries) :
    ∃ r ∈ roots, s.entryOf? r = some e := by
  have hmem := List.mem_map_of_mem (f := some) he
  rw [← h.declared] at hmem
  exact List.mem_map.mp hmem

theorem mem_allTypes_of_entryOf? {r : TypeExpr} (h : s.entryOf? r = some e) : e ∈ s.allTypes := by
  cases r with
  | named n => exact mem_allTypes_of_resolve? h
  | primitive | array | generic => cases h

theorem Exports.mem_allTypes (h : s.Exports roots entries) (he : e ∈ entries) : e ∈ s.allTypes := by
  obtain ⟨r, -, hentry⟩ := h.exists_root he
  exact mem_allTypes_of_entryOf? hentry

/-- What the payload of a candidate stands for is a root, unless it is a primitive. -/
theorem canonical_mem_roots (hroots : s.roots f = .ok roots) {c : TypeExpr}
    (hc : c ∈ s.candidates f) {m : String} (hp : c.payload = .ok (.named m)) :
    s.canonical (.named m) ∈ roots :=
  (mem_roots_iff hroots).mpr ⟨c, hc, .named m, hp, rfl, rfl⟩

/-- The full names of the declarations that are exported are those that payloads of candidates refer
to. -/
theorem mem_exports_iff (hroots : s.roots f = .ok roots) (hexp : s.Exports roots entries)
    {n : String} : (∃ e ∈ entries, e.fullName = n) ↔
      ∃ c ∈ s.candidates f, ∃ m e, c.payload = .ok (.named m) ∧ s.resolve? m = some e ∧
        e.fullName = n := by
  constructor
  · rintro ⟨e, he, rfl⟩
    obtain ⟨r, hr, hentry⟩ := hexp.exists_root he
    obtain ⟨c, hc, p, hp, hprim, rfl⟩ := (mem_roots_iff hroots).mp hr
    rcases TypeExpr.payload_cases hp with ⟨q, rfl⟩ | ⟨m, rfl⟩
    · cases hprim
    · cases hm : s.resolve? m with
      | none =>
        rw [entryOf?_canonical_of_none hm] at hentry
        cases hentry
      | some e₀ =>
        obtain ⟨e', he', hname⟩ := exists_entryOf?_canonical hm
        rw [he'] at hentry
        cases hentry
        exact ⟨c, hc, m, e₀, hp, hm, hname.symm⟩
  · rintro ⟨c, hc, m, e₀, hp, hm, rfl⟩
    obtain ⟨e, hentry, hname⟩ := exists_entryOf?_canonical hm
    exact ⟨e, hexp.mem (canonical_mem_roots hroots hc hp) hentry, hname⟩

/-- Every candidate that stands for a declared type refers to a declaration if the roots can be
exported. -/
theorem Exports.exists_resolve? (hexp : s.Exports roots entries) (hroots : s.roots f = .ok roots)
    {c : TypeExpr} (hc : c ∈ s.candidates f) {m : String} (hp : c.payload = .ok (.named m)) :
    ∃ e, s.resolve? m = some e := by
  obtain ⟨e, hentry⟩ :=
    (exists_exports_iff.mp ⟨entries, hexp⟩).1 _ (canonical_mem_roots hroots hc hp)
  cases hm : s.resolve? m with
  | none =>
    rw [entryOf?_canonical_of_none hm] at hentry
    cases hentry
  | some e₀ => exact ⟨e₀, rfl⟩

end TypeExport.Schema
