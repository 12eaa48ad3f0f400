import TypeExport.Proofs.Output.Exports
import TypeExport.Proofs.TypeExpr.WellFormed

/-!
# Files with names of primitives

A name of a primitive in a type expression is the primitive, whatever is declared. So the result of an
endpoint never leads to a declaration with such a name. But a class is a candidate under its own name,
which no one reads as a type expression.

* `Schema.not_returnsPrimitiveName`: what a text denotes leads to no declaration with a name of a primitive.
* `Schema.primitive_name_exported_iff`: a file has a name of a primitive exactly if a class that is chosen
  has one, or an endpoint leads to such a declaration. In models from texts the latter is impossible.
* `Schema.not_primitive_names_left_out`: so there can be such files.
-/

namespace TypeExport

/-- The text is a name of a primitive. -/
def IsPrimitiveName (n : String) : Prop := (Primitive.ofName? n).isSome = true

theorem isPrimitiveName_congr {m n : String} (h : Text.lastSegment m = Text.lastSegment n) :
    IsPrimitiveName m ↔ IsPrimitiveName n := by
  unfold IsPrimitiveName Primitive.ofName?
  rw [h]

namespace TypeExpr

theorem payloadWithin_wellFormed {steps : Nat} {t p : TypeExpr} (ht : t.WellFormed)
    (h : payloadWithin steps t = .ok p) : p.WellFormed := by
  fun_induction payloadWithin steps t with
  | case1 | case2 =>
    cases h
    exact ht
  | case3 | case5 | case6 | case8 => cases h
  | case4 steps e ih =>
    cases ht with
    | array element => exact ih element h
  | case7 w hw a args steps ih =>
    cases ht with
    | fixed _ members => exact ih (members a List.mem_cons_self) h
    | custom => cases hw

end TypeExpr

namespace Schema

variable {s : Schema} {f : NamespaceFilter} {barrel : String} {roots : List TypeExpr}
  {entries : List Entry} {files : List OutputFile} {d : Declaration} {e : Entry}

/-! ## Names of primitives -/

/-- A class that the filter accepts goes by a name of a primitive. -/
def ChoosesPrimitiveName (s : Schema) (f : NamespaceFilter) : Prop :=
  ∃ d ∈ s.types, d.isConcreteClass = true ∧ f.accepts d.ns = true ∧ IsPrimitiveName d.name

/-- The result of an endpoint that the filter accepts leads to a declaration that goes by a name of a
primitive. -/
def ReturnsPrimitiveName (s : Schema) (f : NamespaceFilter) : Prop :=
  ∃ x ∈ s.endpoints, f.accepts x.ns = true ∧ ∃ m e, x.returns.payload = .ok (.named m) ∧
    s.resolve? m = some e ∧ IsPrimitiveName e.declaration.name

theorem isPrimitiveName_fullName_iff (h : e ∈ s.allTypes) :
    IsPrimitiveName e.fullName ↔ IsPrimitiveName e.declaration.name :=
  isPrimitiveName_congr (lastSegment_fullName h)

/-- A declaration with a name of a primitive is exported exactly if a candidate leads to one. -/
theorem exists_primitive_export_iff (hroots : s.roots f = .ok roots)
    (hexp : s.Exports roots entries) : (∃ e ∈ entries, IsPrimitiveName e.declaration.name) ↔
      ∃ c ∈ s.candidates f, ∃ m e, c.payload = .ok (.named m) ∧ s.resolve? m = some e ∧
        IsPrimitiveName e.declaration.name := by
  constructor
  · rintro ⟨e, he, hname⟩
    obtain ⟨c, hc, m, e₀, hp, hm, hfull⟩ := (mem_exports_iff hroots hexp).mp ⟨e, he, rfl⟩
    refine ⟨c, hc, m, e₀, hp, hm, ?_⟩
    rwa [← isPrimitiveName_fullName_iff (mem_allTypes_of_resolve? hm), hfull,
      isPrimitiveName_fullName_iff (hexp.mem_allTypes he)]
  · rintro ⟨c, hc, m, e₀, hp, hm, hname⟩
    obtain ⟨e, he, hfull⟩ := (mem_exports_iff hroots hexp).mpr ⟨c, hc, m, e₀, hp, hm, rfl⟩
    refine ⟨e, he, ?_⟩
    rwa [← isPrimitiveName_fullName_iff (hexp.mem_allTypes he), hfull,
      isPrimitiveName_fullName_iff (mem_allTypes_of_resolve? hm)]

/-- Candidates lead to such a declaration by the name of a class, or by the result of an endpoint. -/
theorem exists_primitive_candidate_iff (hroots : s.roots f = .ok roots)
    (hexp : s.Exports roots entries) :
    (∃ c ∈ s.candidates f, ∃ m e, c.payload = .ok (.named m) ∧ s.resolve? m = some e ∧
        IsPrimitiveName e.declaration.name) ↔
      s.ChoosesPrimitiveName f ∨ s.ReturnsPrimitiveName f := by
  constructor
  · rintro ⟨c, hc, m, e, hp, hm, hname⟩
    rcases List.mem_append.mp hc with hc | hc
    · obtain ⟨d, hd, rfl⟩ := List.mem_map.mp hc
      obtain ⟨hd, hchosen⟩ := List.mem_filter.mp hd
      obtain ⟨hconcrete, haccepted⟩ := Bool.and_eq_true_iff.mp hchosen
      cases hp
      have hlast := lastSegment_of_resolve?_fullName hd hm
      exact .inl ⟨d, hd, hconcrete, haccepted, (isPrimitiveName_congr hlast).mp hname⟩
    · obtain ⟨x, hx, rfl⟩ := List.mem_map.mp hc
      obtain ⟨hx, haccepted⟩ := List.mem_filter.mp hx
      exact .inr ⟨x, hx, haccepted, m, e, hp, hm, hname⟩
  · rintro (⟨d, hd, hconcrete, haccepted, hname⟩ | ⟨x, hx, haccepted, m, e, hp, hm, hname⟩)
    · have hc : d.reference ∈ s.candidates f := List.mem_append_left _
        (List.mem_map_of_mem (List.mem_filter.mpr ⟨hd, by rw [hconcrete, haccepted]; rfl⟩))
      have hp : d.reference.payload = .ok (.named d.fullName) := rfl
      obtain ⟨e, he⟩ := hexp.exists_resolve? hroots hc hp
      have hlast := lastSegment_of_resolve?_fullName hd he
      exact ⟨_, hc, _, e, hp, he, (isPrimitiveName_congr hlast).mpr hname⟩
    · have hc : x.returns ∈ s.candidates f := List.mem_append_right _
        (List.mem_map_of_mem (List.mem_filter.mpr ⟨hx, haccepted⟩))
      exact ⟨_, hc, m, e, hp, hm, hname⟩

/-- What a text denotes leads to no declaration with a name of a primitive. -/
theorem not_returnsPrimitiveName (hreturns : ∀ x ∈ s.endpoints, x.returns.WellFormed)
    (hs : s.NestedInPlace) : ¬ s.ReturnsPrimitiveName f := by
  rintro ⟨x, hx, -, m, e, hp, hm, hname⟩
  have hwell : (TypeExpr.named m).WellFormed := TypeExpr.payloadWithin_wellFormed (hreturns x hx) hp
  rw [isPrimitiveName_congr (lastSegment_of_resolve? hs hm), IsPrimitiveName] at hname
  cases hwell with
  | named _ unknown =>
    rw [unknown] at hname
    cases hname

/-- **Files with names of primitives.** Such a file is among those of the roots exactly if a class that the
filter accepts goes by a name of a primitive, or the result of an endpoint leads to a declaration that does.
In a model whose endpoints have results that a text can denote, and whose nested declarations are in the
namespaces around them, it is always because of a class. -/
theorem primitive_name_exported_iff (h : s.render f barrel = .ok files) :
    ((∃ n, IsPrimitiveName n ∧ n ++ ".ts" ∈ files.dropLast.map (·.name)) ↔
      s.ChoosesPrimitiveName f ∨ s.ReturnsPrimitiveName f) ∧
    ((∀ x ∈ s.endpoints, x.returns.WellFormed) → s.NestedInPlace →
      ((∃ n, IsPrimitiveName n ∧ n ++ ".ts" ∈ files.dropLast.map (·.name)) ↔
        s.ChoosesPrimitiveName f)) := by
  obtain ⟨roots, entries, hroots, hexp, hfiles⟩ := dropLast_of_render h
  have hnames : (∃ n, IsPrimitiveName n ∧ n ++ ".ts" ∈ files.dropLast.map (·.name)) ↔
      ∃ e ∈ entries, IsPrimitiveName e.declaration.name := by
    simp only [hfiles, List.map_map, List.mem_map, Function.comp_apply, String.append_left_inj]
    constructor
    · rintro ⟨n, hname, e, he, rfl⟩
      exact ⟨e, he, hname⟩
    · rintro ⟨e, he, hname⟩
      exact ⟨e.declaration.name, hname, e, he, rfl⟩
  have hall := hnames.trans
    ((exists_primitive_export_iff hroots hexp).trans (exists_primitive_candidate_iff hroots hexp))
  exact ⟨hall, fun hreturns hs => hall.trans (or_iff_left (not_returnsPrimitiveName hreturns hs))⟩

/-- A class with the name of a primitive, and one with a property of this name, which is the primitive. -/
def sampleAmounts : Schema where
  types := [
    { name := "Decimal"
      ns := "Shop"
      shape := .classType false [⟨"Scale", .primitive .int32, .exposed, none⟩] },
    { name := "Order"
      ns := "Shop"
      shape := .classType false [⟨"Total", .primitive .decimal, .exposed, none⟩] }]

/-- The files of `sampleAmounts`. -/
def sampleAmountsBundle : List OutputFile :=
  [⟨"Decimal.ts", ["export interface Decimal \x7b", "  scale: number;", "\x7d"]⟩,
    ⟨"Order.ts", ["export interface Order \x7b", "  total: number;", "\x7d"]⟩,
    ⟨"index.ts", ["export \x7bDecimal\x7d from \"./Decimal\";",
      "export \x7bOrder\x7d from \"./Order\";"]⟩]

theorem render_sampleAmounts :
    sampleAmounts.render ⟨"Shop", false⟩ "index.ts" = .ok sampleAmountsBundle := by cbv

theorem primitive_name_exported_sampleAmounts :
    sampleAmounts.render ⟨"Shop", false⟩ "index.ts" = .ok sampleAmountsBundle ∧
      (∀ x ∈ sampleAmounts.endpoints, x.returns.WellFormed) ∧ sampleAmounts.NestedInPlace ∧
      ∃ n, IsPrimitiveName n ∧ n ++ ".ts" ∈ sampleAmountsBundle.dropLast.map (·.name) := by
  have hreturns : ∀ x ∈ sampleAmounts.endpoints, x.returns.WellFormed := by simp [sampleAmounts]
  have hs : sampleAmounts.NestedInPlace := by
    unfold NestedInPlace
    decide
  have hchosen : sampleAmounts.ChoosesPrimitiveName ⟨"Shop", false⟩ :=
    ⟨_, List.mem_cons_self, by decide, by decide, by unfold IsPrimitiveName; decide⟩
  exact ⟨render_sampleAmounts, hreturns, hs,
    ((primitive_name_exported_iff render_sampleAmounts).2 hreturns hs).mpr hchosen⟩

/-- The file of a root can have a name that every type expression reads as a primitive. -/
theorem not_primitive_names_left_out : ¬ ∀ (s : Schema) (f : NamespaceFilter) (barrel : String)
    (files : List OutputFile), s.render f barrel = .ok files →
    ∀ n, IsPrimitiveName n → n ++ ".ts" ∉ files.dropLast.map (·.name) := by
  intro hall
  have hname : IsPrimitiveName "Decimal" := by
    unfold IsPrimitiveName
    decide
  exact hall _ _ _ _ render_sampleAmounts "Decimal" hname (by decide)

end Schema

end TypeExport
