import Mathlib
import TypeExport.Proofs.Output.Bundle
import TypeExport.Proofs.Schema.FullNames

/-!
# The files of classes

A filter chooses classes, and a class goes by its full name on its way to a file. So the name is all
that is kept of it, and the declaration that is exported is the first one with this name.

* `Schema.exists_allTypes_eq`: where a declaration stands among all, and under which name.
* `Schema.Chooses.mem_roots`: the full name of a class that is chosen is a root.
* `Schema.Exports.eq_of_name_eq`: different roots are exported under different names.
* `Schema.chosen_classes_exported`: the file of the first declaration with the full name of a class
  is in the bundle. Classes with different full names have different files.
* `Schema.not_chosen_classes_exported`: of two classes with one full name only the first is exported.
-/

namespace TypeExport

/-- The full name of a declaration that is not nested. -/
def Declaration.fullName (d : Declaration) : String :=
  if d.ns = "" then d.name else d.ns ++ "." ++ d.name

theorem Declaration.reference_eq (d : Declaration) : d.reference = .named d.fullName := rfl

namespace Schema

variable {s : Schema} {f : NamespaceFilter} {barrel : String} {roots : List TypeExpr}
  {entries : List Entry} {files : List OutputFile} {d : Declaration} {e : Entry}

/-! ## Names -/

/-- A declaration is listed under its full name, unless its namespace begins with a dot. -/
theorem withoutLeadingDot_fullName (h : d.ns.toList.head? ≠ some '.') :
    withoutLeadingDot (d.ns ++ "." ++ d.name) = d.fullName :=
  withoutLeadingDot_qualified h d.name

/-- A declaration that is not nested stands behind those before it, and all that is nested in
these. -/
theorem exists_allTypes_eq {before after : List Declaration} (hs : s.types = before ++ d :: after)
    (h : d.ns.toList.head? ≠ some '.') :
    ∃ back, s.allTypes = ({ types := before } : Schema).allTypes ++ ⟨d.fullName, d⟩ :: back := by
  have hentries : ∃ inner, d.entries d.ns = ⟨d.ns ++ "." ++ d.name, d⟩ :: inner := by
    cases d
    exact ⟨_, rfl⟩
  obtain ⟨inner, hentries⟩ := hentries
  unfold allTypes
  rw [hs, List.flatMap_append, List.flatMap_cons, hentries, List.map_append, List.cons_append,
    List.map_cons, withoutLeadingDot_fullName h]
  exact ⟨_, rfl⟩

/-- The first declaration with a full name. -/
def firstWith? (s : Schema) (fullName : String) : Option Entry :=
  s.allTypes.find? (·.fullName == fullName)

theorem resolve?_of_firstWith? {n : String} (h : s.firstWith? n = some e) :
    s.resolve? n = some e := by
  rw [firstWith?] at h
  rw [resolve?, h, Option.some_or]

theorem fullName_of_firstWith? {n : String} (h : s.firstWith? n = some e) : e.fullName = n := by
  simpa using List.find?_some h

/-- Some declaration is the first with the full name of this one: this one, if those before it, and
all that is nested in these, have other full names. -/
theorem exists_firstWith? {before after : List Declaration} (hs : s.types = before ++ d :: after)
    (h : d.ns.toList.head? ≠ some '.') :
    ∃ e, s.firstWith? d.fullName = some e ∧
      ((∀ x ∈ ({ types := before } : Schema).allTypes, x.fullName ≠ d.fullName) →
        e.declaration = d) := by
  obtain ⟨back, hall⟩ := exists_allTypes_eq hs h
  rw [firstWith?, hall, List.find?_append]
  cases hfind : ({ types := before } : Schema).allTypes.find? (·.fullName == d.fullName) with
  | none => exact ⟨⟨d.fullName, d⟩, by simp, fun _ => rfl⟩
  | some e =>
    refine ⟨e, rfl, fun hother => ?_⟩
    have hname : e.fullName = d.fullName := by simpa using List.find?_some hfind
    exact absurd hname (hother e (List.mem_of_find?_eq_some hfind))

/-! ## Roots -/

/-- A filter chooses a class. Its namespace does not begin with a dot. -/
structure Chooses (s : Schema) (f : NamespaceFilter) (d : Declaration) : Prop where
  declared : d ∈ s.types
  isConcrete : d.isConcreteClass = true
  accepted : f.accepts d.ns = true
  plain : d.ns.toList.head? ≠ some '.'

/-- A root is a candidate's payload by its full name. -/
theorem named_mem_roots {n : String} (hroots : s.roots f = .ok roots)
    (hmem : .named n ∈ s.candidates f) (h : s.firstWith? n = some e) : .named n ∈ roots := by
  obtain ⟨payloads, hps, rfl⟩ := roots_eq_ok_iff.mp hroots
  have hpayload : .named n ∈ payloads := by
    have hok := List.mem_map_of_mem (f := TypeExpr.payload) hmem
    rw [hps, TypeExpr.payload, TypeExpr.payloadWithin] at hok
    simpa using hok
  have hcanonical : s.canonical (.named n) = .named n := by
    simp only [canonical, resolve?_of_firstWith? h, fullName_of_firstWith? h]
  rw [rootsOf, List.mem_eraseDups, ← hcanonical]
  exact List.mem_map_of_mem (List.mem_filter.mpr ⟨hpayload, by simp [TypeExpr.isPrimitive]⟩)

theorem Chooses.mem_roots (hd : s.Chooses f d) (hroots : s.roots f = .ok roots)
    (h : s.firstWith? d.fullName = some e) : .named d.fullName ∈ roots := by
  refine named_mem_roots hroots (List.mem_append_left _ ?_) h
  rw [← d.reference_eq]
  exact List.mem_map_of_mem
    (List.mem_filter.mpr ⟨hd.declared, by rw [hd.isConcrete, hd.accepted, Bool.and_self]⟩)

/-! ## Exports -/

/-- The declaration of a root has the position of the root. -/
theorem Exports.getElem?_eq (h : s.Exports roots entries) {i : Nat} {r : TypeExpr}
    (hr : roots[i]? = some r) (he : s.entryOf? r = some e) : entries[i]? = some e := by
  have hi : (roots.map s.entryOf?)[i]? = (entries.map some)[i]? := by rw [h.declared]
  rw [List.getElem?_map, List.getElem?_map, hr, Option.map_some, he] at hi
  obtain ⟨x, hx, heq⟩ := Option.map_eq_some_iff.mp hi.symm
  rw [hx, Option.some.inj heq]

theorem Exports.mem (h : s.Exports roots entries) {r : TypeExpr} (hr : r ∈ roots)
    (he : s.entryOf? r = some e) : e ∈ entries := by
  obtain ⟨i, hi⟩ := List.mem_iff_getElem?.mp hr
  exact List.mem_of_getElem? (h.getElem?_eq hi he)

/-- Different roots are exported under different names. -/
theorem Exports.eq_of_name_eq (h : s.Exports roots entries) {r₁ r₂ : TypeExpr} {e₁ e₂ : Entry}
    (hr₁ : r₁ ∈ roots) (hr₂ : r₂ ∈ roots) (he₁ : s.entryOf? r₁ = some e₁)
    (he₂ : s.entryOf? r₂ = some e₂) (hname : e₁.declaration.name = e₂.declaration.name) :
    r₁ = r₂ := by
  obtain ⟨i, hi⟩ := List.mem_iff_getElem?.mp hr₁
  obtain ⟨j, hj⟩ := List.mem_iff_getElem?.mp hr₂
  have hnames : (entries.map (·.declaration.name))[i]? = (entries.map (·.declaration.name))[j]? := by
    rw [List.getElem?_map, List.getElem?_map, h.getElem?_eq hi he₁, h.getElem?_eq hj he₂,
      Option.map_some, Option.map_some, hname]
  have hlt : i < (entries.map (·.declaration.name)).length := by
    rw [List.length_map]
    exact (List.getElem?_eq_some_iff.mp (h.getElem?_eq hi he₁)).1
  rw [(List.getElem?_inj hlt h.distinct).mp hnames, hj] at hi
  exact (Option.some.inj hi).symm

/-- **The files of classes.** Say that a bundle can be rendered.
* For each class that is chosen, the first declaration with its full name has a file before the
  barrel, with the lines of this declaration. No other of these files has its name.
* It is the class itself if no declaration before the class, nested ones included, has its full name.
* For classes with different full names these are different files. -/
theorem chosen_classes_exported (h : s.render f barrel = .ok files) :
    (files.dropLast.map (·.name)).Nodup ∧
    (∀ before d after, s.types = before ++ d :: after → s.Chooses f d →
      ∃ e, s.firstWith? d.fullName = some e ∧
        ⟨e.declaration.name ++ ".ts", Output.declarationLines e.declaration⟩ ∈ files.dropLast ∧
        ((∀ x ∈ ({ types := before } : Schema).allTypes, x.fullName ≠ d.fullName) →
          e.declaration = d)) ∧
    ∀ d₁ d₂ e₁ e₂, s.Chooses f d₁ → s.Chooses f d₂ → d₁.fullName ≠ d₂.fullName →
      s.firstWith? d₁.fullName = some e₁ → s.firstWith? d₂.fullName = some e₂ →
      e₁.declaration.name ≠ e₂.declaration.name := by
  obtain ⟨roots, entries, hroots, hexp, hfiles⟩ := dropLast_of_render h
  rw [hfiles]
  refine ⟨?_, ?_, ?_⟩
  · rw [← hfiles]
    exact nodup_dropLast_of_render h
  · intro before d after hs hd
    obtain ⟨e, he, hself⟩ := exists_firstWith? hs hd.plain
    have hmem : e ∈ entries := hexp.mem (hd.mem_roots hroots he) (resolve?_of_firstWith? he)
    exact ⟨e, he, List.mem_map_of_mem hmem, hself⟩
  · intro d₁ d₂ e₁ e₂ hd₁ hd₂ hne he₁ he₂ hname
    have heq := hexp.eq_of_name_eq (hd₁.mem_roots hroots he₁) (hd₂.mem_roots hroots he₂)
      (resolve?_of_firstWith? he₁) (resolve?_of_firstWith? he₂) hname
    exact hne (TypeExpr.named.inj heq)

/-- A class `Order` with one property. -/
def orderIn (ns property : String) (type : TypeExpr) : Declaration where
  name := "Order"
  ns := ns
  shape := .classType false [⟨property, type, .exposed, none⟩]

/-- Two classes with one full name. -/
def sampleOrders : Schema where
  types := [orderIn "Shop" "Id" (.primitive .int32), orderIn "Shop" "Open" (.primitive .boolean)]

/-- The files of `sampleOrders`. -/
def sampleOrdersBundle : List OutputFile :=
  [⟨"Order.ts", ["export interface Order \x7b", "  id: number;", "\x7d"]⟩,
    ⟨"index.ts", ["export \x7bOrder\x7d from \"./Order\";"]⟩]

theorem render_sampleOrders :
    sampleOrders.render ⟨"Shop", false⟩ "index.ts" = .ok sampleOrdersBundle := by cbv

/-- The first of the two classes is exported. -/
theorem chosen_classes_exported_sampleOrders :
    sampleOrders.render ⟨"Shop", false⟩ "index.ts" = .ok sampleOrdersBundle ∧
    ∃ d after e, sampleOrders.types = d :: after ∧ sampleOrders.firstWith? d.fullName = some e ∧
      ⟨e.declaration.name ++ ".ts", Output.declarationLines e.declaration⟩ ∈
        sampleOrdersBundle.dropLast ∧
      e.declaration = d := by
  obtain ⟨e, hfirst, hfile, hself⟩ := (chosen_classes_exported render_sampleOrders).2.1 [] _ _ rfl
    ⟨List.mem_cons_self, by decide, by decide, by decide⟩
  exact ⟨render_sampleOrders, _, _, e, rfl, hfirst, hfile, hself (by simp [allTypes])⟩

/-- The second of two classes with one full name is left out. A class can be left out even if all full
names differ: of a namespace that begins with dots, one is lost in the list of all declarations. -/
theorem not_chosen_classes_exported :
    (¬ ∀ (s : Schema) (f : NamespaceFilter) (barrel : String) (files : List OutputFile),
      s.render f barrel = .ok files →
      ∀ d ∈ s.types, d.isConcreteClass = true → f.accepts d.ns = true →
        ⟨d.name ++ ".ts", Output.declarationLines d⟩ ∈ files) ∧
    ¬ ∀ (s : Schema) (f : NamespaceFilter) (barrel : String) (files : List OutputFile),
      (s.types.map (·.fullName)).Nodup → s.render f barrel = .ok files →
      ∀ d ∈ s.types, d.isConcreteClass = true → f.accepts d.ns = true →
        ⟨d.name ++ ".ts", Output.declarationLines d⟩ ∈ files := by
  constructor
  · intro hall
    have hmem := hall _ _ _ _ render_sampleOrders _ (List.mem_cons_of_mem _ List.mem_cons_self)
      (by decide) (by decide)
    have hlines : Output.declarationLines (orderIn "Shop" "Open" (.primitive .boolean)) =
        ["export interface Order \x7b", "  open: boolean;", "\x7d"] := by cbv
    rw [hlines] at hmem
    simp [sampleOrdersBundle] at hmem
  · intro hall
    have hrender : render { types := [orderIn ".Shop" "Open" (.primitive .boolean),
        orderIn "..Shop" "Id" (.primitive .int32)] } ⟨".Shop", false⟩ "index.ts" =
        .ok sampleOrdersBundle := by cbv
    have hmem := hall _ _ _ _ (by decide) hrender _ List.mem_cons_self (by decide) (by decide)
    have hlines : Output.declarationLines (orderIn ".Shop" "Open" (.primitive .boolean)) =
        ["export interface Order \x7b", "  open: boolean;", "\x7d"] := by cbv
    rw [hlines] at hmem
    simp [sampleOrdersBundle] at hmem

end Schema

end TypeExport
