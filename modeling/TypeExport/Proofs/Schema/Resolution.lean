import Mathlib.Data.List.Find
import Mathlib.Data.List.Nodup
import TypeExport.Proofs.Schema.Paths

/-!
# What names refer to

A declaration has a position in a model: some declaration is the outermost one around it, and a chain of names
leads from that one to it. Neither is kept in the model. A look-up joins the names to full names and cuts the
namespace off again, and that gives back the chain where declarations have usual names.

* `Schema.positions`: all declarations with their positions, depth first (`Schema.map_declaration_positions`). A position
  is what `Declaration.Contains` relates (`Schema.mem_positions_iff`).
* `Schema.allTypes_eq`: the declarations are listed under the full names of their positions.
* `Schema.WellNamed.path_entry`: cutting a full name gives back the path.
* `Schema.RefersTo`: what a name refers to, by positions. `Schema.WellNamed.resolve?_eq_some_iff` says that a
  look-up finds it.
* `Schema.resolve?_outcome`: the look-up of names, and what follows for full names and for names without dots.
-/

namespace TypeExport

/-! ## Positions -/

/-- Where a declaration stands in a model. -/
structure Position where
  /-- The declaration that it is nested in, however deeply, and that is not nested itself. It may be the
  declaration itself. -/
  outermost : Declaration
  /-- The names from the outermost declaration down to this one. -/
  names : List String
  declaration : Declaration

namespace Position

/-- The names with dots between them. -/
def path (p : Position) : String := String.intercalate "." p.names

theorem path_single (d : Declaration) : path ⟨d, [d.name], d⟩ = d.name :=
  String.intercalate_singleton ..

/-- The path in the namespace of the outermost declaration. -/
def fullName (p : Position) : String := Schema.qualified p.outermost.ns p.path

/-- The declaration under its full name. -/
def entry (p : Position) : Entry := ⟨p.fullName, p.declaration⟩

/-- The declaration is not the outermost one. -/
def IsNested (p : Position) : Prop := 1 < p.names.length

instance : DecidablePred IsNested := fun p => inferInstanceAs (Decidable (1 < p.names.length))

end Position

namespace Declaration

mutual

/-- The declaration and all that is nested in it, depth first, with the chains of names that lead there. -/
def chains : Declaration → List (List String × Declaration)
  | ⟨n, ns, s, ds, doc⟩ => ([n], ⟨n, ns, s, ds, doc⟩) :: (chainsList ds).map fun c => (n :: c.1, c.2)

def chainsList : List Declaration → List (List String × Declaration)
  | [] => []
  | d :: ds => d.chains ++ chainsList ds

end

theorem chainsList_eq_flatMap (ds : List Declaration) : chainsList ds = ds.flatMap chains := by
  induction ds with
  | nil => rfl
  | cons d ds ih => rw [chainsList, List.flatMap_cons, ih]

mutual

/-- Chains lead to all declarations, in their order. -/
theorem map_snd_chains : (d : Declaration) → d.chains.map (·.2) = d.flatten
  | ⟨n, ns, s, ds, doc⟩ => by
    rw [chains, flatten, List.map_cons, List.map_map, ← map_snd_chainsList ds]
    rfl

theorem map_snd_chainsList : (ds : List Declaration) → (chainsList ds).map (·.2) = flattenList ds
  | [] => rfl
  | d :: ds => by
    rw [chainsList, flattenList, List.map_append, map_snd_chains d, map_snd_chainsList ds]

end

mutual

theorem contains_of_mem_chains : (d : Declaration) → ∀ c ∈ d.chains, d.Contains c.1 c.2
  | ⟨n, ns, s, ds, doc⟩, c, hc => by
    rw [chains, List.mem_cons] at hc
    rcases hc with rfl | hc
    · exact .self _
    · obtain ⟨below, hbelow, rfl⟩ := List.mem_map.mp hc
      obtain ⟨inner, hinner, hx⟩ := contains_of_mem_chainsList ds below hbelow
      exact .nested hinner hx

theorem contains_of_mem_chainsList : (ds : List Declaration) → ∀ c ∈ chainsList ds,
    ∃ d ∈ ds, d.Contains c.1 c.2
  | [], c, hc => absurd hc List.not_mem_nil
  | d :: ds, c, hc => by
    rw [chainsList, List.mem_append] at hc
    rcases hc with hc | hc
    · exact ⟨d, List.mem_cons_self, contains_of_mem_chains d c hc⟩
    · obtain ⟨inner, hinner, hx⟩ := contains_of_mem_chainsList ds c hc
      exact ⟨inner, List.mem_cons_of_mem _ hinner, hx⟩

end

theorem Contains.mem_chains {d x : Declaration} {names : List String} (h : d.Contains names x) :
    (names, x) ∈ d.chains := by
  induction h with
  | self d =>
    obtain ⟨n, ns, s, ds, doc⟩ := d
    rw [chains]
    exact List.mem_cons_self
  | @nested d inner x names mem below ih =>
    obtain ⟨n, ns, s, ds, doc⟩ := d
    rw [chains, chainsList_eq_flatMap]
    exact List.mem_cons_of_mem _ (List.mem_map.mpr ⟨_, List.mem_flatMap.mpr ⟨inner, mem, ih⟩, rfl⟩)

/-- Chains are the chains along the nesting. -/
theorem mem_chains_iff {d x : Declaration} {names : List String} :
    (names, x) ∈ d.chains ↔ d.Contains names x :=
  ⟨contains_of_mem_chains d (names, x), Contains.mem_chains⟩

/-- A chain with dots nowhere is that of the outermost declaration. -/
theorem Contains.eq_of_plain {d x : Declaration} {names : List String} (h : d.Contains names x)
    (hplain : '.' ∉ (String.intercalate "." names).toList) : names = [d.name] ∧ x = d := by
  cases h with
  | self => exact ⟨rfl, rfl⟩
  | nested mem below =>
    rw [String.intercalate_cons_of_ne_nil below.ne_nil] at hplain
    simp at hplain

mutual

/-- Below a name each declaration is listed with its chain. -/
theorem entries_eq_map_chains (parent : String) : (d : Declaration) →
    d.entries parent = d.chains.map fun c => ⟨parent ++ "." ++ String.intercalate "." c.1, c.2⟩
  | ⟨n, ns, s, ds, doc⟩ => by
    rw [entries, chains, List.map_cons, List.map_map, String.intercalate_singleton,
      entriesList_eq_map_chainsList (parent ++ "." ++ n) ds]
    refine congrArg (List.cons _) (List.map_congr_left fun c hc => ?_)
    obtain ⟨inner, -, hx⟩ := contains_of_mem_chainsList ds c hc
    simp only [Function.comp_apply, String.intercalate_cons_of_ne_nil hx.ne_nil, String.append_assoc]

theorem entriesList_eq_map_chainsList (parent : String) : (ds : List Declaration) →
    entriesList parent ds =
      (chainsList ds).map fun c => ⟨parent ++ "." ++ String.intercalate "." c.1, c.2⟩
  | [] => rfl
  | d :: ds => by
    rw [entriesList, chainsList, List.map_append, entries_eq_map_chains parent d,
      entriesList_eq_map_chainsList parent ds]

end

end Declaration

namespace Schema

variable {s : Schema} {p : Position} {n : String} {e : Entry} {d : Declaration}

/-- All declarations of a model with their positions, depth first. -/
def positions (s : Schema) : List Position :=
  s.types.flatMap fun d => d.chains.map fun c => ⟨d, c.1, c.2⟩

/-- A position is a declaration that is not nested, and a chain of names from there. -/
theorem mem_positions_iff :
    p ∈ s.positions ↔ p.outermost ∈ s.types ∧ p.outermost.Contains p.names p.declaration := by
  unfold positions
  rw [List.mem_flatMap]
  constructor
  · rintro ⟨d, hd, hp⟩
    obtain ⟨⟨names, x⟩, hc, rfl⟩ := List.mem_map.mp hp
    exact ⟨hd, Declaration.mem_chains_iff.mp hc⟩
  · rintro ⟨hd, hx⟩
    exact ⟨p.outermost, hd, List.mem_map.mpr ⟨_, Declaration.mem_chains_iff.mpr hx, rfl⟩⟩

/-- What is not nested has a position with one name. -/
theorem mem_positions_of_mem_types (hd : d ∈ s.types) : ⟨d, [d.name], d⟩ ∈ s.positions :=
  mem_positions_iff.mpr ⟨hd, .self d⟩

/-- The positions are those of all declarations, in their order. -/
theorem map_declaration_positions (s : Schema) : s.positions.map (·.declaration) = s.declarations := by
  unfold positions declarations
  induction s.types with
  | nil => rfl
  | cons d ds ih =>
    rw [List.flatMap_cons, List.map_append, List.map_map, ih, Declaration.flattenList,
      ← d.map_snd_chains]
    rfl

/-- The declarations are listed under the full names of their positions, if no namespace begins with a dot. -/
theorem allTypes_eq (hplain : ∀ d ∈ s.types, d.ns.toList.head? ≠ some '.') :
    s.allTypes = s.positions.map Position.entry := by
  unfold allTypes positions
  rw [List.map_flatMap, List.map_flatMap]
  refine List.flatMap_congr fun d hd => ?_
  rw [d.entries_eq_map_chains, List.map_map, List.map_map]
  refine List.map_congr_left fun c _ => ?_
  simp only [Function.comp_apply, withoutLeadingDot_qualified (hplain d hd), Position.entry,
    Position.fullName, Position.path]

/-! ## Usual names -/

/-- The declarations of a model have usual names. -/
structure WellNamed (s : Schema) : Prop where
  distinct : (s.allTypes.map (·.fullName)).Nodup
  names : ∀ d ∈ s.declarations, d.name ≠ "" ∧ '.' ∉ d.name.toList
  /-- No namespace begins with a dot. -/
  plain : ∀ d ∈ s.types, d.ns.toList.head? ≠ some '.'
  /-- Nested declarations have the namespace of the outermost one. -/
  inPlace : ∀ d ∈ s.types, ∀ x ∈ d.flatten, x.ns = d.ns

/-- The element is the first one in the list with a property. -/
def IsFirst {α : Type} (P : α → Prop) (l : List α) (a : α) : Prop :=
  P a ∧ ∃ before after, l = before ++ a :: after ∧ ∀ b ∈ before, ¬ P b

theorem find?_eq_some_iff_isFirst {α : Type} {P : α → Prop} [DecidablePred P] {l : List α} {a : α} :
    l.find? (fun b => decide (P b)) = some a ↔ IsFirst P l a := by
  simp [List.find?_eq_some_iff_append, IsFirst]

theorem find?_eq_none_iff_forall {α : Type} {P : α → Prop} [DecidablePred P] {l : List α} :
    l.find? (fun b => decide (P b)) = none ↔ ∀ b ∈ l, ¬ P b := by
  simp

/-- **What a name refers to.** The declaration with this full name comes first, then the first one with this
path. A name without dots that is neither is the simple name of something nested. -/
inductive RefersTo (s : Schema) (n : String) : Position → Prop where
  | fullName {p : Position} (mem : p ∈ s.positions) (name : p.fullName = n) : RefersTo s n p
  | path {p : Position} (unknown : ∀ q ∈ s.positions, q.fullName ≠ n)
    (first : IsFirst (fun q => q.path = n) s.positions p) : RefersTo s n p
  | simpleName {p : Position} (unknown : ∀ q ∈ s.positions, q.fullName ≠ n ∧ q.path ≠ n)
    (plain : '.' ∉ n.toList)
    (first : IsFirst (fun q => q.IsNested ∧ q.declaration.name = n) s.positions p) : RefersTo s n p

namespace WellNamed

theorem name_of_mem_types (hs : s.WellNamed) (hd : d ∈ s.types) :
    d.name ≠ "" ∧ '.' ∉ d.name.toList := by
  refine hs.names d ?_
  rw [← s.map_declaration_positions]
  exact List.mem_map.mpr ⟨_, mem_positions_of_mem_types hd, rfl⟩

theorem head?_path (hs : s.WellNamed) (hp : p ∈ s.positions) : p.path.toList.head? ≠ some '.' := by
  obtain ⟨hd, hx⟩ := mem_positions_iff.mp hp
  rw [Position.path, hx.head?_intercalate (hs.name_of_mem_types hd).1]
  exact fun h => (hs.name_of_mem_types hd).2 (List.mem_of_head? h)

theorem ns_eq (hs : s.WellNamed) (hp : p ∈ s.positions) : p.declaration.ns = p.outermost.ns := by
  obtain ⟨hd, hx⟩ := mem_positions_iff.mp hp
  refine hs.inPlace p.outermost hd p.declaration ?_
  rw [← p.outermost.map_snd_chains]
  exact List.mem_map.mpr ⟨_, hx.mem_chains, rfl⟩

/-- The path of a declaration is got back from its full name. -/
theorem path_entry (hs : s.WellNamed) (hp : p ∈ s.positions) : p.entry.path = p.path := by
  have hhead := hs.head?_path hp
  by_cases hglobal : p.outermost.ns = ""
  · have hns : p.entry.declaration.ns = "" := (hs.ns_eq hp).trans hglobal
    have hfull : p.entry.fullName = "" ++ p.path := by
      simp [Position.entry, Position.fullName, qualified, hglobal]
    rw [Entry.path, hns, hfull, Text.stripPrefix?_append]
    simpa using congrArg String.ofList (Text.dropWhile_dots_append hhead 0)
  · have hfull : p.entry.fullName = p.outermost.ns ++ "." ++ p.path := if_neg hglobal
    refine (Entry.path_eq_iff hfull hhead).mpr ?_
    rw [show p.entry.declaration.ns = p.outermost.ns from hs.ns_eq hp]
    exact isCutAt_self _

/-- What has the same full name is the same declaration. -/
theorem entry_eq_of_fullName_eq (hs : s.WellNamed) {q : Position} (hp : p ∈ s.positions)
    (hq : q ∈ s.positions) (h : p.fullName = q.fullName) : p.entry = q.entry := by
  refine List.inj_on_of_nodup_map hs.distinct ?_ ?_ h
  all_goals rw [allTypes_eq hs.plain]
  · exact List.mem_map_of_mem hp
  · exact List.mem_map_of_mem hq

/-- A declaration that is not nested has its name as path. -/
theorem isNested_of_path_ne (hp : p ∈ s.positions) (h : p.path ≠ p.declaration.name) : p.IsNested := by
  obtain ⟨d, names, x⟩ := p
  have hx : d.Contains names x := (mem_positions_iff.mp hp).2
  cases hx with
  | self => exact absurd (Position.path_single d) h
  | nested mem below =>
    have := List.length_pos_iff.mpr below.ne_nil
    simp only [Position.IsNested, List.length_cons]
    omega

/-! ## Looking up names -/

/-- A look-up goes through the positions: by full names, by paths, by simple names. -/
theorem resolve?_eq (hs : s.WellNamed) (n : String) : s.resolve? n =
    ((s.positions.find? fun p => p.fullName = n).or <|
      (s.positions.find? fun p => p.path = n).or <|
      if '.' ∈ n.toList then none else s.positions.find? fun p => p.declaration.name = n).map
        Position.entry := by
  have hpaths : (s.positions.find? ((fun e => e.path == n) ∘ Position.entry)) =
      s.positions.find? fun p => p.path = n :=
    List.find?_congr fun p hp => by
      simp only [Function.comp_apply, hs.path_entry hp]
      rfl
  rw [resolve?, allTypes_eq hs.plain, List.find?_map, List.find?_map, List.find?_map, hpaths,
    Option.map_or, Option.map_or]
  congr 2
  simp only [Text.hasChar, List.contains_iff_mem]
  split <;> rfl

theorem resolve?_of_fullName (hs : s.WellNamed) (hp : p ∈ s.positions) :
    s.resolve? p.fullName = some p.entry := by
  obtain ⟨q, hq⟩ : ∃ q, (s.positions.find? fun q => q.fullName = p.fullName) = some q :=
    Option.isSome_iff_exists.mp (List.find?_isSome.mpr ⟨p, hp, by simp⟩)
  have hname : q.fullName = p.fullName := by simpa using List.find?_some hq
  rw [hs.resolve?_eq, hq, Option.some_or, Option.map_some,
    hs.entry_eq_of_fullName_eq (List.mem_of_find?_eq_some hq) hp hname]

theorem resolve?_of_path (hs : s.WellNamed) (unknown : ∀ q ∈ s.positions, q.fullName ≠ n)
    (first : IsFirst (fun q => q.path = n) s.positions p) : s.resolve? n = some p.entry := by
  rw [hs.resolve?_eq, find?_eq_none_iff_forall.mpr unknown, Option.none_or,
    find?_eq_some_iff_isFirst.mpr first, Option.some_or, Option.map_some]

/-- What has a simple name, and not a path of the same text, is nested. -/
theorem find?_simpleName (hpath : ∀ q ∈ s.positions, q.path ≠ n) :
    (s.positions.find? fun q => q.declaration.name = n) =
      s.positions.find? fun q => q.IsNested ∧ q.declaration.name = n :=
  List.find?_congr fun q hq => decide_eq_decide.mpr
    ⟨fun h => ⟨isNested_of_path_ne hq fun heq => hpath q hq (heq.trans h), h⟩, And.right⟩

theorem resolve?_of_simpleName (hs : s.WellNamed)
    (unknown : ∀ q ∈ s.positions, q.fullName ≠ n ∧ q.path ≠ n) (plain : '.' ∉ n.toList)
    (first : IsFirst (fun q => q.IsNested ∧ q.declaration.name = n) s.positions p) :
    s.resolve? n = some p.entry := by
  have hfull : ∀ q ∈ s.positions, q.fullName ≠ n := fun q hq => (unknown q hq).1
  have hpath : ∀ q ∈ s.positions, q.path ≠ n := fun q hq => (unknown q hq).2
  rw [hs.resolve?_eq, find?_eq_none_iff_forall.mpr hfull, Option.none_or,
    find?_eq_none_iff_forall.mpr hpath, Option.none_or, if_neg plain, find?_simpleName hpath,
    find?_eq_some_iff_isFirst.mpr first, Option.map_some]

theorem exists_refersTo (hs : s.WellNamed) (h : s.resolve? n = some e) :
    ∃ p, s.RefersTo n p ∧ p.entry = e := by
  rw [hs.resolve?_eq] at h
  obtain ⟨p, hp, rfl⟩ := Option.map_eq_some_iff.mp h
  refine ⟨p, ?_, rfl⟩
  rcases Option.or_eq_some_iff.mp hp with hp | ⟨hfull, hp⟩
  · exact .fullName (List.mem_of_find?_eq_some hp) (by simpa using List.find?_some hp)
  have hfull : ∀ q ∈ s.positions, q.fullName ≠ n := find?_eq_none_iff_forall.mp hfull
  rcases Option.or_eq_some_iff.mp hp with hp | ⟨hpath, hp⟩
  · exact .path hfull (find?_eq_some_iff_isFirst.mp hp)
  have hpath : ∀ q ∈ s.positions, q.path ≠ n := find?_eq_none_iff_forall.mp hpath
  split at hp
  · cases hp
  · next hdot =>
    rw [find?_simpleName hpath] at hp
    exact .simpleName (fun q hq => ⟨hfull q hq, hpath q hq⟩) hdot (find?_eq_some_iff_isFirst.mp hp)

/-- A look-up finds what the name refers to. -/
theorem resolve?_eq_some_iff (hs : s.WellNamed) :
    s.resolve? n = some e ↔ ∃ p, s.RefersTo n p ∧ p.entry = e := by
  refine ⟨hs.exists_refersTo, ?_⟩
  rintro ⟨p, hp, rfl⟩
  cases hp with
  | fullName mem name => exact name ▸ hs.resolve?_of_fullName mem
  | path unknown first => exact hs.resolve?_of_path unknown first
  | simpleName unknown plain first => exact hs.resolve?_of_simpleName unknown plain first

/-- Nothing else than full names, paths and simple names of nested declarations refers to anything. -/
theorem resolve?_eq_none_iff (hs : s.WellNamed) : s.resolve? n = none ↔
    ∀ p ∈ s.positions, p.fullName ≠ n ∧ p.path ≠ n ∧
      ('.' ∉ n.toList → p.IsNested → p.declaration.name ≠ n) := by
  rw [hs.resolve?_eq, Option.map_eq_none_iff, Option.or_eq_none_iff, Option.or_eq_none_iff,
    find?_eq_none_iff_forall, find?_eq_none_iff_forall]
  constructor
  · rintro ⟨hfull, hpath, hsimple⟩ p hp
    refine ⟨hfull p hp, hpath p hp, fun hdot _ => ?_⟩
    rw [if_neg hdot, find?_eq_none_iff_forall] at hsimple
    exact hsimple p hp
  · intro h
    refine ⟨fun p hp => (h p hp).1, fun p hp => (h p hp).2.1, ?_⟩
    split
    · rfl
    · next hdot =>
      rw [find?_simpleName fun p hp => (h p hp).2.1, find?_eq_none_iff_forall]
      exact fun p hp hname => (h p hp).2.2 hdot hname.1 hname.2

/-- The name of a declaration that is not nested is a path, so it refers to something of this path. -/
theorem path_eq_of_refersTo (hs : s.WellNamed) (hd : d ∈ s.types) (h : s.RefersTo d.name p) :
    p ∈ s.positions ∧ p.path = d.name := by
  cases h with
  | fullName mem name =>
    refine ⟨mem, ?_⟩
    rw [Position.fullName, qualified] at name
    split at name
    · exact name
    · -- There would be a dot after the namespace.
      have hdot := (hs.name_of_mem_types hd).2
      rw [← name] at hdot
      simp at hdot
  | path _ first =>
    obtain ⟨hpath, before, after, heq, -⟩ := first
    exact ⟨heq ▸ by simp, hpath⟩
  | simpleName unknown =>
    exact absurd (Position.path_single d) (unknown _ (mem_positions_of_mem_types hd)).2

/-- The name of a declaration that is not nested refers to such a declaration. -/
theorem exists_resolve?_name (hs : s.WellNamed) (hd : d ∈ s.types) :
    ∃ d' ∈ s.types, d'.name = d.name ∧ s.resolve? d.name = some ⟨qualified d'.ns d'.name, d'⟩ := by
  have hself := mem_positions_of_mem_types hd
  cases he : s.resolve? d.name with
  | none => exact absurd (Position.path_single d) (hs.resolve?_eq_none_iff.mp he _ hself).2.1
  | some e =>
    obtain ⟨⟨outermost, names, x⟩, hp, rfl⟩ := hs.exists_refersTo he
    obtain ⟨hmem, hp⟩ := hs.path_eq_of_refersTo hd hp
    have houtermost : outermost ∈ s.types := (mem_positions_iff.mp hmem).1
    have hx : outermost.Contains names x := (mem_positions_iff.mp hmem).2
    have hplain : '.' ∉ (Position.path ⟨outermost, names, x⟩).toList := by
      rw [hp]
      exact (hs.name_of_mem_types hd).2
    obtain ⟨rfl, rfl⟩ := hx.eq_of_plain hplain
    rw [Position.path_single] at hp
    refine ⟨x, houtermost, hp, ?_⟩
    rw [Position.entry, Position.fullName, Position.path_single]

end WellNamed

/-- **The look-up of names** in a model whose declarations have usual names. A name refers to the declaration
of this full name. If there is none, it refers to the first declaration of this path, and if there is none
either, a name without dots refers to the first nested declaration of this simple name. All else refers to
nothing. So each full name refers to its declaration, and what is found is found again under its full name. The
name of a declaration that is not nested refers to such a one. -/
theorem resolve?_outcome (hs : s.WellNamed) :
    (∀ n e, s.resolve? n = some e ↔ ∃ p, s.RefersTo n p ∧ p.entry = e) ∧
    (∀ n, s.resolve? n = none ↔ ∀ p ∈ s.positions, p.fullName ≠ n ∧ p.path ≠ n ∧
      ('.' ∉ n.toList → p.IsNested → p.declaration.name ≠ n)) ∧
    (∀ p ∈ s.positions, s.resolve? p.fullName = some p.entry) ∧
    (∀ d ∈ s.types, ∃ d' ∈ s.types, d'.name = d.name ∧
      s.resolve? d.name = some ⟨qualified d'.ns d'.name, d'⟩) ∧
    ∀ n e, s.resolve? n = some e → s.resolve? e.fullName = some e := by
  refine ⟨fun n e => hs.resolve?_eq_some_iff, fun n => hs.resolve?_eq_none_iff,
    fun p hp => hs.resolve?_of_fullName hp, fun d hd => hs.exists_resolve?_name hd, fun n e he => ?_⟩
  have hmem := mem_allTypes_of_resolve? he
  rw [allTypes_eq hs.plain] at hmem
  obtain ⟨p, hp, rfl⟩ := List.mem_map.mp hmem
  exact hs.resolve?_of_fullName hp

/-- Two declarations with one simple name, one of them nested, and a class that is nested twice. -/
def sampleCatalog : Schema where
  types := [
    { name := "Order", ns := "Shop.Dtos", shape := .classType false []
      nested := [
        { name := "State", ns := "Shop.Dtos", shape := .enumeration [] },
        { name := "Note", ns := "Shop.Dtos", shape := .interfaceType []
          nested := [{ name := "Mark", ns := "Shop.Dtos", shape := .classType false [] }] }] },
    { name := "State", ns := "Shop.Admin", shape := .classType false [] },
    { name := "Loose", ns := "", shape := .classType false [] }]

theorem resolve?_outcome_sampleCatalog :
    sampleCatalog.WellNamed ∧
      (∃ p, sampleCatalog.RefersTo "State" p ∧ p.fullName = "Shop.Admin.State") ∧
      (∃ p, sampleCatalog.RefersTo "Order.State" p ∧ p.fullName = "Shop.Dtos.Order.State") ∧
      (∃ p, sampleCatalog.RefersTo "Mark" p ∧ p.fullName = "Shop.Dtos.Order.Note.Mark") ∧
      ∀ p ∈ sampleCatalog.positions, p.fullName ≠ "Note.Mark" ∧ p.path ≠ "Note.Mark" := by
  have hnamed : sampleCatalog.WellNamed := ⟨by decide, by decide, by decide, by decide⟩
  have hrefers : ∀ n fullName, (sampleCatalog.resolve? n).map (·.fullName) = some fullName →
      ∃ p, sampleCatalog.RefersTo n p ∧ p.fullName = fullName := by
    intro n fullName h
    obtain ⟨e, he, rfl⟩ := Option.map_eq_some_iff.mp h
    obtain ⟨p, hp, rfl⟩ := ((resolve?_outcome hnamed).1 n e).mp he
    exact ⟨p, hp, rfl⟩
  refine ⟨hnamed, hrefers _ _ (by decide), hrefers _ _ (by decide), hrefers _ _ (by decide), ?_⟩
  intro p hp
  have hnone := ((resolve?_outcome hnamed).2.1 "Note.Mark").mp (by decide) p hp
  exact ⟨hnone.1, hnone.2.1⟩

end Schema

end TypeExport
