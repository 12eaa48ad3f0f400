import TypeExport.Discovery.Roots
import TypeExport.Proofs.Places
import TypeExport.Proofs.Schema.Paths

/-!
# The list of all declarations

`Schema.allTypes` joins the names on the way down and takes a leading dot off in the end. What comes out is the list
of the flattened declarations, each under the name that the names around it give.

* `Schema.Holds`: where a declaration stands in a model.
* `Declaration.listed`: the entries of a declaration with their places, under a full name.
  `Declaration.map_snd_listed` says that they are what is listed.
* `Declaration.fullName_of_mem_listed`: the full name of a nested declaration.
* `Schema.allTypes_outcome`: the entries of a model, their places and their full names.
-/

namespace TypeExport

/-! ## Places of declarations -/

/-- The declaration, or one in it: by the numbers of the nested declarations that lead there. -/
inductive Declaration.Holds : Declaration → List Nat → Declaration → Prop where
  | self (d : Declaration) : Holds d [] d
  | inside {d inner x : Declaration} {i : Nat} {place : List Nat} (branch : d.nested[i]? = some inner)
    (below : inner.Holds place x) : Holds d (i :: place) x

/-- A declaration of a model, by the number of the one around it that is not nested, and the numbers below. -/
def Schema.Holds (s : Schema) (place : List Nat) (x : Declaration) : Prop :=
  ∃ i d rest, s.types[i]? = some d ∧ place = i :: rest ∧ d.Holds rest x

namespace Declaration

mutual

/-- The entries of a declaration with their places, if it has the full name. A nested declaration has the full
name of the one around it, a dot and its own name. -/
def listed (fullName : String) : Declaration → List (List Nat × Entry)
  | ⟨n, ns, s, ds, doc⟩ =>
    ([], ⟨fullName, ⟨n, ns, s, ds, doc⟩⟩) :: listedFrom (fun d => fullName ++ "." ++ d.name) 0 ds

/-- The entries of declarations, the first of which is the `i`th one. -/
def listedFrom (nameOf : Declaration → String) (i : Nat) : List Declaration → List (List Nat × Entry)
  | [] => []
  | d :: ds => (d.listed (nameOf d)).map (fun p => (i :: p.1, p.2)) ++ listedFrom nameOf (i + 1) ds

end

variable {fullName : String} {nameOf : Declaration → String} {d x : Declaration} {place : List Nat} {e : Entry}

theorem listedFrom_eq (nameOf : Declaration → String) (i : Nat) (ds : List Declaration) :
    listedFrom nameOf i ds = inBranches i (ds.map fun d => d.listed (nameOf d)) := by
  induction ds generalizing i with
  | nil => rfl
  | cons d ds ih => rw [listedFrom, List.map_cons, inBranches, ih]

theorem listed_eq (fullName : String) (d : Declaration) : d.listed fullName =
    ([], ⟨fullName, d⟩) :: inBranches 0 (d.nested.map fun c => c.listed (fullName ++ "." ++ c.name)) := by
  obtain ⟨n, ns, s, ds, doc⟩ := d
  rw [listed, listedFrom_eq]

theorem mem_listedFrom_iff {ds : List Declaration} : (place, e) ∈ listedFrom nameOf 0 ds ↔
    ∃ i d rest, ds[i]? = some d ∧ place = i :: rest ∧ (rest, e) ∈ d.listed (nameOf d) := by
  simp only [listedFrom_eq, mem_inBranches_iff, List.getElem?_map, Option.map_eq_some_iff, Nat.zero_add]
  constructor
  · rintro ⟨i, _, rest, ⟨d, hd, rfl⟩, hplace, hmem⟩
    exact ⟨i, d, rest, hd, hplace, hmem⟩
  · rintro ⟨i, d, rest, hd, hplace, hmem⟩
    exact ⟨i, _, rest, ⟨d, hd, rfl⟩, hplace, hmem⟩

theorem mem_listed_iff : (place, e) ∈ d.listed fullName ↔ place = [] ∧ e = ⟨fullName, d⟩ ∨
    ∃ i c rest, d.nested[i]? = some c ∧ place = i :: rest ∧ (rest, e) ∈ c.listed (fullName ++ "." ++ c.name) := by
  rw [listed_eq, ← listedFrom_eq (fun c => fullName ++ "." ++ c.name), List.mem_cons, mem_listedFrom_iff,
    Prod.mk.injEq]

/-! ## Entries in their places -/

theorem Holds.of_mem_listed (h : (place, e) ∈ d.listed fullName) : d.Holds place e.declaration := by
  induction place generalizing d fullName with
  | nil =>
    rcases mem_listed_iff.mp h with ⟨-, rfl⟩ | ⟨i, c, rest, -, hplace, -⟩
    · exact .self d
    · cases hplace
  | cons i place ih =>
    rcases mem_listed_iff.mp h with ⟨hplace, -⟩ | ⟨i, c, rest, hc, hplace, hmem⟩
    · cases hplace
    · cases hplace
      exact .inside hc (ih hmem)

theorem Holds.exists_mem_listed (h : d.Holds place x) (fullName : String) :
    ∃ e, (place, e) ∈ d.listed fullName ∧ e.declaration = x := by
  induction h generalizing fullName with
  | self d => exact ⟨⟨fullName, d⟩, mem_listed_iff.mpr (.inl ⟨rfl, rfl⟩), rfl⟩
  | @inside d inner x i place branch below ih =>
    obtain ⟨e, hmem, he⟩ := ih (fullName ++ "." ++ inner.name)
    exact ⟨e, mem_listed_iff.mpr (.inr ⟨i, inner, place, branch, rfl, hmem⟩), he⟩

/-- The first entry is the declaration under its full name. -/
theorem eq_of_nil_mem_listed (h : ([], e) ∈ d.listed fullName) : e = ⟨fullName, d⟩ := by
  rcases mem_listed_iff.mp h with ⟨-, he⟩ | ⟨i, c, rest, -, hplace, -⟩
  · exact he
  · cases hplace

/-- The full name of a nested declaration is that of the declaration around it, a dot and its own name. -/
theorem fullName_of_mem_listed {outer inner : Entry} {i : Nat} (houter : (place, outer) ∈ d.listed fullName)
    (hinner : (place ++ [i], inner) ∈ d.listed fullName) :
    inner.fullName = outer.fullName ++ "." ++ inner.declaration.name := by
  induction place generalizing d fullName with
  | nil =>
    obtain rfl := eq_of_nil_mem_listed houter
    rcases mem_listed_iff.mp hinner with ⟨hplace, -⟩ | ⟨k, c, rest, hc, hplace, hmem⟩
    · cases hplace
    · cases hplace
      obtain rfl := eq_of_nil_mem_listed hmem
      rfl
  | cons k place ih =>
    rcases mem_listed_iff.mp houter with ⟨hplace, -⟩ | ⟨k, c, rest, hc, hplace, hmem⟩
    · cases hplace
    cases hplace
    rcases mem_listed_iff.mp hinner with ⟨hplace, -⟩ | ⟨k', c', rest, hc', hplace, hmem'⟩
    · cases hplace
    cases hplace
    rw [hc] at hc'
    cases hc'
    exact ih hmem hmem'

/-- Entries are listed in the order of their places. -/
theorem pairwise_listed (fullName : String) (d : Declaration) :
    (d.listed fullName).Pairwise fun p q => p.1 < q.1 := by
  rw [listed_eq]
  refine List.pairwise_cons.mpr ⟨?_, pairwise_inBranches (fun b hb => ?_) 0⟩
  · rintro ⟨place, e⟩ hp
    obtain ⟨k, b, rest, -, rfl, -⟩ := mem_inBranches_iff.mp hp
    exact List.nil_lt_cons _ _
  · obtain ⟨c, hc, rfl⟩ := List.mem_map.mp hb
    have hsmaller : sizeOf c < sizeOf d := by
      obtain ⟨n, ns, s, ds, doc⟩ := d
      have : sizeOf c < sizeOf ds := List.sizeOf_lt_of_mem hc
      simp only [mk.sizeOf_spec]
      omega
    exact pairwise_listed _ c
termination_by sizeOf d

/-! ## What is listed -/

/-- The leading dot of a name is not the last one, so it does not matter what follows the name. -/
theorem withoutLeadingDot_append (parent n rest : String) : Schema.withoutLeadingDot (parent ++ "." ++ n ++ rest) =
    Schema.withoutLeadingDot (parent ++ "." ++ n) ++ rest := by
  cases hdot : Text.stripPrefix? "." (parent ++ "." ++ n) with
  | some more =>
    rw [Text.eq_append_of_stripPrefix? hdot, String.append_assoc, Schema.withoutLeadingDot,
      Schema.withoutLeadingDot, Text.stripPrefix?_append, Text.stripPrefix?_append, Option.getD_some,
      Option.getD_some]
  | none =>
    have hno : Text.stripPrefix? "." (parent ++ "." ++ n ++ rest) = none := by
      rw [Text.stripPrefix?, Option.map_eq_none_iff] at hdot ⊢
      cases hcs : (parent ++ "." ++ n).toList with
      | nil => simp at hcs
      | cons c cs =>
        rw [hcs] at hdot
        rw [String.toList_append, hcs]
        simpa [List.isPrefixOf?] using hdot
    rw [Schema.withoutLeadingDot, Schema.withoutLeadingDot, hdot, hno, Option.getD_none, Option.getD_none]

/-- The full name of a declaration that is nested in what has the name. -/
def nameBelow (parent : String) (d : Declaration) : String :=
  Schema.withoutLeadingDot (parent ++ "." ++ d.name)

theorem nameBelow_nested (parent : String) (d : Declaration) :
    nameBelow (parent ++ "." ++ d.name) = fun c => nameBelow parent d ++ "." ++ c.name := by
  funext c
  have h := withoutLeadingDot_append parent d.name ("." ++ c.name)
  rwa [← String.append_assoc, ← String.append_assoc] at h

/-- An entry without the leading dot of its full name. -/
def strip (e : Entry) : Entry := { e with fullName := Schema.withoutLeadingDot e.fullName }

mutual

/-- The entries are those that are listed, without a leading dot. -/
theorem map_snd_listed (parent : String) : (d : Declaration) →
    (d.listed (nameBelow parent d)).map (·.2) = (d.entries parent).map strip
  | ⟨n, ns, s, ds, doc⟩ => by
    rw [listed, entries, List.map_cons, List.map_cons, ← nameBelow_nested parent ⟨n, ns, s, ds, doc⟩,
      map_snd_listedFrom (parent ++ "." ++ n) 0 ds]
    rfl

theorem map_snd_listedFrom (parent : String) (i : Nat) : (ds : List Declaration) →
    (listedFrom (nameBelow parent) i ds).map (·.2) = (entriesList parent ds).map strip
  | [] => rfl
  | d :: ds => by
    rw [listedFrom, entriesList, List.map_append, List.map_append, map_snd_listedFrom parent (i + 1) ds,
      List.map_map, ← map_snd_listed parent d]
    rfl

end

mutual

/-- The declarations that are listed are the flattened ones. -/
theorem map_declaration_entries (parent : String) : (d : Declaration) →
    (d.entries parent).map (·.declaration) = d.flatten
  | ⟨n, ns, s, ds, doc⟩ => by
    rw [entries, flatten, List.map_cons, map_declaration_entriesList (parent ++ "." ++ n) ds]

theorem map_declaration_entriesList (parent : String) : (ds : List Declaration) →
    (entriesList parent ds).map (·.declaration) = flattenList ds
  | [] => rfl
  | d :: ds => by
    rw [entriesList, flattenList, List.map_append, map_declaration_entries parent d,
      map_declaration_entriesList parent ds]

end

end Declaration

namespace Schema

variable {s : Schema}

/-- The entries of a model with their places. -/
def listed (s : Schema) : List (List Nat × Entry) :=
  Declaration.listedFrom (fun d => Declaration.nameBelow d.ns d) 0 s.types

theorem map_snd_listed (s : Schema) : s.listed.map (·.2) = s.allTypes := by
  unfold listed allTypes
  generalize 0 = i
  induction s.types generalizing i with
  | nil => rfl
  | cons d ds ih =>
    rw [Declaration.listedFrom, List.map_append, ih, List.map_map, List.flatMap_cons, List.map_append]
    exact congrArg (· ++ _) (d.map_snd_listed d.ns)

theorem map_declaration_allTypes (s : Schema) :
    s.allTypes.map (·.declaration) = s.types.flatMap (·.flatten) := by
  unfold allTypes
  rw [List.map_map, List.map_flatMap]
  exact List.flatMap_congr fun d _ => d.map_declaration_entries d.ns

/-- A candidate goes by the full name of its declaration, unless the namespace begins with a dot. -/
theorem reference_eq_nameBelow {d : Declaration} (h : d.ns.toList.head? ≠ some '.') :
    d.reference = .named (Declaration.nameBelow d.ns d) := by
  rw [Declaration.nameBelow, withoutLeadingDot_qualified h]
  rfl

/-- **The list of all declarations** holds the flattened declarations, in their order, and there is one entry for
each place of a declaration. In the place right below another one, the full name is the full name there, a dot and the
declaration's own name. In the place of a declaration that is not nested it is the name by which candidates go, if the
namespace does not begin with a dot. -/
theorem allTypes_outcome (s : Schema) :
    s.allTypes.map (·.declaration) = s.types.flatMap (·.flatten) ∧
    ∃ listed : List (List Nat × Entry), listed.map (·.2) = s.allTypes ∧
      (listed.map (·.1)).Pairwise (· < ·) ∧
      (∀ place x, s.Holds place x ↔ ∃ e, (place, e) ∈ listed ∧ e.declaration = x) ∧
      (∀ place i outer inner, (place, outer) ∈ listed → (place ++ [i], inner) ∈ listed →
        inner.fullName = outer.fullName ++ "." ++ inner.declaration.name) ∧
      ∀ i e, ([i], e) ∈ listed → e.declaration.ns.toList.head? ≠ some '.' →
        e.declaration.reference = .named e.fullName ∧
        ∀ f, e.declaration.isConcreteClass = true → f.accepts e.declaration.ns = true →
          .named e.fullName ∈ s.candidates f := by
  refine ⟨s.map_declaration_allTypes, s.listed, s.map_snd_listed, ?_, fun place x => ?_, ?_, ?_⟩
  · unfold listed
    rw [Declaration.listedFrom_eq, List.pairwise_map]
    refine pairwise_inBranches (fun b hb => ?_) 0
    obtain ⟨d, -, rfl⟩ := List.mem_map.mp hb
    exact Declaration.pairwise_listed _ d
  · constructor
    · rintro ⟨i, d, rest, hd, rfl, hx⟩
      obtain ⟨e, hmem, he⟩ := hx.exists_mem_listed (Declaration.nameBelow d.ns d)
      exact ⟨e, Declaration.mem_listedFrom_iff.mpr ⟨i, d, rest, hd, rfl, hmem⟩, he⟩
    · rintro ⟨e, hmem, rfl⟩
      obtain ⟨i, d, rest, hd, rfl, hbelow⟩ := Declaration.mem_listedFrom_iff.mp hmem
      exact ⟨i, d, rest, hd, rfl, .of_mem_listed hbelow⟩
  · intro place i outer inner houter hinner
    obtain ⟨k, d, rest, hd, rfl, houter'⟩ := Declaration.mem_listedFrom_iff.mp houter
    obtain ⟨k', d', rest', hd', hplace, hinner'⟩ := Declaration.mem_listedFrom_iff.mp hinner
    cases hplace
    rw [hd] at hd'
    cases hd'
    exact Declaration.fullName_of_mem_listed houter' hinner'
  · intro i e hmem hns
    obtain ⟨k, d, rest, hd, hplace, hbelow⟩ := Declaration.mem_listedFrom_iff.mp hmem
    cases hplace
    obtain rfl := Declaration.eq_of_nil_mem_listed hbelow
    have href := reference_eq_nameBelow hns
    refine ⟨href, fun f hconcrete haccepts => ?_⟩
    rw [← href, candidates, List.mem_append, List.mem_map]
    exact .inl ⟨d, List.mem_filter.mpr ⟨List.mem_of_getElem? hd, by simp [hconcrete, haccepts]⟩, rfl⟩

end Schema

end TypeExport
