import Mathlib.Data.List.Basic
import TypeExport.Schema.Lookup

/-!
# Full names

A full name ends with the name of the declaration, after a dot if there is anything before it. It begins
with the namespace of the declaration that is not nested.

* `Text.afterLast_append_dot`: what stands before a dot does not matter for the last part of a name.
* `Declaration.exists_fullName_eq`: how the entries of a declaration are named.
* `Schema.withoutLeadingDot_qualified`: the namespace and the dots in a full name.
* `Schema.simpleName_fullName`, `Schema.lastSegment_fullName`: a full name and the declaration's name have
  one last part.
* `Schema.resolve?_cases`: the three ways to refer to a declaration.
* `Schema.resolve?_fullName`: a full name refers to a declaration of this full name.
* `Schema.lastSegment_of_resolve?`: every name has the last part of what it refers to, if namespaces are
  those of the declarations that are not nested.
-/

namespace TypeExport

namespace Text

theorem afterLast_append_cons {p : Char → Bool} {c : Char} (h : p c = true) (xs ys : List Char) :
    afterLast p (xs ++ c :: ys) = afterLast p ys := by
  unfold afterLast
  rw [List.reverse_append, List.reverse_cons, List.append_assoc, List.singleton_append,
    List.takeWhile_append, List.takeWhile_cons_of_neg (by simp [h])]
  split
  · next hlength =>
    rw [(List.takeWhile_prefix _).eq_of_length hlength, List.append_nil]
  · rfl

theorem toList_append_dot (q n : String) : (q ++ "." ++ n).toList = q.toList ++ '.' :: n.toList := by
  simp

/-- What stands before a dot does not matter. -/
theorem afterLast_append_dot {p : Char → Bool} (hdot : p '.' = true) (q n : String) :
    afterLast p (q ++ "." ++ n).toList = afterLast p n.toList := by
  rw [toList_append_dot, afterLast_append_cons hdot]

/-- Neither do dots at the beginning. -/
theorem afterLast_dropWhile_dot {p : Char → Bool} (hdot : p '.' = true) (cs : List Char) :
    afterLast p (cs.dropWhile (· == '.')) = afterLast p cs := by
  induction cs with
  | nil => rfl
  | cons c cs ih =>
    rw [List.dropWhile_cons]
    split
    · next hc =>
      obtain rfl : c = '.' := by simpa using hc
      rw [ih]
      exact (afterLast_append_cons hdot [] cs).symm
    · rfl

theorem eq_append_of_stripPrefix? {lead s rest : String} (h : stripPrefix? lead s = some rest) :
    s = lead ++ rest := by
  obtain ⟨cs, hcs, rfl⟩ := Option.map_eq_some_iff.mp h
  rw [List.isPrefixOf?_eq_some_iff_append_eq] at hcs
  rw [← String.toList_inj, String.toList_append, String.toList_ofList, hcs]

theorem stripPrefix?_append (lead rest : String) : stripPrefix? lead (lead ++ rest) = some rest := by
  have h : lead.toList.isPrefixOf? (lead ++ rest).toList = some rest.toList := by
    rw [List.isPrefixOf?_eq_some_iff_append_eq, String.toList_append]
  rw [stripPrefix?, h, Option.map_some, String.ofList_toList]

end Text

namespace Declaration

mutual

/-- Below a name there are the declaration and all that is nested in it. Their full names begin with that
name, and end with their own names, after dots. -/
theorem exists_fullName_eq (parent : String) : (d : Declaration) → ∀ e ∈ d.entries parent,
    e.declaration ∈ d.flatten ∧ (∃ tail, e.fullName = parent ++ "." ++ tail) ∧
      ∃ q, e.fullName = q ++ "." ++ e.declaration.name
  | ⟨n, ns, s, ds, doc⟩, e, he => by
    rw [entries, List.mem_cons] at he
    rcases he with rfl | he
    · exact ⟨List.mem_cons_self, ⟨n, rfl⟩, parent, rfl⟩
    · obtain ⟨hmem, ⟨tail, htail⟩, hname⟩ := exists_fullName_eq_of_list (parent ++ "." ++ n) ds e he
      refine ⟨List.mem_cons_of_mem _ hmem, ⟨n ++ "." ++ tail, ?_⟩, hname⟩
      rw [htail]
      simp only [String.append_assoc]

theorem exists_fullName_eq_of_list (parent : String) : (ds : List Declaration) →
    ∀ e ∈ entriesList parent ds,
      e.declaration ∈ flattenList ds ∧ (∃ tail, e.fullName = parent ++ "." ++ tail) ∧
        ∃ q, e.fullName = q ++ "." ++ e.declaration.name
  | [], e, he => absurd he List.not_mem_nil
  | d :: ds, e, he => by
    rw [entriesList, List.mem_append] at he
    rcases he with he | he
    · exact (exists_fullName_eq parent d e he).imp_left (List.mem_append_left _)
    · exact (exists_fullName_eq_of_list parent ds e he).imp_left (List.mem_append_right _)

end

end Declaration

namespace Schema

open Text (afterLast afterLast_append_dot afterLast_dropWhile_dot)

variable {s : Schema} {e : Entry} {p : Char → Bool}

/-! ## Last parts of full names -/

theorem withoutLeadingDot_cases (name : String) :
    withoutLeadingDot name = name ∨ name = "." ++ withoutLeadingDot name := by
  unfold withoutLeadingDot
  cases h : Text.stripPrefix? "." name with
  | none => exact .inl rfl
  | some rest => exact .inr (Text.eq_append_of_stripPrefix? h)

/-- A name in a namespace. In the global namespace it stands by itself. -/
def qualified (ns name : String) : String := if ns = "" then name else ns ++ "." ++ name

/-- A full name begins with its namespace, unless this begins with a dot: that one would be taken for the
dot of the global namespace. -/
theorem withoutLeadingDot_qualified {ns : String} (h : ns.toList.head? ≠ some '.') (name : String) :
    withoutLeadingDot (ns ++ "." ++ name) = qualified ns name := by
  unfold qualified withoutLeadingDot
  split
  · next hns =>
    rw [hns, String.empty_append, Text.stripPrefix?_append, Option.getD_some]
  · next hns =>
    cases hstrip : Text.stripPrefix? "." (ns ++ "." ++ name) with
    | none => rfl
    | some rest =>
      have hne : ns.toList ≠ [] := by simpa using hns
      have hhead := congrArg (·.toList.head?) (Text.eq_append_of_stripPrefix? hstrip)
      simp [List.head?_append_of_ne_nil _ hne] at hhead
      exact (h hhead).elim

theorem afterLast_withoutLeadingDot (hdot : p '.' = true) (name : String) :
    afterLast p (withoutLeadingDot name).toList = afterLast p name.toList := by
  rcases withoutLeadingDot_cases name with h | h
  · rw [h]
  · conv => rhs; rw [h]
    exact (afterLast_append_dot hdot "" _).symm

/-- A full name and the name of its declaration have one last part. -/
theorem afterLast_fullName (hdot : p '.' = true) (h : e ∈ s.allTypes) :
    afterLast p e.fullName.toList = afterLast p e.declaration.name.toList := by
  obtain ⟨e, he, rfl⟩ := List.mem_map.mp h
  obtain ⟨d, -, he⟩ := List.mem_flatMap.mp he
  obtain ⟨-, -, q, hq⟩ := d.exists_fullName_eq d.ns e he
  rw [afterLast_withoutLeadingDot hdot, hq, afterLast_append_dot hdot]

theorem simpleName_fullName (h : e ∈ s.allTypes) :
    Text.simpleName e.fullName = Text.simpleName e.declaration.name :=
  congrArg String.ofList (afterLast_fullName (by simp) h)

theorem lastSegment_fullName (h : e ∈ s.allTypes) :
    Text.lastSegment e.fullName = Text.lastSegment e.declaration.name :=
  congrArg String.ofList (afterLast_fullName (by simp) h)

/-! ## Names that refer to declarations -/

/-- A name is the full name of the declaration that it refers to, or its path, or its simple name. -/
theorem resolve?_cases {n : String} (h : s.resolve? n = some e) : e ∈ s.allTypes ∧
    (e.fullName = n ∨ e.path = n ∨ Text.hasChar '.' n = false ∧ e.declaration.name = n) := by
  unfold resolve? at h
  rcases Option.or_eq_some_iff.mp h with h | ⟨-, h⟩
  · exact ⟨List.mem_of_find?_eq_some h, .inl (by simpa using List.find?_some h)⟩
  rcases Option.or_eq_some_iff.mp h with h | ⟨-, h⟩
  · exact ⟨List.mem_of_find?_eq_some h, .inr (.inl (by simpa using List.find?_some h))⟩
  split at h
  · cases h
  · next hdot =>
    exact ⟨List.mem_of_find?_eq_some h,
      .inr (.inr ⟨by simpa using hdot, by simpa using List.find?_some h⟩)⟩

theorem mem_allTypes_of_resolve? {n : String} (h : s.resolve? n = some e) : e ∈ s.allTypes :=
  (resolve?_cases h).1

/-- A full name refers to a declaration of this full name. -/
theorem resolve?_fullName (h : e ∈ s.allTypes) :
    ∃ e', s.resolve? e.fullName = some e' ∧ e'.fullName = e.fullName := by
  cases hfind : s.allTypes.find? (·.fullName == e.fullName) with
  | none =>
    have hne := List.find?_eq_none.mp hfind e h
    simp at hne
  | some e' =>
    refine ⟨e', ?_, by simpa using List.find?_some hfind⟩
    rw [resolve?, hfind, Option.some_or]

/-- What is nested in a declaration has the namespace of that one, or does not tell any. -/
def NestedInPlace (s : Schema) : Prop :=
  ∀ d ∈ s.types, ∀ x ∈ d.flatten, x.ns = "" ∨ x.ns = d.ns

/-- A namespace is cut off a full name between its parts. -/
theorem afterLast_path (hdot : p '.' = true) (hs : s.NestedInPlace) (h : e ∈ s.allTypes) :
    afterLast p e.path.toList = afterLast p e.fullName.toList := by
  unfold Entry.path
  split
  · next rest hrest =>
    have hcut := Text.eq_append_of_stripPrefix? hrest
    rw [String.toList_ofList, afterLast_dropWhile_dot hdot]
    obtain ⟨e, he, rfl⟩ := List.mem_map.mp h
    obtain ⟨d, hd, he⟩ := List.mem_flatMap.mp he
    obtain ⟨hmem, ⟨tail, htail⟩, -⟩ := d.exists_fullName_eq d.ns e he
    have hall : afterLast p (withoutLeadingDot e.fullName).toList = afterLast p tail.toList := by
      rw [afterLast_withoutLeadingDot hdot, htail, afterLast_append_dot hdot]
    rcases hs d hd e.declaration hmem with hns | hns
    · rw [hcut, hns, String.empty_append]
    · rw [hall]
      rcases withoutLeadingDot_cases e.fullName with hdrop | hdrop
      · -- The rest begins with the dot after the namespace.
        have hrest : rest = "." ++ tail := by
          rw [hdrop, htail, hns, String.append_assoc, String.append_right_inj] at hcut
          exact hcut.symm
        rw [hrest]
        exact afterLast_append_dot hdot "" tail
      · -- A dot before the full name is lost, so the rest begins after the dot.
        have hlists : (d.ns.toList ++ ['.']) ++ tail.toList =
            ('.' :: d.ns.toList) ++ rest.toList := by
          rw [show withoutLeadingDot e.fullName = d.ns ++ rest from hns ▸ hcut, htail] at hdrop
          simpa using congrArg String.toList hdrop
        rw [(List.append_inj hlists (by simp)).2]
  · rfl

/-- Every name has the last part of the declaration that it refers to. -/
theorem lastSegment_of_resolve? (hs : s.NestedInPlace) {n : String} (h : s.resolve? n = some e) :
    Text.lastSegment e.declaration.name = Text.lastSegment n := by
  obtain ⟨hmem, rfl | rfl | ⟨-, rfl⟩⟩ := resolve?_cases h
  · exact (lastSegment_fullName hmem).symm
  · rw [← lastSegment_fullName hmem]
    exact congrArg String.ofList (afterLast_path (by simp) hs hmem).symm
  · rfl

end Schema

end TypeExport
