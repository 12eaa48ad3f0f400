import TypeExport.Proofs.Schema.Basic
import TypeExport.Proofs.Schema.FullNames
import TypeExport.Schema.Load

/-!
# Paths of nested declarations

The path of a nested declaration are the names that lead to it from the outermost one. It is looked up by
cutting the namespace of the declaration off its full name, which begins with the namespace of the outermost
one. So a nested declaration has to repeat this namespace to be found.

* `Declaration.Contains`: a declaration and what is nested in it, along a chain of names.
* `Schema.mem_allTypes_of_contains`: the full name is the namespace of the outermost one and the path.
* `Entry.path_eq_iff`: when the path is what stands after a namespace in the full name.
* `Schema.exists_resolve?_iff`: a name with a dot refers to something if it is a full name or a path.
* `Schema.nested_path_resolves`: which paths refer to declarations.
-/

namespace TypeExport

namespace Text

/-- A name in a namespace is longer than by itself. -/
theorem append_dot_ne (ns name : String) : ns ++ "." ++ name ≠ name := by
  intro h
  have hlength := congrArg (·.toList.length) h
  rw [toList_append_dot, List.length_append, List.length_cons] at hlength
  omega

theorem dropWhile_dots_append {cs : List Char} (h : cs.head? ≠ some '.') (k : Nat) :
    (List.replicate k '.' ++ cs).dropWhile (· == '.') = cs := by
  rw [List.dropWhile_append_of_pos (by simp +contextual [List.mem_replicate])]
  cases cs with
  | nil => rfl
  | cons c cs => exact List.dropWhile_cons_of_neg (by simpa using h)

/-- A text is some dots and what is left without them. -/
theorem exists_eq_replicate_append (cs : List Char) :
    ∃ k, cs = List.replicate k '.' ++ cs.dropWhile (· == '.') := by
  refine ⟨(cs.takeWhile (· == '.')).length, ?_⟩
  have hdots : cs.takeWhile (· == '.') = List.replicate (cs.takeWhile (· == '.')).length '.' := by
    refine List.eq_replicate_iff.mpr ⟨rfl, fun c hc => ?_⟩
    simpa using List.all_eq_true.mp List.all_takeWhile c hc
  rw [← hdots, List.takeWhile_append_dropWhile]

end Text

/-! ## Chains of declarations -/

/-- A chain of names leads from a declaration to itself, or to one that is nested in it. -/
inductive Declaration.Contains : Declaration → List String → Declaration → Prop where
  | self (d : Declaration) : Contains d [d.name] d
  | nested {d inner x : Declaration} {names : List String} (mem : inner ∈ d.nested)
    (below : Contains inner names x) : Contains d (d.name :: names) x

namespace Declaration.Contains

variable {d x : Declaration} {names : List String}

theorem ne_nil (h : d.Contains names x) : names ≠ [] := by
  cases h <;> simp

/-- The path begins with the name of the outermost declaration. -/
theorem exists_intercalate_eq (h : d.Contains names x) :
    ∃ rest, String.intercalate "." names = d.name ++ rest := by
  cases h with
  | self => exact ⟨"", by simp⟩
  | nested mem below =>
    rw [String.intercalate_cons_of_ne_nil below.ne_nil, String.append_assoc]
    exact ⟨_, rfl⟩

theorem head?_intercalate (h : d.Contains names x) (hname : d.name ≠ "") :
    (String.intercalate "." names).toList.head? = d.name.toList.head? := by
  obtain ⟨rest, hrest⟩ := h.exists_intercalate_eq
  have hne : d.name.toList ≠ [] := by simpa using hname
  rw [hrest, String.toList_append, List.head?_append_of_ne_nil _ hne]

/-- A path of more than one name has dots. -/
theorem hasChar_dot (h : d.Contains names x) (hne : x ≠ d) :
    Text.hasChar '.' (String.intercalate "." names) = true := by
  cases h with
  | self => exact (hne rfl).elim
  | nested mem below =>
    rw [String.intercalate_cons_of_ne_nil below.ne_nil]
    simp [Text.hasChar]

end Declaration.Contains

namespace Declaration

theorem entriesList_eq_flatMap (parent : String) (ds : List Declaration) :
    entriesList parent ds = ds.flatMap (·.entries parent) := by
  induction ds with
  | nil => rfl
  | cons d ds ih => rw [entriesList, List.flatMap_cons, ih]

/-- Below a name each declaration is listed with its path. -/
theorem mem_entries_of_contains {d x : Declaration} {names : List String}
    (h : d.Contains names x) (parent : String) :
    ⟨parent ++ "." ++ String.intercalate "." names, x⟩ ∈ d.entries parent := by
  induction h generalizing parent with
  | self d =>
    obtain ⟨name, ns, shape, nested, doc⟩ := d
    rw [String.intercalate_singleton, entries]
    exact List.mem_cons_self
  | @nested d inner x names mem below ih =>
    obtain ⟨name, ns, shape, nested, doc⟩ := d
    rw [String.intercalate_cons_of_ne_nil below.ne_nil, entries, entriesList_eq_flatMap]
    refine List.mem_cons_of_mem _ (List.mem_flatMap.mpr ⟨inner, mem, ?_⟩)
    have := ih (parent ++ "." ++ name)
    simpa only [String.append_assoc] using this

end Declaration

/-! ## Paths of entries -/

/-- The namespace is the outer one with the dot after it, dots at the end apart. -/
def IsCutAt (ns outer : String) : Prop :=
  ∃ k, (outer ++ ".").toList = ns.toList ++ List.replicate k '.'

theorem isCutAt_self (ns : String) : IsCutAt ns ns := ⟨1, by simp⟩

namespace Entry

variable {e : Entry} {outer path : String}

/-- The path of a declaration is what stands after a namespace in the full name, exactly if the declaration
has this namespace. Dots at its end do not matter. -/
theorem path_eq_iff (h : e.fullName = outer ++ "." ++ path) (hpath : path.toList.head? ≠ some '.') :
    e.path = path ↔ IsCutAt e.declaration.ns outer := by
  constructor
  · intro heq
    unfold Entry.path at heq
    split at heq
    · next rest hrest =>
      have hlists := congrArg String.toList (Text.eq_append_of_stripPrefix? hrest)
      obtain ⟨k, hk⟩ := Text.exists_eq_replicate_append rest.toList
      rw [← String.toList_inj, String.toList_ofList] at heq
      rw [heq] at hk
      simp only [h, String.toList_append, hk, ← List.append_assoc] at hlists
      refine ⟨k, ?_⟩
      rw [String.toList_append]
      exact List.append_cancel_right hlists
    · exact (Text.append_dot_ne outer path (h.symm.trans heq)).elim
  · rintro ⟨k, hk⟩
    have hfull : e.fullName =
        e.declaration.ns ++ String.ofList (List.replicate k '.' ++ path.toList) := by
      rw [h, ← String.toList_inj, String.toList_append, hk]
      simp
    rw [Entry.path, hfull, Text.stripPrefix?_append]
    simp only [String.toList_ofList, Text.dropWhile_dots_append hpath, String.ofList_toList]

end Entry

namespace Schema

variable {s : Schema} {d x : Declaration} {names : List String} {n : String} {e : Entry}

/-! ## Looking up paths -/

/-- A declaration is listed under the namespace of the outermost one and its path. -/
theorem mem_allTypes_of_contains (hd : d ∈ s.types) (hplain : d.ns.toList.head? ≠ some '.')
    (hx : d.Contains names x) :
    ⟨qualified d.ns (String.intercalate "." names), x⟩ ∈ s.allTypes := by
  rw [← withoutLeadingDot_qualified hplain]
  have hentry : ⟨d.ns ++ "." ++ String.intercalate "." names, x⟩ ∈
      s.types.flatMap fun d => d.entries d.ns :=
    List.mem_flatMap.mpr ⟨d, hd, Declaration.mem_entries_of_contains hx d.ns⟩
  exact List.mem_map.mpr ⟨_, hentry, rfl⟩

/-- A full name or a path refers to a declaration that has it as full name or path. -/
theorem exists_resolve?_of_mem (he : e ∈ s.allTypes) (hn : e.fullName = n ∨ e.path = n) :
    ∃ e', s.resolve? n = some e' ∧ (e'.fullName = n ∨ e'.path = n) := by
  cases hfull : s.allTypes.find? (·.fullName == n) with
  | some e' =>
    refine ⟨e', ?_, .inl (by simpa using List.find?_some hfull)⟩
    rw [resolve?, hfull, Option.some_or]
  | none =>
    have hname : e.fullName ≠ n := by simpa using List.find?_eq_none.mp hfull e he
    obtain ⟨e', he'⟩ : ∃ e', s.allTypes.find? (·.path == n) = some e' :=
      Option.isSome_iff_exists.mp (List.find?_isSome.mpr
        ⟨e, he, by simpa using hn.resolve_left hname⟩)
    refine ⟨e', ?_, .inr (by simpa using List.find?_some he')⟩
    rw [resolve?, hfull, Option.none_or, he', Option.some_or]

/-- A name with a dot refers to something exactly if it is a full name or a path. -/
theorem exists_resolve?_iff (hdot : Text.hasChar '.' n = true) :
    (∃ e, s.resolve? n = some e) ↔ ∃ e ∈ s.allTypes, e.fullName = n ∨ e.path = n := by
  constructor
  · rintro ⟨e, he⟩
    obtain ⟨hmem, hname | hpath | ⟨hno, -⟩⟩ := resolve?_cases he
    · exact ⟨e, hmem, .inl hname⟩
    · exact ⟨e, hmem, .inr hpath⟩
    · rw [hno] at hdot
      cases hdot
  · rintro ⟨e, hmem, hn⟩
    obtain ⟨e', he', -⟩ := exists_resolve?_of_mem hmem hn
    exact ⟨e', he'⟩

/-- A declaration has its path as full name or as path, exactly if it is in the global namespace or has
the namespace of the outermost one. -/
theorem fullName_or_path_eq_iff {path : String} (ns : String) (hpath : path.toList.head? ≠ some '.') :
    (qualified ns path = path ∨ Entry.path ⟨qualified ns path, x⟩ = path) ↔
      ns = "" ∨ IsCutAt x.ns ns := by
  by_cases hglobal : ns = ""
  · simp [qualified, hglobal]
  · have hfull : qualified ns path = ns ++ "." ++ path := if_neg hglobal
    have hne : qualified ns path ≠ path := hfull ▸ Text.append_dot_ne ns path
    rw [Entry.path_eq_iff (e := ⟨qualified ns path, x⟩) hfull hpath]
    simp [hne, hglobal]

/-- **Paths of nested declarations.** Say that a declaration is not nested, that its name has no dots and
its namespace does not begin with one. The path of what is nested in it refers to a declaration that has it
as full name or path, if the namespace is repeated there or is the global one. If neither is the case, apart
from dots at the end, the path refers to something exactly if another declaration has it as full name or
path. -/
theorem nested_path_resolves (hd : d ∈ s.types) (hname : d.name ≠ "" ∧ '.' ∉ d.name.toList)
    (hplain : d.ns.toList.head? ≠ some '.') (hx : d.Contains names x) :
    (x.ns = d.ns ∨ d.ns = "" → ∃ e, s.resolve? (String.intercalate "." names) = some e ∧
      (e.fullName = String.intercalate "." names ∨ e.path = String.intercalate "." names)) ∧
    ((∃ e, s.resolve? (String.intercalate "." names) = some e) ↔ d.ns = "" ∨ IsCutAt x.ns d.ns ∨
      ∃ e ∈ s.allTypes, e ≠ ⟨qualified d.ns (String.intercalate "." names), x⟩ ∧
        (e.fullName = String.intercalate "." names ∨ e.path = String.intercalate "." names)) := by
  have hhead : (String.intercalate "." names).toList.head? ≠ some '.' := by
    rw [hx.head?_intercalate hname.1]
    exact fun h => hname.2 (List.mem_of_head? h)
  have hmem := mem_allTypes_of_contains hd hplain hx
  have hown := fullName_or_path_eq_iff (x := x) d.ns hhead
  constructor
  · intro hns
    refine exists_resolve?_of_mem hmem (hown.mpr ?_)
    exact hns.symm.imp_right fun hns => by rw [← hns]; exact isCutAt_self x.ns
  · by_cases hself : x = d
    · -- The name of the outermost declaration need not have a dot, but it is always found.
      subst hself
      have hcut : x.ns = "" ∨ IsCutAt x.ns x.ns := .inr (isCutAt_self x.ns)
      obtain ⟨e, he, -⟩ := exists_resolve?_of_mem hmem (hown.mpr hcut)
      exact iff_of_true ⟨e, he⟩ (.inr (.inl (isCutAt_self x.ns)))
    · rw [exists_resolve?_iff (hx.hasChar_dot hself), ← or_assoc, ← hown]
      constructor
      · rintro ⟨e, he, hn⟩
        by_cases heq : e = ⟨qualified d.ns (String.intercalate "." names), x⟩
        · subst heq
          exact .inl hn
        · exact .inr ⟨e, he, heq, hn⟩
      · rintro (hn | ⟨e, he, -, hn⟩)
        · exact ⟨_, hmem, hn⟩
        · exact ⟨e, he, hn⟩

/-! ## Declarations from texts -/

/-- A class with another one in it. -/
def orderWithLine (ns lineNs : String) : Schema where
  types := [{ name := "Order", ns, shape := .classType false []
              nested := [{ name := "Line", ns := lineNs, shape := .classType false [] }] }]

/-- Its text, with what the nested class says of its namespace, if anything. -/
def orderWithLineJson (ns entry : String) : String :=
  "\x7b\"types\":[\x7b\"name\":\"Order\",\"namespace\":\"" ++ ns ++ "\",\"kind\":\"class\",\"nested\":[\x7b" ++
    entry ++ "\"name\":\"Line\",\"kind\":\"class\"\x7d]\x7d]\x7d"

def orderWithLineToml : String :=
  "[[types]]\nname = \"Order\"\nnamespace = \"Shop\"\nkind = \"class\"\n" ++
    "nested = [\x7b name = \"Line\", kind = \"class\" \x7d]\n"

theorem contains_line (ns lineNs : String) : ∀ d ∈ (orderWithLine ns lineNs).types,
    ∃ x, d.Contains ["Order", "Line"] x ∧ x.ns = lineNs := by
  intro d hd
  obtain rfl := List.mem_singleton.mp hd
  exact ⟨_, .nested List.mem_cons_self (.self _), rfl⟩

/-- Where the namespace is repeated in the text, the path of the nested class refers to it. -/
theorem nested_path_resolves_orderWithLine :
    ofJson (orderWithLineJson "Shop" "\"namespace\":\"Shop\",") = .ok (orderWithLine "Shop" "Shop") ∧
      ∃ e, (orderWithLine "Shop" "Shop").resolve? (String.intercalate "." ["Order", "Line"]) = some e ∧
        (e.fullName = String.intercalate "." ["Order", "Line"] ∨
          e.path = String.intercalate "." ["Order", "Line"]) := by
  obtain ⟨x, hx, hns⟩ := contains_line "Shop" "Shop" _ List.mem_cons_self
  exact ⟨Except.toOption_eq_some_iff.mp (by decide +kernel),
    (nested_path_resolves List.mem_cons_self (by decide) (by decide) hx).1 (.inl hns)⟩

/-- Not all paths in models from texts refer to declarations, be the text JSON or TOML: not if the nested
declaration leaves out the namespace, and not if the namespace is repeated and begins with a dot. -/
theorem not_nested_path_resolves :
    (¬ ∀ (text : String) (s : Schema), ofJson text = .ok s →
      (∀ d ∈ s.declarations, d.name ≠ "" ∧ '.' ∉ d.name.toList) →
      ∀ d ∈ s.types, ∀ names x, d.Contains names x →
        ∃ e, s.resolve? (String.intercalate "." names) = some e) ∧
    (¬ ∀ (text : String) (s : Schema), ofToml text = .ok s →
      (∀ d ∈ s.declarations, d.name ≠ "" ∧ '.' ∉ d.name.toList) →
      ∀ d ∈ s.types, ∀ names x, d.Contains names x →
        ∃ e, s.resolve? (String.intercalate "." names) = some e) ∧
    ¬ ∀ (text : String) (s : Schema), ofJson text = .ok s →
      (∀ d ∈ s.declarations, d.name ≠ "" ∧ '.' ∉ d.name.toList) →
      ∀ d ∈ s.types, ∀ names x, d.Contains names x → x.ns = d.ns →
        ∃ e, s.resolve? (String.intercalate "." names) = some e := by
  have hmissing : (orderWithLine "Shop" "").resolve? (String.intercalate "." ["Order", "Line"]) =
      none := by decide
  have hdotted : (orderWithLine ".Shop" ".Shop").resolve?
      (String.intercalate "." ["Order", "Line"]) = none := by decide
  refine ⟨fun hall => ?_, fun hall => ?_, fun hall => ?_⟩
  · obtain ⟨x, hx, -⟩ := contains_line "Shop" "" _ List.mem_cons_self
    obtain ⟨e, he⟩ := hall (orderWithLineJson "Shop" "") (orderWithLine "Shop" "")
      (Except.toOption_eq_some_iff.mp (by decide +kernel)) (by decide) _ List.mem_cons_self _ x hx
    rw [hmissing] at he
    cases he
  · obtain ⟨x, hx, -⟩ := contains_line "Shop" "" _ List.mem_cons_self
    obtain ⟨e, he⟩ := hall orderWithLineToml (orderWithLine "Shop" "")
      (Except.toOption_eq_some_iff.mp (by decide +kernel)) (by decide) _ List.mem_cons_self _ x hx
    rw [hmissing] at he
    cases he
  · obtain ⟨x, hx, hns⟩ := contains_line ".Shop" ".Shop" _ List.mem_cons_self
    obtain ⟨e, he⟩ := hall (orderWithLineJson ".Shop" "\"namespace\":\".Shop\",")
      (orderWithLine ".Shop" ".Shop") (Except.toOption_eq_some_iff.mp (by decide +kernel)) (by decide)
      _ List.mem_cons_self _ x hx hns
    rw [hdotted] at he
    cases he

end Schema

end TypeExport
