import Mathlib.Data.List.Infix
import TypeExport.Discovery.Filter
import TypeExport.Proofs.Schema.FullNames

/-!
# The order of namespaces

A namespace is a path of modules, written with separators. A filter only looks at the text, but what it accepts is
what the paths say: with nested namespaces, all paths that the path of the filter begins.

* `NamespaceFilter.accepts_iff`: what a filter accepts, as a text.
* `ModulePath`: lists of parts that can be told apart in the text (`ModulePath.prefix_of_append`).
* `ModulePath.accepts_nested_iff`, `ModulePath.accepts_iff_eq`: what a filter accepts, as paths.
* `ModulePath.accepts_below`: a namespace is accepted by the filters of all that it lies in.
-/

namespace TypeExport

/-- A text begins with a separator exactly if it has a dot or two colons in front. -/
theorem startsBelow_iff {rest : String} : startsBelow rest = true ↔
    ∃ sep ∈ ["::", "."], ∃ more, rest = sep ++ more := by
  constructor
  · intro h
    unfold startsBelow at h
    split at h
    · next cs hcs => exact ⟨".", by simp, String.ofList cs, by rw [← String.toList_inj, hcs]; simp⟩
    · next cs hcs => exact ⟨"::", by simp, String.ofList cs, by rw [← String.toList_inj, hcs]; simp⟩
    · cases h
  · rintro ⟨sep, hsep, more, rfl⟩
    simp only [List.mem_cons, List.not_mem_nil, or_false] at hsep
    rcases hsep with rfl | rfl <;> simp [startsBelow]

/-- A filter accepts its namespace and, on request, what goes on after it with a separator. -/
theorem NamespaceFilter.accepts_iff {f : NamespaceFilter} {ns : String} : f.accepts ns = true ↔
    ns = f.ns ∨ f.includeNested = true ∧ ∃ rest, ns = f.ns ++ rest ∧ (f.ns = "" ∨ startsBelow rest = true) := by
  unfold accepts
  cases hstrip : Text.stripPrefix? f.ns ns with
  | none =>
    have hno : ¬ ∃ rest, ns = f.ns ++ rest ∧ (f.ns = "" ∨ startsBelow rest = true) := by
      rintro ⟨rest, hrest, -⟩
      rw [hrest, Text.stripPrefix?_append] at hstrip
      cases hstrip
    simp [hno]
  | some rest =>
    obtain rfl := Text.eq_append_of_stripPrefix? hstrip
    simp

/-! ## Paths of modules -/

/-- A part of a path: without separators, and not empty. -/
def IsSegment (x : String) : Prop := x ≠ "" ∧ '.' ∉ x.toList ∧ ':' ∉ x.toList

instance : DecidablePred IsSegment := fun x => inferInstanceAs (Decidable (x ≠ "" ∧ _ ∧ _))

/-- The parts that lead to a module, one at least. -/
structure ModulePath (xs : List String) : Prop where
  ne_nil : xs ≠ []
  segments : ∀ x ∈ xs, IsSegment x

/-- The separators of paths. -/
def separators : List String := ["::", "."]

/-- The namespaces that are written with a separator. -/
def Namespaces (sep : String) : Set String := {ns | ∃ xs, ModulePath xs ∧ ns = String.intercalate sep xs}

/-- A character of a separator. -/
def isSeparating (c : Char) : Bool := c == '.' || c == ':'

/-- The text ends here, or a separator follows. -/
def Apart (cs : List Char) : Prop := ∀ c ∈ cs.head?, isSeparating c = true

theorem apart_nil : Apart [] := nofun

theorem IsSegment.not_isSeparating {x : String} (h : IsSegment x) : ∀ c ∈ x.toList, isSeparating c = false := by
  intro c hc
  rw [isSeparating, Bool.or_eq_false_iff, beq_eq_false_iff_ne, beq_eq_false_iff_ne]
  exact ⟨fun heq => h.2.1 (heq ▸ hc), fun heq => h.2.2 (heq ▸ hc)⟩

namespace ModulePath

variable {sep : String} {x y : String} {xs ys : List String} {nested : Bool}

/-- A part ends where the text is apart, so it is found again. -/
theorem segment_of_append (hx : IsSegment x) (hy : IsSegment y) {cs ds : List Char} (hcs : Apart cs)
    (hds : Apart ds) (h : x.toList ++ cs = y.toList ++ ds) : x = y ∧ cs = ds := by
  have htake : ∀ {z : String} {es : List Char}, IsSegment z → Apart es →
      (z.toList ++ es).takeWhile (fun c => !isSeparating c) = z.toList := by
    intro z es hz hes
    rw [List.takeWhile_append_of_pos (by simpa using hz.not_isSeparating)]
    cases es with
    | nil => simp
    | cons e es => simp [hes e (by simp)]
  have hlists : x.toList = y.toList := by rw [← htake hx hcs, ← htake hy hds, h]
  rw [hlists] at h
  exact ⟨String.toList_inj.mp hlists, List.append_cancel_left h⟩

/-- The parts after the first one, each after a separator. -/
def tailText (sep : String) (xs : List String) : List Char := xs.flatMap fun x => sep.toList ++ x.toList

theorem toList_intercalate_cons (sep x : String) (xs : List String) :
    (String.intercalate sep (x :: xs)).toList = x.toList ++ tailText sep xs := by
  induction xs generalizing x with
  | nil => simp [tailText]
  | cons y ys ih =>
    rw [String.intercalate_cons_of_ne_nil (by simp), String.toList_append, String.toList_append, ih]
    simp [tailText]

theorem head?_sep (hsep : sep ∈ separators) : ∃ c cs, sep.toList = c :: cs ∧ isSeparating c = true := by
  simp only [separators, List.mem_cons, List.not_mem_nil, or_false] at hsep
  rcases hsep with rfl | rfl
  · exact ⟨':', [':'], rfl, rfl⟩
  · exact ⟨'.', [], rfl, rfl⟩

theorem apart_tailText (hsep : sep ∈ separators) {cs : List Char} (hcs : Apart cs) (xs : List String) :
    Apart (tailText sep xs ++ cs) := by
  obtain ⟨c, more, hmore, hc⟩ := head?_sep hsep
  cases xs with
  | nil => exact hcs
  | cons x xs =>
    rw [Apart, tailText, List.flatMap_cons, hmore]
    simpa using hc

/-- Where the text of a path goes on after that of another one, the paths do. -/
theorem prefix_of_append (hsep : sep ∈ separators) (hx : ∀ z ∈ x :: xs, IsSegment z)
    (hy : ∀ z ∈ y :: ys, IsSegment z) {cs : List Char} (hcs : Apart cs)
    (h : y.toList ++ tailText sep ys = x.toList ++ (tailText sep xs ++ cs)) : x :: xs <+: y :: ys := by
  have hends (zs : List String) : Apart (tailText sep zs) := by
    simpa using apart_tailText hsep apart_nil zs
  induction xs generalizing x y ys with
  | nil =>
    obtain ⟨rfl, -⟩ := segment_of_append (hy y (by simp)) (hx x (by simp)) (hends ys)
      (apart_tailText hsep hcs []) h
    exact List.cons_prefix_cons.mpr ⟨rfl, List.nil_prefix⟩
  | cons x' xs ih =>
    obtain ⟨rfl, htail⟩ := segment_of_append (hy y (by simp)) (hx x (by simp)) (hends ys)
      (apart_tailText hsep hcs _) h
    refine List.cons_prefix_cons.mpr ⟨rfl, ?_⟩
    cases ys with
    | nil =>
      obtain ⟨c, more, hmore, -⟩ := head?_sep hsep
      simp [tailText, hmore] at htail
    | cons y' ys =>
      refine ih (fun z hz => hx z (List.mem_cons_of_mem _ hz)) (fun z hz => hy z (List.mem_cons_of_mem _ hz)) ?_
      simpa [tailText] using htail

theorem prefix_of_intercalate (hsep : sep ∈ separators) (hx : ModulePath xs) (hy : ModulePath ys) {rest : String}
    (hrest : Apart rest.toList) (h : String.intercalate sep ys = String.intercalate sep xs ++ rest) :
    xs <+: ys := by
  obtain ⟨x, xs, rfl⟩ := List.exists_cons_of_ne_nil hx.ne_nil
  obtain ⟨y, ys, rfl⟩ := List.exists_cons_of_ne_nil hy.ne_nil
  have hlists := congrArg String.toList h
  rw [String.toList_append, toList_intercalate_cons, toList_intercalate_cons, List.append_assoc] at hlists
  exact prefix_of_append hsep hx.segments hy.segments hrest hlists

/-- A path is found again in its text. -/
theorem intercalate_inj (hsep : sep ∈ separators) (hx : ModulePath xs) (hy : ModulePath ys)
    (h : String.intercalate sep xs = String.intercalate sep ys) : xs = ys := by
  have begins {xs ys : List String} (hx : ModulePath xs) (hy : ModulePath ys)
      (h : String.intercalate sep xs = String.intercalate sep ys) : xs <+: ys :=
    prefix_of_intercalate hsep hx hy (show Apart "".toList from apart_nil) (by rw [String.append_empty, h])
  exact (begins hx hy h).eq_of_length_le (begins hy hx h.symm).length_le

/-! ## What filters accept -/

theorem apart_of_startsBelow {rest : String} (h : startsBelow rest = true) : Apart rest.toList := by
  obtain ⟨sep, hsep, more, rfl⟩ := startsBelow_iff.mp h
  obtain ⟨c, cs, hcs, hc⟩ := head?_sep hsep
  rw [Apart, String.toList_append, hcs]
  simpa using hc

/-- A namespace is accepted by the filters of all namespaces that it lies in, whatever the parts are. -/
theorem accepts_below (hsep : sep ∈ separators) (hx : xs ≠ []) (h : xs <+: ys) :
    NamespaceFilter.accepts ⟨String.intercalate sep xs, true⟩ (String.intercalate sep ys) = true := by
  obtain ⟨zs, rfl⟩ := h
  rw [NamespaceFilter.accepts_iff]
  by_cases hz : zs = []
  · simp [hz]
  · refine .inr ⟨rfl, sep ++ String.intercalate sep zs, ?_, .inr (startsBelow_iff.mpr ⟨sep, hsep, _, rfl⟩)⟩
    rw [String.intercalate_append_of_ne_nil hx hz, String.append_assoc]

/-- With nested namespaces, a filter accepts the paths that its own path begins. -/
theorem accepts_nested_iff (hsep : sep ∈ separators) (hx : ModulePath xs) (hy : ModulePath ys) :
    NamespaceFilter.accepts ⟨String.intercalate sep xs, true⟩ (String.intercalate sep ys) = true ↔
      xs <+: ys := by
  refine ⟨fun h => ?_, accepts_below hsep hx.ne_nil⟩
  rcases NamespaceFilter.accepts_iff.mp h with heq | ⟨-, rest, hrest, hempty | hbelow⟩
  · exact (intercalate_inj hsep hy hx heq) ▸ List.prefix_refl ys
  · -- The text of a path is not empty.
    obtain ⟨x, xs, rfl⟩ := List.exists_cons_of_ne_nil hx.ne_nil
    have hlists := congrArg String.toList hempty
    rw [toList_intercalate_cons] at hlists
    exact absurd (by simpa using (List.append_eq_nil_iff.mp hlists).1) (hx.segments x (by simp)).1
  · exact prefix_of_intercalate hsep hx hy (apart_of_startsBelow hbelow) hrest

/-- Without nested namespaces, it accepts its own path. -/
theorem accepts_iff_eq (hsep : sep ∈ separators) (hx : ModulePath xs) (hy : ModulePath ys) :
    NamespaceFilter.accepts ⟨String.intercalate sep xs, false⟩ (String.intercalate sep ys) = true ↔ xs = ys := by
  rw [NamespaceFilter.accepts_iff]
  constructor
  · rintro (heq | ⟨h, -⟩)
    · exact (intercalate_inj hsep hy hx heq).symm
    · cases h
  · rintro rfl
    exact .inl rfl

/-! ## The order -/

theorem accepts_refl (a : String) : NamespaceFilter.accepts ⟨a, nested⟩ a = true :=
  NamespaceFilter.accepts_iff.mpr (.inl rfl)

theorem accepts_trans (hsep : sep ∈ separators) {a b c : String} (ha : a ∈ Namespaces sep)
    (hb : b ∈ Namespaces sep) (hc : c ∈ Namespaces sep) (hab : NamespaceFilter.accepts ⟨a, nested⟩ b = true)
    (hbc : NamespaceFilter.accepts ⟨b, nested⟩ c = true) : NamespaceFilter.accepts ⟨a, nested⟩ c = true := by
  obtain ⟨xs, hx, rfl⟩ := ha
  obtain ⟨ys, hy, rfl⟩ := hb
  obtain ⟨zs, hz, rfl⟩ := hc
  cases nested with
  | true =>
    rw [accepts_nested_iff hsep hx hy] at hab
    rw [accepts_nested_iff hsep hy hz] at hbc
    exact (accepts_nested_iff hsep hx hz).mpr (hab.trans hbc)
  | false =>
    rw [accepts_iff_eq hsep hx hy] at hab
    rw [accepts_iff_eq hsep hy hz] at hbc
    exact (accepts_iff_eq hsep hx hz).mpr (hab.trans hbc)

theorem accepts_antisymm (hsep : sep ∈ separators) {a b : String} (ha : a ∈ Namespaces sep)
    (hb : b ∈ Namespaces sep) (hab : NamespaceFilter.accepts ⟨a, nested⟩ b = true)
    (hba : NamespaceFilter.accepts ⟨b, nested⟩ a = true) : a = b := by
  obtain ⟨xs, hx, rfl⟩ := ha
  obtain ⟨ys, hy, rfl⟩ := hb
  cases nested with
  | true =>
    rw [accepts_nested_iff hsep hx hy] at hab
    rw [accepts_nested_iff hsep hy hx] at hba
    rw [hab.eq_of_length_le hba.length_le]
  | false => rw [(accepts_iff_eq hsep hx hy).mp hab]

end ModulePath

end TypeExport
