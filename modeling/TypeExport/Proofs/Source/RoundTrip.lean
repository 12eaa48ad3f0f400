import TypeExport.Files.Disk
import TypeExport.Proofs.Schema.Provided
import TypeExport.Proofs.Schema.RoundTrip

/-!
# Models of source files read back

The model of source files is written like any other one, but not all of its type expressions can be read
again. A wrapper with a meaning that is given another number of types than it takes keeps its name, and a
text with that name is refused. Names in source files can also have characters that names in texts
cannot have.

* `Schema.FromSource.ofJson_toJson`: a model of source files reads back if all wrappers fit and all names are
  spelled in characters for texts.
* `Schema.fits_of_ofJson_toJson`: if it reads back, all wrappers fit.
* `Schema.ofJson_toJson_of_scan`: both for the models of scans, and for each type by itself.
-/

namespace TypeExport

open Source (TypeSyntax Spelled fromType_toExpr)

/-! ## Types -/

namespace Source.TypeSyntax

/-- The text of the expression for a type denotes it again exactly if all wrappers in the type fit and all
names are names for texts. -/
theorem wellFormed_toExpr_iff (T : TypeSyntax) : T.toExpr.WellFormed ↔ Spelled T.toExpr ∧ T.Fits :=
  (fromType_toExpr T).wellFormed_iff.trans (and_congr_right' T.unambiguous_toExpr_iff)

theorem parse_display {T : TypeSyntax} (hfits : T.Fits) (hnames : Spelled T.toExpr) :
    TypeExpr.parse T.toExpr.display = .ok T.toExpr :=
  TypeExpr.parse_display ((wellFormed_toExpr_iff T).mpr ⟨hnames, hfits⟩)

theorem fits_of_parse {T : TypeSyntax} (h : TypeExpr.parse T.toExpr.display = .ok T.toExpr) :
    T.Fits :=
  ((wellFormed_toExpr_iff T).mp (TypeExpr.wellFormed_of_parse h)).2

end Source.TypeSyntax

/-! ## Models -/

namespace Schema

variable {s : Schema}

namespace FromSource

theorem ofJson_toJson (h : s.FromSource)
    (htypes : ∀ T : TypeSyntax, T.toExpr ∈ s.typeExprs → T.Fits ∧ Spelled T.toExpr) :
    ofJson s.toJson = .ok s := by
  have hdepth : s.toValue.depth ≤ 127 := Nat.le_trans h.depth_toValue_le (by decide)
  refine ofJson_toJson_of_wellFormed h.isInt64_of_mem hdepth fun t ht => ?_
  obtain ⟨T, rfl⟩ := h.exists_toExpr t ht
  exact T.wellFormed_toExpr_iff.mpr (htypes T ht).symm

end FromSource

/-- In a model that reads back all wrappers fit. -/
theorem fits_of_ofJson_toJson (h : ofJson s.toJson = .ok s) :
    ∀ T : TypeSyntax, T.toExpr ∈ s.typeExprs → T.Fits :=
  fun T hT => (T.wellFormed_toExpr_iff.mp (wellFormed_of_ofJson h _ hT)).2

/-- The model of a scan reads back from its text if all wrappers in its types are given as many types as
they take and all names are spelled in characters for texts, and it does not read back if a wrapper is
given another number. The same holds of the text of each type. -/
theorem ofJson_toJson_of_scan {σ : Type} {files : FileAccess (StateM σ)} {root : String} {st : σ}
    (hscan : ((scan files root).run st).1 = .ok s) :
    (∀ t ∈ s.typeExprs, ∃ T : TypeSyntax, t = T.toExpr) ∧
    (∀ T : TypeSyntax,
      (T.Fits → Spelled T.toExpr → TypeExpr.parse T.toExpr.display = .ok T.toExpr) ∧
        (TypeExpr.parse T.toExpr.display = .ok T.toExpr → T.Fits)) ∧
    ((∀ T : TypeSyntax, T.toExpr ∈ s.typeExprs → T.Fits ∧ Spelled T.toExpr) →
      ofJson s.toJson = .ok s) ∧
    (ofJson s.toJson = .ok s → ∀ T : TypeSyntax, T.toExpr ∈ s.typeExprs → T.Fits) := by
  have hsource := fromSource_of_scan hscan
  exact ⟨hsource.exists_toExpr, fun T => ⟨T.parse_display, T.fits_of_parse⟩,
    hsource.ofJson_toJson, fits_of_ofJson_toJson⟩

/-! ## Projects with one file -/

/-- A disk with one source file, which holds a class with one property. -/
def cacheProject (field : String) : Disk where
  items := [(["src"], .directory),
    (["src", "cache.rs"], .file ("pub struct Cache \x7b pub " ++ field ++ " \x7d").toUTF8)]

def cacheModel (property : Property) : Schema where
  types := [{ name := "Cache", ns := "crate::cache", shape := .classType false [property] }]

/-- A map of lists. -/
def listedRows : Property where
  name := "rows"
  type := .generic .dictionary [.primitive .string, .generic .enumerable [.named "Row"]]

theorem ofJson_toJson_of_scan_listedRows :
    ((scan Disk.access "src").run (cacheProject "rows: HashMap<String, Vec<Row>>")).1 =
        .ok (cacheModel listedRows) ∧
      ofJson (cacheModel listedRows).toJson = .ok (cacheModel listedRows) := by
  have hscan : ((scan Disk.access "src").run (cacheProject "rows: HashMap<String, Vec<Row>>")).1 =
      .ok (cacheModel listedRows) := Except.toOption_eq_some_iff.mp (by decide +kernel)
  have htypes : ∀ t ∈ (cacheModel listedRows).typeExprs, t.WellFormed := by decide +kernel
  obtain ⟨-, -, hreads, -⟩ := ofJson_toJson_of_scan hscan
  exact ⟨hscan, hreads fun T hT => (T.wellFormed_toExpr_iff.mp (htypes _ hT)).symm⟩

/-- A set with a seed, as the second type it is given. -/
def seededKeys : Property where
  name := "keys"
  type := .generic (.custom "HashSet") [.primitive .string, .named "Seed"]

/-- A type whose name is a word of the language. -/
def rawRow : Property where
  name := "row"
  type := .named "r#type"

theorem not_ofJson_toJson {p : Property} (h : ¬ p.type.WellFormed) :
    ofJson (cacheModel p).toJson ≠ .ok (cacheModel p) :=
  fun hreads => h (wellFormed_of_ofJson hreads p.type (by
    simp [cacheModel, typeExprs, declarations, Declaration.flattenList, Declaration.flatten,
      Declaration.properties, Shape.properties]))

/-- Not all models of source files read back: the name of the set is refused with two types, and the name of
the other type has a character that names in texts cannot have. -/
theorem not_ofJson_toJson_of_scan :
    (((scan Disk.access "src").run (cacheProject "keys: HashSet<String, Seed>")).1 =
        .ok (cacheModel seededKeys) ∧
      (cacheModel seededKeys).toValue.depth ≤ 127 ∧
      ofJson (cacheModel seededKeys).toJson ≠ .ok (cacheModel seededKeys)) ∧
    (((scan Disk.access "src").run (cacheProject "row: r#type")).1 = .ok (cacheModel rawRow) ∧
      (cacheModel rawRow).toValue.depth ≤ 127 ∧
      ofJson (cacheModel rawRow).toJson ≠ .ok (cacheModel rawRow)) := by
  have hseeded : ¬ seededKeys.type.WellFormed := by decide +kernel
  have hraw : ¬ rawRow.type.WellFormed := by decide +kernel
  refine ⟨⟨Except.toOption_eq_some_iff.mp ?_, by decide, not_ofJson_toJson hseeded⟩,
    ⟨Except.toOption_eq_some_iff.mp ?_, by decide, not_ofJson_toJson hraw⟩⟩
  · decide +kernel
  · decide +kernel

end Schema

end TypeExport
