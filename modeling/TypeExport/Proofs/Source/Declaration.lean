import Mathlib.Data.Int.Init
import TypeExport.Source.Declaration

/-!
# Declarations in source files

* `Source.FromItem`: what all declarations of source files have in common.
* `Source.lt_of_integer?`: the value of an expression has 64 bits, and a sign keeps it so.
* `Source.isInt64_membersFrom`: so have the values of all members, those counted on included.
* `Source.fromItem_of_mem`: the declarations of items, at any depth of modules, are such.
-/

namespace TypeExport.Source

/-- What a declaration of a source file is like: nothing is nested in it, its properties have types of
the file, and the values of its members have 64 bits. -/
structure FromItem (d : Declaration) : Prop where
  nested : d.nested = []
  types : ∀ p ∈ d.properties, ∃ t : TypeSyntax, p.type = t.toExpr
  values : ∀ m ∈ d.members, isInt64 m.value = true

/-! ## Values of members -/

theorem isInt64_iff {i : Int} : isInt64 i = true ↔ -(int64Bound : Int) ≤ i ∧ i < int64Bound := by
  simp [isInt64]

/-- A value is less than the bound without its sign, so that the sign can change. -/
theorem lt_of_integer? {e : Expr} {i : Int} (h : e.integer? = some i) :
    -(int64Bound : Int) < i ∧ i < int64Bound := by
  induction e generalizing i with
  | literal l =>
    cases l with
    | integer n suffix =>
      rw [Expr.integer?] at h
      split at h
      · next hn =>
        cases h
        unfold int64Bound at *
        omega
      · cases h
    | float | text | other => cases h
  | negative e ih =>
    obtain ⟨j, hj, rfl⟩ := Option.map_eq_some_iff.mp h
    have hbounds := ih hj
    omega
  | parens e ih => exact ih h
  | comparison | range | block | macroCall | other => cases h

theorem isInt64_bmod (i : Int) : isInt64 (i.bmod UInt64.size) = true := by
  have hlow : -((UInt64.size : Int) / 2) ≤ i.bmod UInt64.size := Int.le_bmod (by decide)
  have hhigh : i.bmod UInt64.size < ((UInt64.size : Int) + 1) / 2 := Int.bmod_lt (by decide)
  rw [isInt64_iff]
  simp only [UInt64.size, int64Bound] at *
  omega

theorem isInt64_membersFrom {next : Int} (hnext : isInt64 next = true) (vs : List Variant) :
    ∀ m ∈ membersFrom next vs, isInt64 m.value = true := by
  induction vs generalizing next with
  | nil => simp [membersFrom]
  | cons v vs ih =>
    have hvalue : isInt64 ((v.value.bind Expr.integer?).getD next) = true := by
      cases hv : v.value.bind Expr.integer? with
      | none => exact hnext
      | some i =>
        obtain ⟨e, -, he⟩ := Option.bind_eq_some_iff.mp hv
        have hbounds := lt_of_integer? he
        exact isInt64_iff.mpr ⟨Int.le_of_lt hbounds.1, hbounds.2⟩
    rw [membersFrom]
    exact List.forall_mem_cons.mpr ⟨hvalue, ih (isInt64_bmod _)⟩

/-! ## Items -/

theorem fromItem_structure {s : StructItem} {ns : String} {d : Declaration}
    (h : s.declaration? ns = some d) : FromItem d := by
  unfold StructItem.declaration? at h
  split at h
  · split at h
    · next fields _ _ =>
      cases h
      refine ⟨rfl, fun p hp => ?_, fun m hm => ?_⟩
      · obtain ⟨f, -, rfl⟩ := List.mem_map.mp hp
        exact ⟨f.type, rfl⟩
      · cases hm
    · cases h
  · cases h

theorem fromItem_enumeration {e : EnumItem} {ns : String} {d : Declaration}
    (h : e.declaration? ns = some d) : FromItem d := by
  unfold EnumItem.declaration? at h
  split at h
  · cases h
    refine ⟨rfl, fun p hp => ?_, isInt64_membersFrom (by decide) e.variants⟩
    cases hp
  · cases h

mutual

theorem Item.fromItem_of_mem (ns : String) : (i : Item) → ∀ d ∈ i.declarations ns, FromItem d
  | .structure s, d, h => fromItem_structure (Option.mem_toList.mp h)
  | .enumeration e, d, h => fromItem_enumeration (Option.mem_toList.mp h)
  | .module name items, d, h => fromItem_of_mem (ns ++ "::" ++ name) items d h
  | .other, d, h => by cases h

/-- All declarations of items are declarations of a source file. -/
theorem fromItem_of_mem (ns : String) : (items : List Item) → ∀ d ∈ declarations ns items, FromItem d
  | [], d, h => by cases h
  | i :: is, d, h => by
    rw [declarations, List.mem_append] at h
    exact h.elim (i.fromItem_of_mem ns d) (fromItem_of_mem ns is d)

end

end TypeExport.Source
