import TypeExport.Proofs.TypeExpr.WellFormed

/-!
# Arguments of generic types

* `TypeExpr.Occurs`: an expression stands somewhere in another one.
* `TypeExpr.EveryGeneric`: what holds of all generic types in an expression. It is shown part by part
  (`TypeExpr.everyGeneric_array_iff`, `TypeExpr.everyGeneric_generic_iff`).
* `TypeExpr.Saturated`: every generic type has an argument, and as many as its wrapper takes
  (`TypeExpr.Filled`).
* `TypeExpr.Unambiguous`: a custom generic type does not go by a name of a wrapper with a meaning.
* `TypeExpr.WellFormed.saturated`, `TypeExpr.WellFormed.unambiguous`: both hold of what a text denotes.
-/

namespace TypeExport.TypeExpr

/-- The first expression is the second one or stands in it, at any depth. -/
inductive Occurs : TypeExpr → TypeExpr → Prop where
  | self (t : TypeExpr) : Occurs t t
  | element {u e : TypeExpr} (inner : Occurs u e) : Occurs u (.array e)
  | argument {u a : TypeExpr} {w : Wrapper} {args : List TypeExpr} (mem : a ∈ args)
    (inner : Occurs u a) : Occurs u (.generic w args)

/-- The property holds of every generic type in the expression. -/
def EveryGeneric (P : Wrapper → List TypeExpr → Prop) (t : TypeExpr) : Prop :=
  ∀ w args, Occurs (.generic w args) t → P w args

section

variable {P : Wrapper → List TypeExpr → Prop}

theorem everyGeneric_primitive (p : Primitive) : EveryGeneric P (.primitive p) := by
  rintro w args ⟨⟩

theorem everyGeneric_named (n : String) : EveryGeneric P (.named n) := by
  rintro w args ⟨⟩

theorem everyGeneric_array_iff {e : TypeExpr} : EveryGeneric P (.array e) ↔ EveryGeneric P e := by
  refine ⟨fun h w args hocc => h w args (.element hocc), fun h w args hocc => ?_⟩
  cases hocc with
  | element hocc => exact h w args hocc

theorem everyGeneric_generic_iff {w : Wrapper} {args : List TypeExpr} :
    EveryGeneric P (.generic w args) ↔ P w args ∧ ∀ a ∈ args, EveryGeneric P a := by
  constructor
  · exact fun h => ⟨h w args (.self _), fun a ha v as hocc => h v as (.argument ha hocc)⟩
  · rintro ⟨hself, hargs⟩ v as hocc
    cases hocc with
    | self => exact hself
    | argument ha hocc => exact hargs _ ha v as hocc

end

/-- There is an argument, and there are as many as the wrapper takes where that is fixed. -/
def Filled (w : Wrapper) (args : List TypeExpr) : Prop :=
  args ≠ [] ∧ ∀ k ∈ w.arity?, args.length = k

theorem filled_of_arity {w : Wrapper} {args : List TypeExpr} (h : w.arity? = some args.length) :
    Filled w args := by
  refine ⟨?_, fun k hk => ?_⟩
  · rintro rfl
    exact Wrapper.arity?_ne_zero h
  · exact (Option.some.inj (hk.symm.trans h)).symm

theorem filled_custom {n : String} {args : List TypeExpr} (h : args ≠ []) :
    Filled (.custom n) args := ⟨h, fun _ hk => by cases hk⟩

/-- Every generic type in the expression has its arguments. -/
def Saturated : TypeExpr → Prop := EveryGeneric Filled

/-- A custom generic type in the expression has no name that denotes another wrapper. -/
def Unambiguous : TypeExpr → Prop :=
  EveryGeneric fun w _ => ∀ n, w = .custom n → Wrapper.ofName n = .custom n

variable {t : TypeExpr}

theorem WellFormed.saturated (h : t.WellFormed) : t.Saturated := by
  induction h with
  | primitive p => exact everyGeneric_primitive p
  | named => exact everyGeneric_named _
  | array _ ih => exact everyGeneric_array_iff.mpr ih
  | fixed arity _ ih => exact everyGeneric_generic_iff.mpr ⟨filled_of_arity arity, ih⟩
  | custom _ _ nonempty _ ih => exact everyGeneric_generic_iff.mpr ⟨filled_custom nonempty, ih⟩

theorem WellFormed.unambiguous (h : t.WellFormed) : t.Unambiguous := by
  induction h with
  | primitive p => exact everyGeneric_primitive p
  | named => exact everyGeneric_named _
  | array _ ih => exact everyGeneric_array_iff.mpr ih
  | fixed arity _ ih =>
    refine everyGeneric_generic_iff.mpr ⟨?_, ih⟩
    rintro n rfl
    cases arity
  | custom _ unknown _ _ ih =>
    refine everyGeneric_generic_iff.mpr ⟨?_, ih⟩
    rintro m hm
    cases hm
    exact unknown

end TypeExport.TypeExpr
