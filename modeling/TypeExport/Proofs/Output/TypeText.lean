import Mathlib.Data.List.Basic
import TypeExport.Output.TypeText
import TypeExport.Proofs.TypeExpr.Arguments

/-!
# Names in place of texts

A type whose wrapper has another number of arguments than it takes is written as the name of the wrapper.

* `Output.strictText?`: a type expression as a TypeScript type, if no wrapper with a meaning has to be
  written so.
* `Output.strictText?_eq`: there always is one if all wrappers have their arguments, and it is the one that
  is written.
-/

namespace TypeExport.Output

open TypeExpr

/-- A type expression as a TypeScript type, in which only custom generic types are written as their
names. -/
def strictText? : TypeExpr → Option String
  | .primitive p => some p.typescript
  | .named n => some (Text.simpleName n)
  | .array e => return arrayOf (← strictText? e)
  | .generic .dictionary [k, v] => return mapOf (← strictText? k) (← strictText? v)
  | .generic .nullable [t] =>
    if (TypeExpr.generic .nullable [t]).nullableValue?.isSome then return (← strictText? t) ++ "|null"
    else strictText? t
  | .generic .enumerable [e] => return arrayOf (← strictText? e)
  | .generic .collection [e] => return arrayOf (← strictText? e)
  | .generic .task [t] => strictText? t
  | .generic (.custom n) _ => some (Text.simpleName n)
  | .generic _ _ => none

/-- The text of a type expression whose wrappers have their arguments has no wrapper with a meaning written
as its name. -/
theorem strictText?_eq {t : TypeExpr} (h : t.Saturated) : strictText? t = some (typeText t) := by
  fun_induction typeText t with
  | case1 | case2 => rfl
  | case3 e ih => simp [strictText?, ih (everyGeneric_array_iff.mp h)]
  | case4 k v ihk ihv =>
    have hargs := (everyGeneric_generic_iff.mp h).2
    simp [strictText?, ihk (hargs k (by simp)), ihv (hargs v (by simp))]
  | case5 t hvalue ih =>
    have hargs := (everyGeneric_generic_iff.mp h).2
    simp [strictText?, hvalue, ih (hargs t (by simp))]
  | case6 t hvalue ih =>
    have hargs := (everyGeneric_generic_iff.mp h).2
    simp [strictText?, hvalue, ih (hargs t (by simp))]
  | case7 e ih | case8 e ih | case9 e ih =>
    have hargs := (everyGeneric_generic_iff.mp h).2
    simp [strictText?, ih (hargs e (by simp))]
  | case10 w args hdictionary hnullable henumerable hcollection htask =>
    obtain ⟨-, hlength⟩ := (everyGeneric_generic_iff.mp h).1
    cases w with
    | custom n => rfl
    | dictionary =>
      obtain ⟨k, v, rfl⟩ := List.length_eq_two.mp (hlength 2 rfl)
      exact (hdictionary k v rfl rfl).elim
    | nullable =>
      obtain ⟨t, rfl⟩ := List.length_eq_one_iff.mp (hlength 1 rfl)
      exact (hnullable t rfl rfl).elim
    | enumerable =>
      obtain ⟨e, rfl⟩ := List.length_eq_one_iff.mp (hlength 1 rfl)
      exact (henumerable e rfl rfl).elim
    | collection =>
      obtain ⟨e, rfl⟩ := List.length_eq_one_iff.mp (hlength 1 rfl)
      exact (hcollection e rfl rfl).elim
    | task =>
      obtain ⟨t, rfl⟩ := List.length_eq_one_iff.mp (hlength 1 rfl)
      exact (htask t rfl rfl).elim

end TypeExport.Output
