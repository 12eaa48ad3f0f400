import Mathlib.Algebra.GroupWithZero.Nat
import Mathlib.Data.List.Count
import TypeExport.Proofs.Output.Imports

/-!
# Modules that import themselves

A module holds a declaration and all that is nested in it, and imports are made for each of these by itself. No
interface imports its own name, but one that is nested may import the name of the outermost declaration, and
with it the module that it stands in.

* `List.count_intercalate`: what is not in the separator occurs in the parts only.
* `Output.Needs`: an interface refers to a name that is not its own.
* `Output.count_importLine_ownLines`: an interface has one import for each name that it needs.
* `Output.count_importLine_declarationLines`: how often a module imports itself.
* `Output.not_importLine_not_mem_declarationLines`: there are modules that do.
-/

namespace List

/-- What is not in the separator occurs in the parts only. -/
theorem count_intercalate {α : Type} [BEq α] [LawfulBEq α] {sep : List α} {a : α} (h : a ∉ sep)
    (parts : List (List α)) : (sep.intercalate parts).count a = (parts.map (count a)).sum := by
  match parts with
  | [] => simp
  | [l] => simp
  | l :: l' :: parts =>
    rw [intercalate_cons_cons, count_append, count_append, count_eq_zero.mpr h, Nat.add_zero,
      count_intercalate h (l' :: parts)]
    rfl

end List

namespace TypeExport.Output

instance (n : String) (t : TypeExpr) : Decidable (Shows n t) :=
  decidable_of_iff (n ∈ references t) (mem_references_iff t)

/-- The text of a declaration refers to a name that is not its own. -/
def Needs (x : Declaration) (n : String) : Prop :=
  n ≠ x.name ∧ ∃ p ∈ x.readable, Shows n p.type

instance (x : Declaration) (n : String) : Decidable (Needs x n) :=
  inferInstanceAs (Decidable (_ ∧ _))

/-! ## Import lines -/

/-- An import line says which name it imports. -/
theorem importLine_injective : Function.Injective importLine := by
  intro m n h
  have hlists := congrArg String.toList h
  simp only [importLine, linkLine, String.toList_append, List.append_assoc,
    List.append_cancel_left_eq] at hlists
  -- Both names stand there twice, with equal texts between them and after them.
  have hlength := congrArg List.length hlists
  simp only [List.length_append] at hlength
  exact String.toList_inj.mp (List.append_inj_left hlists (by omega))

theorem head?_importLine (n : String) : (importLine n).toList.head? = some 'i' := by
  simp [importLine, linkLine]

/-- No line of a body is an import. -/
theorem importLine_ne_of_head? {n line : String} (h : line.toList.head? ≠ some 'i') :
    importLine n ≠ line := fun heq => h (heq ▸ head?_importLine n)

theorem importLine_not_mem_enumeration (n name : String) (ms : List Member) :
    importLine n ∉ ["export enum " ++ name ++ " \x7b"] ++ ms.map memberLine ++ ["\x7d"] := by
  simp only [List.mem_append, List.mem_singleton, List.mem_map, not_or, not_exists, not_and]
  refine ⟨⟨importLine_ne_of_head? (by simp), fun m _ h => ?_⟩, importLine_ne_of_head? (by simp)⟩
  exact importLine_ne_of_head? (by simp [memberLine]) h.symm

theorem importLine_not_mem_interface (n name : String) (ps : List Property) :
    importLine n ∉ ["export interface " ++ name ++ " \x7b"] ++ ps.map propertyLine ++ ["\x7d"] := by
  simp only [List.mem_append, List.mem_singleton, List.mem_map, not_or, not_exists, not_and]
  refine ⟨⟨importLine_ne_of_head? (by simp), fun p _ h => ?_⟩, importLine_ne_of_head? (by simp)⟩
  exact importLine_ne_of_head? (by simp [propertyLine]) h.symm

/-! ## Imports of a declaration -/

theorem mem_importNames_iff {x : Declaration} {n : String} : n ∈ importNames x ↔ Needs x n := by
  rw [importNames_eq, List.mem_eraseDups, List.mem_filter, List.mem_flatMap]
  simp only [mem_references_iff, decide_eq_true_eq]
  exact and_comm

theorem count_importBlock (x : Declaration) (n : String) :
    (importBlock x).count (importLine n) = if Needs x n then 1 else 0 := by
  have hnodup : (importNames x).Nodup := by
    rw [importNames_eq]
    exact List.nodup_eraseDups _
  have hblank : (if importNames x = [] then [] else [""]).count (importLine n) = 0 := by
    refine List.count_eq_zero.mpr fun h => ?_
    split at h
    · cases h
    · exact importLine_ne_of_head? (by simp) (List.mem_singleton.mp h)
  rw [importBlock_eq, List.count_append, hblank, Nat.add_zero,
    List.count_map_of_injective _ _ importLine_injective, hnodup.count]
  simp only [mem_importNames_iff]

/-- A declaration has one import for each name that it needs. -/
theorem count_importLine_ownLines (x : Declaration) (n : String) :
    (ownLines x).count (importLine n) = if Needs x n then 1 else 0 := by
  cases hshape : x.isEnumeration with
  | false =>
    rw [ownLines_of_not_enumeration hshape, List.append_assoc, List.append_assoc, List.count_append,
      count_importBlock, ← List.append_assoc,
      List.count_eq_zero.mpr (importLine_not_mem_interface n x.name x.readable), Nat.add_zero]
  | true =>
    -- An enumeration has no properties, and so needs no names.
    obtain ⟨name, ns, shape, nested, doc⟩ := x
    cases shape with
    | enumeration ms =>
      rw [if_neg (by rintro ⟨-, p, hp, -⟩; cases hp)]
      exact List.count_eq_zero.mpr (importLine_not_mem_enumeration n name ms)
    | classType | interfaceType => cases hshape

/-- A module has as many imports of a name as there are declarations in it that need the name. -/
theorem count_importLine_eq_countP (d : Declaration) (n : String) :
    (declarationLines d).count (importLine n) = d.flatten.countP fun x => Needs x n := by
  have hblank : importLine n ∉ [""] :=
    fun h => importLine_ne_of_head? (by simp) (List.mem_singleton.mp h)
  rw [declarationLines, List.count_intercalate hblank, List.map_map]
  induction d.flatten with
  | nil => rfl
  | cons x xs ih =>
    rw [List.map_cons, List.sum_cons, ih, List.countP_cons, Function.comp_apply,
      count_importLine_ownLines, Nat.add_comm]
    simp only [decide_eq_true_eq]

/-- **Modules that import themselves.** No declaration imports its own name. The module of a declaration
imports itself once for each declaration in it that has another name, and a property of which can be read and
refers back, outside custom generic types. -/
theorem count_importLine_declarationLines (d : Declaration) :
    (∀ x : Declaration, importLine x.name ∉ ownLines x) ∧
    (declarationLines d).count (importLine d.name) = d.flatten.countP fun x =>
      x.name ≠ d.name ∧ ∃ p ∈ x.properties, p.visibility = .exposed ∧ Shows d.name p.type := by
  constructor
  · intro x
    rw [← List.count_eq_zero, count_importLine_ownLines]
    exact if_neg fun h => h.1 rfl
  · rw [count_importLine_eq_countP]
    refine List.countP_congr fun x _ => ?_
    simp only [Needs, Declaration.readable, List.mem_filter, Property.isReadable, beq_iff_eq, and_assoc,
      decide_eq_true_eq, ne_comm]

/-- An order whose lines refer back to it. -/
def orderOfLines : Declaration where
  name := "Order"
  ns := "Shop"
  shape := .classType false [⟨"Lines", .array (.named "Line"), .exposed, none⟩]
  nested := [
    { name := "Line", ns := "Shop"
      shape := .classType false [⟨"Order", .named "Order", .exposed, none⟩] }]

/-- Not all modules leave out the import of themselves. -/
theorem not_importLine_not_mem_declarationLines :
    ¬ ∀ d : Declaration, importLine d.name ∉ declarationLines d := by
  intro hall
  refine hall orderOfLines (List.count_pos_iff.mp ?_)
  decide

end TypeExport.Output
