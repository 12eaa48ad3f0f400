import TypeExport.Proofs.Source.Grammar.Basic

/-!
# Paths, bounds and parameters in grammars that read more

The angle brackets of arguments are no group, so what stands in them is read with a boundary after it. The
bounds of an argument end at a comma, which a boundary may begin with, and not at the end of the tokens. But
there no bound is read (`Extends.declaredBound_nil`), so the rule fails without the boundary.
-/

namespace TypeExport.Source.Grammar

open Rule

namespace Extends

variable {g g' : Grammar} {tail : List Token} [Boundary tail]

/-! ## Paths -/

@[gcongr] theorem declaredBound (h : g.Extends g') :
    Rule.Extends tail g.declaredBound g'.declaredBound := by
  unfold Grammar.declaredBound
  gcongr <;> simp

theorem declaredBound_nil (h : g.Extends g') : g.declaredBound [] = none := by
  exact bind_of_none h.bound_nil _

@[gcongr] theorem objectBound (h : g.Extends g') :
    Rule.Extends tail g.objectBound g'.objectBound := by
  unfold Grammar.objectBound
  gcongr
  split <;> simp

@[gcongr] theorem constArgument (h : g.Extends g') :
    Rule.Extends tail g.constArgument g'.constArgument := by
  unfold Grammar.constArgument
  gcongr <;> simp

@[simp] theorem isConstStart_append (ts : List Token) :
    isConstStart (ts ++ tail) = isConstStart ts := by
  simp [isConstStart, isAny]

@[gcongr] theorem argument (h : g.Extends g') :
    Rule.Extends tail g.argument g'.argument := by
  simp only [Grammar.argument]
  gcongr
  case hs =>
    intro ts
    cases ts with
    | nil => exact .inr ⟨rfl, h.declaredBound_nil⟩
    | cons t ts =>
      left
      simp only [isAny, List.any_cons, List.any_nil, isMark_append (s := ">") (by simp)]
      rw [List.cons_append, isMark_comma_cons_append]
  all_goals simp

@[gcongr] theorem arguments (h : g.Extends g') :
    Rule.Extends tail g.arguments g'.arguments := by
  unfold Grammar.arguments
  gcongr <;> simp

@[gcongr] theorem segment (h : g.Extends g') (inExpr : Bool) :
    Rule.Extends tail (g.segment inExpr) (g'.segment inExpr) := by
  simp only [Grammar.segment]
  gcongr <;> simp [isAny]

@[gcongr] theorem moreSegments (h : g.Extends g') (inExpr : Bool) :
    Rule.Extends tail (g.moreSegments inExpr) (g'.moreSegments inExpr) := by
  unfold Grammar.moreSegments
  gcongr <;> simp

@[gcongr] theorem path (h : g.Extends g') (inExpr : Bool) :
    Rule.Extends tail (g.path inExpr) (g'.path inExpr) := by
  unfold Grammar.path
  gcongr <;> simp

@[gcongr] theorem typedPath (h : g.Extends g') (inExpr : Bool) :
    Rule.Extends tail (g.typedPath inExpr) (g'.typedPath inExpr) := by
  simp only [Grammar.typedPath]
  gcongr <;> simp

/-! ## Parameters -/

@[gcongr] theorem parameter (h : g.Extends g') : Rule.Extends tail g.parameter g'.parameter := by
  simp only [Grammar.parameter]
  gcongr <;> simp [isAny]

@[gcongr] theorem boundParameters (h : g.Extends g') :
    Rule.Extends tail g.boundParameters g'.boundParameters := by
  simp only [Grammar.boundParameters]
  gcongr <;> simp

/-! ## Bounds -/

@[gcongr] theorem returned (h : g.Extends g') (allowPlus : Bool) :
    Rule.Extends tail (g.returned allowPlus) (g'.returned allowPlus) := by
  unfold Grammar.returned
  gcongr <;> simp

@[gcongr] theorem functionArguments (h : g.Extends g') :
    Rule.Extends tail g.functionArguments g'.functionArguments := by
  unfold Grammar.functionArguments
  gcongr

@[gcongr] theorem traitBound (h : g.Extends g') : Rule.Extends tail g.traitBound g'.traitBound := by
  simp only [Grammar.traitBound]
  gcongr <;> simp

@[simp] theorem captured : Rule.Extends tail captured captured := by
  unfold Grammar.captured
  gcongr <;> simp [isAny]

@[gcongr] theorem boundRule (h : g.Extends g') : Rule.Extends tail g.boundRule g'.boundRule := by
  simp only [Grammar.boundRule]
  gcongr <;> simp

theorem boundRule_nil (g : Grammar) : g.boundRule [] = none := by
  rfl

/-! ## Parameters of items and where clauses -/

@[gcongr] theorem itemParameter (h : g.Extends g') :
    Rule.Extends [] g.itemParameter g'.itemParameter := by
  simp only [Grammar.itemParameter]
  gcongr

@[gcongr] theorem parameters (h : g.Extends g') : Rule.Extends [] g.parameters g'.parameters := by
  simp only [Grammar.parameters]
  gcongr <;> simp

@[gcongr] theorem predicate (h : g.Extends g') : Rule.Extends [] g.predicate g'.predicate := by
  simp only [Grammar.predicate]
  gcongr <;> simp

@[gcongr] theorem whereClause (h : g.Extends g') : Rule.Extends [] g.whereClause g'.whereClause := by
  simp only [Grammar.whereClause]
  gcongr <;> simp

end Extends

end TypeExport.Source.Grammar
