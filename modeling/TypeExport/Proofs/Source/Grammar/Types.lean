import TypeExport.Proofs.Source.Grammar.Paths
import TypeExport.Source.Grammar.Type

/-!
# Types before a boundary

A type may be an item of a list (an argument of a function, a part of a tuple), so it is read with a boundary after it.
The two kinds of bounds in the place of a type differ only in the rule for one of them (`Extends.bounds`).
-/

namespace TypeExport.Source.Grammar

open Rule

namespace Extends

variable {g g' : Grammar} {tail : List Token} [Boundary tail]

/-! ## Bounds in the place of a type -/

@[simp] theorem isBoundStart_append (ts : List Token) :
    isBoundStart (ts ++ tail) = isBoundStart ts := by
  simp [isBoundStart, isAny]

theorem bounds {r r' : Rule Bool} (hr : Rule.Extends tail r r') (allowPlus : Bool) :
    Rule.Extends tail (bounds allowPlus r) (bounds allowPlus r') := by
  simp only [Grammar.bounds]
  gcongr <;> simp

@[gcongr] theorem objectBounds (h : g.Extends g') (allowPlus : Bool) :
    Rule.Extends tail (g.objectBounds allowPlus) (g'.objectBounds allowPlus) :=
  bounds h.objectBound allowPlus

@[gcongr] theorem hiddenBounds (h : g.Extends g') (allowPlus : Bool) :
    Rule.Extends tail (g.hiddenBounds allowPlus) (g'.hiddenBounds allowPlus) := by
  refine bounds ?_ allowPlus
  gcongr
  simp

@[gcongr] theorem moreBounds (h : g.Extends g') : Rule.Extends tail g.moreBounds g'.moreBounds := by
  unfold Grammar.moreBounds
  gcongr <;> simp

/-! ## Function types -/

@[simp] theorem interface : Rule.Extends tail interface interface := by
  unfold Grammar.interface
  gcongr <;> simp

@[gcongr] theorem functionArgument (h : g.Extends g') (isFirst : Bool) :
    Rule.Extends [] (g.functionArgument isFirst) (g'.functionArgument isFirst) := by
  simp only [Grammar.functionArgument]
  gcongr <;> simp

@[gcongr] theorem functionTypeArguments (h : g.Extends g') :
    Rule.Extends [] g.functionTypeArguments g'.functionTypeArguments := by
  simp only [Grammar.functionTypeArguments]
  gcongr

@[gcongr] theorem functionType (h : g.Extends g') :
    Rule.Extends tail g.functionType g'.functionType := by
  unfold Grammar.functionType
  gcongr <;> simp

/-! ## Types -/

@[gcongr] theorem pathType (h : g.Extends g') (allowPlus hasParameters : Bool) :
    Rule.Extends tail (g.pathType allowPlus hasParameters) (g'.pathType allowPlus hasParameters) := by
  simp only [Grammar.pathType]
  gcongr <;> simp

@[gcongr] theorem parenthesisContent (h : g.Extends g') :
    Rule.Extends [] g.parenthesisContent g'.parenthesisContent := by
  simp only [Grammar.parenthesisContent]
  gcongr

@[gcongr] theorem parenthesizedType (h : g.Extends g') (allowPlus : Bool) :
    Rule.Extends tail (g.parenthesizedType allowPlus) (g'.parenthesizedType allowPlus) := by
  simp only [Grammar.parenthesizedType]
  gcongr
  case hr =>
    refine .sees fun ts => ?_
    rcases ts with _ | ⟨_ | _ | _ | _ | _, _⟩
    case nil => obtain rfl | ⟨_, _, rfl⟩ := Boundary.cases tail <;> rfl
    all_goals rfl
  · simp
  · split
    · gcongr <;> simp
    · simp

@[gcongr] theorem bracketType {tail : List Token} (h : g.Extends g') :
    Rule.Extends tail g.bracketType g'.bracketType := by
  unfold Grammar.bracketType
  gcongr

@[gcongr] theorem typeRule (h : g.Extends g') (allowPlus : Bool) :
    Rule.Extends tail (g.typeRule allowPlus) (g'.typeRule allowPlus) := by
  simp only [Grammar.typeRule]
  gcongr <;> simp [isAny]

end Extends

end TypeExport.Source.Grammar
