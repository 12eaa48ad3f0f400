import TypeExport.Proofs.Source.Extension
import TypeExport.Source.Grammar.Item

/-!
# Grammars that read more

`Grammar.Extends g g'`: the rules of `g'` read all that the rules of `g` read. Types, bounds, operands,
operators and patterns may be items of a list, so they are read with a boundary after them too, and no
token of it is touched. What stands in brackets of its own is only compared as a whole.

The modules of this folder show the relation for each rule that is built from the rules of a grammar.
Each proof takes the rule apart with `gcongr`.
-/

namespace TypeExport.Source.Grammar

open Rule

/-- An argument of a function that is no receiver. -/
def typedArgument (g : Grammar) : Rule Bool := do
  if ← sees (fun ts => isName ts && second (isMark "<") ts) then
    discard (g.type true)
    return true
  discard g.pattern
  mark ":"
  if ← optionalMark "..." then return false
  discard (g.type true)
  return true

/-- All that `g` reads, `g'` reads. -/
structure Extends (g g' : Grammar) : Prop where
  type (allowPlus : Bool) {tail : List Token} [Boundary tail] :
    Rule.Extends tail (g.type allowPlus) (g'.type allowPlus)
  bound {tail : List Token} [Boundary tail] : Rule.Extends tail g.bound g'.bound
  /-- Where the tokens end, there is no bound. -/
  bound_nil : g.bound [] = none
  unary (allowStruct : Bool) {tail : List Token} [Boundary tail] :
    Rule.Extends tail (g.unary allowStruct) (g'.unary allowStruct)
  operators (allowStruct : Bool) (base : Nat) (e : Expr) {tail : List Token} [Boundary tail] :
    Rule.Extends tail (g.operators allowStruct base e) (g'.operators allowStruct base e)
  pattern {tail : List Token} [Boundary tail] : Rule.Extends tail g.pattern g'.pattern
  statementExpr : Rule.Extends [] g.statementExpr g'.statementExpr
  statements : Rule.Extends [] g.statements g'.statements
  item : Rule.Extends [] g.item g'.item
  fields : Rule.Extends [] g.fields g'.fields
  useTree (allowRoot : Bool) : Rule.Extends [] (g.useTree allowRoot) (g'.useTree allowRoot)
  /-- What `g'` reads as a receiver and `g` does not, `g` does not read as another argument. -/
  typedArgument_eq_none {ts : List Token} (hg : g.receiver ts = none) (hg' : g'.receiver ts ≠ none) :
    g.typedArgument ts = none

attribute [gcongr] Extends.type Extends.bound Extends.unary Extends.operators Extends.pattern
  Extends.statementExpr Extends.statements Extends.item Extends.fields Extends.useTree

namespace Extends

variable {g g' : Grammar} {tail : List Token} [Boundary tail]

/-! ## Expressions and blocks -/

@[gcongr] theorem exprWith (h : g.Extends g') (allowStruct : Bool) :
    Rule.Extends tail (g.exprWith allowStruct) (g'.exprWith allowStruct) := by
  unfold Grammar.exprWith
  gcongr

@[gcongr] theorem expr (h : g.Extends g') : Rule.Extends tail g.expr g'.expr :=
  h.exprWith true

@[gcongr] theorem block {tail : List Token} (h : g.Extends g') : Rule.Extends tail g.block g'.block := by
  unfold Grammar.block
  gcongr

/-! ## Paths without arguments -/

@[simp] theorem isPathWord_append (ts : List Token) : isPathWord (ts ++ tail) = isPathWord ts := by
  simp [isPathWord, isAny]

@[simp] theorem pathWord : Rule.Extends tail pathWord pathWord := by
  unfold Grammar.pathWord
  gcongr <;> simp

@[simp] theorem plainPath : Rule.Extends tail plainPath plainPath := by
  unfold Grammar.plainPath
  gcongr <;> simp

/-! ## Attributes -/

@[gcongr] theorem metaContent (h : g.Extends g') : Rule.Extends [] g.metaContent g'.metaContent := by
  simp only [Grammar.metaContent]
  gcongr
  · simp
  · split <;> gcongr

@[gcongr] theorem attributeGroup {tail : List Token} (h : g.Extends g') :
    Rule.Extends tail g.attributeGroup g'.attributeGroup := by
  unfold Grammar.attributeGroup
  gcongr
  dsimp only
  gcongr

@[gcongr] theorem attributes (h : g.Extends g') : Rule.Extends tail g.attributes g'.attributes := by
  unfold Grammar.attributes
  gcongr <;> simp

@[gcongr] theorem innerAttributes (h : g.Extends g') :
    Rule.Extends [] g.innerAttributes g'.innerAttributes := by
  unfold Grammar.innerAttributes
  gcongr
  simp

@[gcongr] theorem body {tail : List Token} (h : g.Extends g') : Rule.Extends tail g.body g'.body := by
  unfold Grammar.body
  gcongr

end Extends

end TypeExport.Source.Grammar
