import TypeExport.Proofs.Source.Grammar.Types
import TypeExport.Proofs.Source.Grammar.Patterns
import TypeExport.Source.Grammar.Item
import TypeExport.Source.Grammar.Statement

/-!
# Statements and items in grammars that read more

Statements and items stand in braces of their own, so they are compared as a whole. Arguments of functions are the
one place where a rule is tried and another one taken if it fails: `Extends.itemArgument` needs that what only
the greater grammar reads as a receiver is no other argument.
-/

namespace TypeExport.Source.Grammar

open Rule

namespace Extends

variable {g g' : Grammar}

/-! ## Statements -/

@[gcongr] theorem letStatement (h : g.Extends g') :
    Rule.Extends [] g.letStatement g'.letStatement := by
  simp only [Grammar.letStatement]
  gcongr

@[gcongr] theorem statement (h : g.Extends g') : Rule.Extends [] g.statement g'.statement := by
  simp only [Grammar.statement]
  gcongr
  simp

@[gcongr] theorem statementsRule (h : g.Extends g') :
    Rule.Extends [] g.statementsRule g'.statementsRule := by
  simp only [Grammar.statementsRule]
  gcongr

/-! ## Functions -/

@[gcongr] theorem receiver (h : g.Extends g') : Rule.Extends [] g.receiver g'.receiver := by
  simp only [Grammar.receiver]
  gcongr

theorem typedArgument (h : g.Extends g') : Rule.Extends [] g.typedArgument g'.typedArgument := by
  simp only [Grammar.typedArgument]
  gcongr

@[gcongr] theorem itemArgument (h : g.Extends g') (isFirst : Bool) :
    Rule.Extends [] (g.itemArgument isFirst) (g'.itemArgument isFirst) := by
  refine .bind (by gcongr) fun _ => .bind (.refl _) fun _ => .ite (.refl _) ?_
  exact .attempt_or h.receiver h.typedArgument fun ts => h.typedArgument_eq_none

@[gcongr] theorem itemArguments (h : g.Extends g') :
    Rule.Extends [] g.itemArguments g'.itemArguments := by
  simp only [Grammar.itemArguments]
  gcongr

@[gcongr] theorem signature (h : g.Extends g') (allowSafe : Bool) :
    Rule.Extends [] (g.signature allowSafe) (g'.signature allowSafe) := by
  unfold Grammar.signature
  gcongr

@[gcongr] theorem function (h : g.Extends g') (allowSafe : Bool) :
    Rule.Extends [] (g.function allowSafe) (g'.function allowSafe) := by
  unfold Grammar.function
  gcongr

/-! ## Constants and declared types -/

@[gcongr] theorem constant (h : g.Extends g') : Rule.Extends [] g.constant g'.constant := by
  simp only [Grammar.constant]
  gcongr

@[gcongr] theorem variableItem (h : g.Extends g') :
    Rule.Extends [] g.variableItem g'.variableItem := by
  simp only [Grammar.variableItem]
  gcongr

@[gcongr] theorem boundsUpTo {r r' : Rule Unit} (stop : List Token → Bool) (hr : Rule.Extends [] r r') :
    Rule.Extends [] (boundsUpTo stop r) (boundsUpTo stop r') := by
  unfold Grammar.boundsUpTo
  gcongr <;> simp

@[gcongr] theorem typeDeclaration (h : g.Extends g') (place : WherePlace) :
    Rule.Extends [] (g.typeDeclaration place) (g'.typeDeclaration place) := by
  simp only [Grammar.typeDeclaration]
  gcongr

/-! ## Imports -/

@[gcongr] theorem useTreeRule (h : g.Extends g') (allowRoot : Bool) :
    Rule.Extends [] (g.useTreeRule allowRoot) (g'.useTreeRule allowRoot) := by
  simp only [Grammar.useTreeRule]
  gcongr <;> simp

/-! ## Structures and enumerations -/

@[gcongr] theorem namedField (h : g.Extends g') : Rule.Extends [] g.namedField g'.namedField := by
  simp only [Grammar.namedField]
  gcongr
  simp

@[gcongr] theorem fieldsRule (h : g.Extends g') : Rule.Extends [] g.fieldsRule g'.fieldsRule := by
  unfold Grammar.fieldsRule
  gcongr

@[gcongr] theorem unnamedFields (h : g.Extends g') :
    Rule.Extends [] g.unnamedFields g'.unnamedFields := by
  unfold Grammar.unnamedFields
  gcongr

@[gcongr] theorem structItem (h : g.Extends g') (attributes : List Attribute) (r : Reach) :
    Rule.Extends [] (g.structItem attributes r) (g'.structItem attributes r) := by
  simp only [Grammar.structItem]
  gcongr
  simp

@[gcongr] theorem variant (h : g.Extends g') : Rule.Extends [] g.variant g'.variant := by
  simp only [Grammar.variant]
  gcongr <;> simp

@[gcongr] theorem enumItem (h : g.Extends g') (attributes : List Attribute) (r : Reach) :
    Rule.Extends [] (g.enumItem attributes r) (g'.enumItem attributes r) := by
  unfold Grammar.enumItem
  gcongr

@[gcongr] theorem unionItem (h : g.Extends g') : Rule.Extends [] g.unionItem g'.unionItem := by
  unfold Grammar.unionItem
  gcongr

/-! ## Traits, implementations and foreign interfaces -/

@[gcongr] theorem innerItems {α : Type} {r r' : Rule α} (h : g.Extends g') (hr : Rule.Extends [] r r') :
    Rule.Extends [] (g.innerItems r) (g'.innerItems r') := by
  unfold Grammar.innerItems
  gcongr

@[gcongr] theorem traitMember (h : g.Extends g') : Rule.Extends [] g.traitMember g'.traitMember := by
  simp only [Grammar.traitMember]
  gcongr
  simp

@[gcongr] theorem traitItem (h : g.Extends g') : Rule.Extends [] g.traitItem g'.traitItem := by
  simp only [Grammar.traitItem]
  gcongr

@[gcongr] theorem implMember (h : g.Extends g') : Rule.Extends [] g.implMember g'.implMember := by
  simp only [Grammar.implMember]
  gcongr
  simp

@[gcongr] theorem implItem (h : g.Extends g') : Rule.Extends [] g.implItem g'.implItem := by
  simp only [Grammar.implItem]
  gcongr

@[gcongr] theorem foreignVariable (h : g.Extends g') :
    Rule.Extends [] g.foreignVariable g'.foreignVariable := by
  simp only [Grammar.foreignVariable]
  gcongr

@[gcongr] theorem foreignMember (h : g.Extends g') :
    Rule.Extends [] g.foreignMember g'.foreignMember := by
  simp only [Grammar.foreignMember]
  gcongr
  simp

@[gcongr] theorem foreignItem (h : g.Extends g') : Rule.Extends [] g.foreignItem g'.foreignItem := by
  unfold Grammar.foreignItem
  gcongr

/-! ## Items -/

@[gcongr] theorem moduleItem (h : g.Extends g') : Rule.Extends [] g.moduleItem g'.moduleItem := by
  simp only [Grammar.moduleItem]
  gcongr

@[gcongr] theorem otherItem (h : g.Extends g') (r : Reach) :
    Rule.Extends [] (g.otherItem r) (g'.otherItem r) := by
  simp only [Grammar.otherItem]
  gcongr
  simp

@[gcongr] theorem itemRule (h : g.Extends g') : Rule.Extends [] g.itemRule g'.itemRule := by
  simp only [Grammar.itemRule]
  gcongr
  simp

end Extends

end TypeExport.Source.Grammar
