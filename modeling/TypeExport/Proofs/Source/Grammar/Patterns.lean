import TypeExport.Proofs.Source.Grammar.Paths
import TypeExport.Source.Grammar.Pattern

/-!
# Patterns before a boundary

The end of a range may be left out, and then the token after the dots decides. A boundary decides it as the end
of the tokens does (`Extends.isRangeEnd_append`).
-/

namespace TypeExport.Source.Grammar

open Rule

namespace Extends

variable {g g' : Grammar} {tail : List Token} [Boundary tail]

@[gcongr] theorem alternatives (h : g.Extends g') :
    Rule.Extends tail g.alternatives g'.alternatives := by
  unfold Grammar.alternatives
  gcongr <;> simp

@[simp] theorem member {tail : List Token} : Rule.Extends tail member member := by
  intro ts b rest h
  unfold Grammar.member at h ⊢
  rw [Rule.get_bind] at h ⊢
  split at h
  · split at h <;> cases h
    next hn => simp only [List.cons_append, if_pos hn]; rfl
  · obtain ⟨_, left, hname, -⟩ := bind_eq_some_iff.mp h
    obtain ⟨n, hname⟩ := discard_eq_some_iff.mp hname
    obtain ⟨-, rfl⟩ := name_eq_some_iff.mp hname
    exact Rule.Extends.bind (.discard .name) (fun _ => .pure true) _ b rest h

@[gcongr] theorem constBlock {tail : List Token} (h : g.Extends g') :
    Rule.Extends tail g.constBlock g'.constBlock := by
  unfold Grammar.constBlock
  gcongr
  simp

/-! ## Ranges -/

@[simp] theorem rangeDots (allowThree : Bool) :
    Rule.Extends tail (rangeDots allowThree) (rangeDots allowThree) := by
  simp only [Grammar.rangeDots]
  gcongr <;> simp

@[simp] theorem isRangeEnd_append (ts : List Token) : isRangeEnd (ts ++ tail) = isRangeEnd ts := by
  have h (ts : List Token) : isRangeEnd ts = (isEnd ts || (isMark "," ts ||
      (isAny [isMark "|", isMark "=", isMark ";", isWord "if"] ts || isMark ":" ts && !isMark "::" ts))) := by
    simp only [isRangeEnd, isAny, List.any_cons, List.any_nil, Bool.or_false]
    ac_rfl
  simp [h, isAny]

@[gcongr] theorem rangeBound (h : g.Extends g') : Rule.Extends tail g.rangeBound g'.rangeBound := by
  simp only [Grammar.rangeBound]
  gcongr <;> simp

@[gcongr] theorem rangePattern (h : g.Extends g') :
    Rule.Extends tail g.rangePattern g'.rangePattern := by
  simp only [Grammar.rangePattern]
  gcongr <;> simp

@[gcongr] theorem endPattern (h : g.Extends g') : Rule.Extends tail g.endPattern g'.endPattern := by
  simp only [Grammar.endPattern]
  gcongr <;> simp

/-! ## Parts of structures -/

@[gcongr] theorem fieldPattern (h : g.Extends g') :
    Rule.Extends [] g.fieldPattern g'.fieldPattern := by
  simp only [Grammar.fieldPattern]
  gcongr

@[gcongr] theorem fieldPatterns {tail : List Token} (h : g.Extends g') :
    Rule.Extends tail g.fieldPatterns g'.fieldPatterns := by
  simp only [Grammar.fieldPatterns]
  gcongr

/-! ## Patterns -/

@[gcongr] theorem pathPattern (h : g.Extends g') :
    Rule.Extends tail g.pathPattern g'.pathPattern := by
  simp only [Grammar.pathPattern]
  gcongr <;> simp

@[simp] theorem isPathPatternStart_append (ts : List Token) :
    isPathPatternStart (ts ++ tail) = isPathPatternStart ts := by
  simp [isPathPatternStart, isAny]

@[gcongr] theorem bindingPattern (h : g.Extends g') :
    Rule.Extends tail g.bindingPattern g'.bindingPattern := by
  simp only [Grammar.bindingPattern]
  gcongr <;> simp

@[gcongr] theorem patternRule (h : g.Extends g') :
    Rule.Extends tail g.patternRule g'.patternRule := by
  simp only [Grammar.patternRule]
  gcongr <;> simp [isAny]

end Extends

end TypeExport.Source.Grammar
