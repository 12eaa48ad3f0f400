import TypeExport.Proofs.Source.Grammar.Expressions
import TypeExport.Proofs.Source.Grammar.Items
import TypeExport.Source.Grammar.Levels

/-!
# More levels read more

A grammar of some levels reads brackets as deep as it has levels (`Grammar.upTo`). With more levels it reads
the same and more (`Extends.upTo`), so an expression is read in the same way whatever the size of what comes after it
(`expression_extends`). The step from a level to the next one puts the rules of this folder together. Only receivers
need an argument of their own (`typedArgument_of_receiver`): a type that fails in one grammar and not in the
other could turn a receiver into another argument.
-/

namespace TypeExport.Source

open Rule

namespace Grammar

/-! ## Receivers and other arguments -/

/-- A receiver up to its type. It is true if it is a reference. -/
def receiverHead : Rule Bool := do
  let isReference ← optionalMark "&"
  if isReference then discard (whenever isLifetime lifetime)
  discard (optionalWord "mut")
  word "self"
  return isReference

theorem receiver_eq (g : Grammar) : g.receiver = (do
    let isReference ← receiverHead
    if !isReference && (← optionalMark ":") then discard (g.type true)) := by
  simp only [receiver, receiverHead, bind_assoc]
  congr! 2 with isReference
  split <;> simp only [bind_assoc, pure_bind]

theorem receiverHead_eq_some_false {ts left : List Token} (h : receiverHead ts = some (false, left)) :
    ts = .word "self" :: left ∨ ts = .word "mut" :: .word "self" :: left := by
  obtain ⟨isReference, left₁, hreference, h⟩ := bind_eq_some_iff.mp h
  cases isReference with
  | true =>
    obtain ⟨_, _, _, h⟩ := bind_eq_some_iff.mp h
    obtain ⟨_, _, _, h⟩ := bind_eq_some_iff.mp h
    obtain ⟨_, _, _, ⟨⟩⟩ := bind_eq_some_iff.mp h
  | false =>
    obtain ⟨hs, -⟩ | ⟨_, ⟨⟩, _⟩ := cases_optionalMark hreference
    cases (optionalMark_of_not hs).symm.trans hreference
    obtain ⟨_, left₁, hmut, h⟩ := bind_eq_some_iff.mp h
    obtain ⟨_, _, hself, ⟨⟩⟩ := bind_eq_some_iff.mp h
    cases word_eq_some_iff.mp hself
    obtain ⟨b, hmut⟩ := discard_eq_some_iff.mp hmut
    cases hw : isWord "mut" ts with
    | false =>
      cases (optionalWord_of_not hw).symm.trans hmut
      exact .inl rfl
    | true =>
      obtain ⟨rest, rfl⟩ := eq_word_of_isWord hw
      cases (optionalWord_word "mut" rest).symm.trans hmut
      exact .inr rfl

theorem typeRule_colon {ts : List Token} {joint : Bool} (h : isMark "::" (.mark ':' joint :: ts) = false)
    (g : Grammar) (allowPlus : Bool) : g.typeRule allowPlus (.mark ':' joint :: ts) = none := by
  change (if (false || isMark "::" (.mark ':' joint :: ts) || isMark "<" (.mark ':' joint :: ts)) = true
    then _ else _ : Rule _) _ = none
  rw [h]
  rfl

theorem typeRule_dots {ts : List Token} (h : isMark "..." ts = true) (g : Grammar) (allowPlus : Bool) :
    g.typeRule allowPlus ts = none := by
  rcases ts with _ | ⟨_ | _ | ⟨c, _ | _⟩ | _ | _, ts⟩
  case cons.mark.true =>
    obtain ⟨hc, -⟩ := Bool.and_eq_true_iff.mp (h : ('.' == c && isMarks ['.', '.'] ts) = true)
    cases beq_iff_eq.mp hc
    rfl
  all_goals cases h

theorem patternRule_self {ts : List Token} {joint : Bool}
    (h : isMark "::" (.mark ':' joint :: ts) = false) (g : Grammar) :
    g.patternRule (.word "self" :: .mark ':' joint :: ts) = some (.other, .mark ':' joint :: ts) := by
  have hs : isPathPatternStart (.word "self" :: .mark ':' joint :: ts) = false :=
    (Bool.or_false _).trans h
  change (if isPathPatternStart (.word "self" :: .mark ':' joint :: ts) = true then _ else _ : Rule _) _ = _
  rw [hs]
  rfl

theorem patternRule_mut_self (g : Grammar) (joint : Bool) (ts : List Token) :
    g.patternRule (.word "mut" :: .word "self" :: .mark ':' joint :: ts) =
      some (.other, .mark ':' joint :: ts) :=
  rfl

/-- A path does not go on with a third colon. -/
theorem patternRule_self_colons (g : Grammar) (j₁ j₂ : Bool) (ts : List Token) :
    g.patternRule (.word "self" :: .mark ':' true :: .mark ':' j₁ :: .mark ':' j₂ :: ts) = none := by
  cases j₁ <;> cases j₂ <;> rfl

theorem typedArgument_of_pattern {g : Grammar} {ts left : List Token} {kind : PatternKind} {joint : Bool}
    (hname : isName ts = false) (hpattern : g.pattern ts = some (kind, .mark ':' joint :: left))
    (hdots : isMark "..." left = false) (htype : g.type true left = none) :
    g.typedArgument ts = none := by
  rw [typedArgument, sees_bind, hname, Bool.false_and, if_neg Bool.false_ne_true]
  rw [bind_of_some (discard_eq_some_iff.mpr ⟨kind, hpattern⟩) (a := ()),
    bind_of_some (mark_mark (by simp) joint left), bind_of_some (optionalMark_of_not hdots)]
  exact bind_of_none (discard_eq_none_iff.mpr htype) _

theorem typedArgument_of_not_pattern {g : Grammar} {ts : List Token}
    (hname : isName ts = false) (hpattern : g.pattern ts = none) : g.typedArgument ts = none := by
  rw [typedArgument, sees_bind, hname, Bool.false_and, if_neg Bool.false_ne_true]
  exact bind_of_none (discard_eq_none_iff.mpr hpattern) _

/-- Before the colon of a receiver stands `self`, which is a pattern too, but what is no type for the
receiver is none for another argument. -/
theorem typedArgument_next (g : Grammar) {ts left : List Token} {joint : Bool}
    (hts : ts = .word "self" :: .mark ':' joint :: left ∨
      ts = .word "mut" :: .word "self" :: .mark ':' joint :: left)
    (htype : g.typeRule true left = none) {g' : Grammar} (htype' : g'.typeRule true left ≠ none) :
    g.next.typedArgument ts = none := by
  have hdots : isMark "..." left = false :=
    Bool.eq_false_iff.mpr fun h => htype' (typeRule_dots h g' true)
  obtain rfl | rfl := hts
  · cases hcolons : isMark "::" (.mark ':' joint :: left) with
    | false =>
      exact typedArgument_of_pattern rfl (patternRule_self hcolons g) hdots htype
    | true =>
      -- The type begins with a colon, so it begins with two of them.
      obtain ⟨_, _, heq⟩ := eq_of_isMark_doubleColon hcolons
      cases heq
      obtain ⟨_, _, heq⟩ := eq_of_isMark_doubleColon
        (Bool.eq_true_of_not_eq_false fun h => htype' (typeRule_colon h g' true))
      cases heq
      exact typedArgument_of_not_pattern rfl (patternRule_self_colons g _ _ _)
  · exact typedArgument_of_pattern rfl (patternRule_mut_self g joint left) hdots htype

/-- Only the type of a receiver depends on the grammar. -/
theorem typedArgument_of_receiver {g g' : Grammar} {ts : List Token} (hg : g.next.receiver ts = none)
    (hg' : g'.next.receiver ts ≠ none) : g.next.typedArgument ts = none := by
  obtain ⟨⟨u, rest⟩, hread⟩ := Option.ne_none_iff_exists'.mp hg'
  rw [receiver_eq] at hg hread
  obtain ⟨isReference, left, hhead, hrest⟩ := bind_eq_some_iff.mp hread
  rw [bind_of_some hhead] at hg
  obtain ⟨hasType, left', hcolon, htype⟩ := bind_eq_some_iff.mp hrest
  rw [bind_of_some hcolon] at hg
  cases isReference with
  | true => cases hg
  | false =>
    obtain ⟨_, rfl⟩ | ⟨_, rfl, hmark⟩ := cases_optionalMark hcolon
    · cases hg
    · obtain ⟨joint, rfl⟩ := (mark_eq_some_iff (c := ':') (by simp)).mp hmark
      have htype' : g'.typeRule true left' ≠ none := fun htype' => by
        cases (discard_eq_none_iff.mpr htype').symm.trans htype
      exact typedArgument_next g (receiverHead_eq_some_false hhead) (discard_eq_none_iff.mp hg) htype'

namespace Extends

variable {g g' : Grammar}

theorem empty (g : Grammar) : Grammar.empty.Extends g where
  type _ := .fail _
  bound := .fail _
  bound_nil := rfl
  unary _ := .fail _
  operators _ _ _ := .fail _
  pattern := .fail _
  statementExpr := .fail _
  statements := .fail _
  item := .fail _
  fields := .fail _
  useTree _ := .fail _
  typedArgument_eq_none := by
    intro ts _ _
    rw [Grammar.typedArgument, sees_bind]
    split <;> rfl

theorem next (h : g.Extends g') : g.next.Extends g'.next where
  type b := h.typeRule b
  bound := h.boundRule
  bound_nil := boundRule_nil g
  unary b := h.unaryRule b
  operators b n e := h.operatorsRule b n e
  pattern := h.patternRule
  statementExpr := h.statementExprRule
  statements := h.statementsRule
  item := h.itemRule
  fields := h.fieldsRule
  useTree b := h.useTreeRule b
  typedArgument_eq_none := typedArgument_of_receiver

theorem upTo {n m : Nat} (h : n ≤ m) : (Grammar.upTo n).Extends (Grammar.upTo m) := by
  induction n generalizing m with
  | zero => exact .empty _
  | succ n ih =>
    obtain ⟨m, rfl⟩ := Nat.exists_eq_add_one_of_ne_zero (Nat.ne_zero_of_lt h)
    exact (ih (Nat.le_of_succ_le_succ h)).next

end Extends

end Grammar

theorem Token.totalSize_append (ts us : List Token) :
    Token.totalSize (ts ++ us) = Token.totalSize ts + Token.totalSize us := by
  induction ts with
  | nil => simp [Token.totalSize]
  | cons t ts ih => simp only [List.cons_append, Token.totalSize, ih, Nat.add_assoc]

/-- An expression is read in the same way with a boundary after the tokens. -/
theorem expression_extends {tail : List Token} [Boundary tail] :
    Rule.Extends tail expression expression := by
  intro ts e rest h
  have hle : 4 * Token.totalSize ts + 8 ≤ 4 * Token.totalSize (ts ++ tail) + 8 := by
    rw [Token.totalSize_append]
    omega
  exact (Grammar.Extends.upTo hle).expr ts e rest h

end TypeExport.Source
