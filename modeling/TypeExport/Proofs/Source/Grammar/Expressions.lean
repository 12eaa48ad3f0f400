import Mathlib.Data.List.Find
import TypeExport.Proofs.Source.Grammar.Types
import TypeExport.Proofs.Source.Grammar.Patterns
import TypeExport.Source.Grammar.Operand

/-!
# Expressions before a boundary

No operator begins with a comma, so at a boundary there is none (`Extends.operator?_append`). Most rules
look only at what comes next, and `gcongr` with the lemmas for that is the whole proof. Two rules look at more:
`Extends.rightOperand` at how many tokens are left, and `Extends.fieldAccess` at the digits in a token.
-/

namespace TypeExport.Source.Grammar

open Rule

namespace Extends

variable {g g' : Grammar} {tail : List Token} [Boundary tail]

/-! ## Constructs with blocks -/

@[gcongr] theorem condition (h : g.Extends g') : Rule.Extends tail g.condition g'.condition := by
  simp only [Grammar.condition]
  gcongr <;> simp

@[gcongr] theorem forLoop (h : g.Extends g') : Rule.Extends tail g.forLoop g'.forLoop := by
  unfold Grammar.forLoop
  gcongr
  all_goals simp

@[gcongr] theorem arm (h : g.Extends g') : Rule.Extends [] g.arm g'.arm := by
  simp only [Grammar.arm]
  gcongr

@[gcongr] theorem matchExpr (h : g.Extends g') : Rule.Extends tail g.matchExpr g'.matchExpr := by
  simp only [Grammar.matchExpr]
  gcongr
  simp

@[gcongr] theorem unlabelled (h : g.Extends g') : Rule.Extends tail g.unlabelled g'.unlabelled := by
  simp only [Grammar.unlabelled]
  gcongr <;> simp [isAny]

@[gcongr] theorem control (h : g.Extends g') : Rule.Extends tail g.control g'.control := by
  simp only [Grammar.control]
  gcongr <;> simp [isAny]

@[simp] theorem isForParameters_append (ts : List Token) :
    isForParameters (ts ++ tail) = isForParameters ts := by
  rw [isForParameters, isForParameters, isWord_append]
  cases ts with
  | nil => rfl
  | cons t ts => simp [isAny, Bool.and_assoc]

@[simp] theorem isControl_append (ts : List Token) : isControl (ts ++ tail) = isControl ts := by
  have h : (isAny [isWord "try", isWord "const"] ts && second (isGroup .brace) (ts ++ tail)) =
      (isAny [isWord "try", isWord "const"] ts && second (isGroup .brace) ts) := by
    cases ts with
    | nil => rfl
    | cons t ts => simp [isAny]
  simp_all [isControl, isAny]

/-! ## Operators -/

theorem operator?_append (ts : List Token) : operator? (ts ++ tail) = operator? ts := by
  have hc : ∀ o ∈ TypeExport.Source.operators, ',' ∉ o.1.toList := by decide
  exact List.find?_congr fun o ho => isMark_append (hc o ho) ts

@[simp] theorem nextPrecedence_append (ts : List Token) :
    nextPrecedence (ts ++ tail) = nextPrecedence ts := by
  simp [nextPrecedence, operator?_append, isAssignment]

@[gcongr] theorem rightOperand (h : g.Extends g') (allowStruct : Bool) (precedence : Nat) :
    Rule.Extends tail (g.rightOperand allowStruct precedence) (g'.rightOperand allowStruct precedence) := by
  unfold Grammar.rightOperand
  refine .bind (h.unary _) fun e => .discard (.iterate (fun e => ?_) e)
  intro ts e? rest hr
  rw [Rule.get_bind] at hr ⊢
  simp only [nextPrecedence_append] at hr ⊢
  split at hr
  next hnext =>
    rw [if_pos hnext]
    obtain ⟨e', left, he, hr⟩ := bind_eq_some_iff.mp hr
    refine bind_eq_some_iff.mpr ⟨e', _, h.operators _ _ _ _ _ _ he, ?_⟩
    rw [Rule.get_bind] at hr ⊢
    simp only [List.length_append, Nat.add_right_cancel_iff] at hr ⊢
    refine (?_ : Rule.Extends tail _ _) _ _ _ hr
    gcongr <;> simp
  next hnext =>
    rw [if_neg hnext]
    exact Rule.Extends.pure none _ _ _ hr

@[simp] theorem isRangeOpen_append (allowStruct : Bool) (ts : List Token) :
    isRangeOpen allowStruct (ts ++ tail) = isRangeOpen allowStruct ts := by
  simp [isRangeOpen, isAny]

@[gcongr] theorem rangeRest (h : g.Extends g') (allowStruct : Bool) :
    Rule.Extends tail (g.rangeRest allowStruct) (g'.rangeRest allowStruct) := by
  simp only [Grammar.rangeRest]
  gcongr <;> simp

@[simp] theorem isTrailer_append (ts : List Token) : isTrailer (ts ++ tail) = isTrailer ts := by
  simp [isTrailer, isAny]

@[gcongr] theorem operation (h : g.Extends g') (allowStruct : Bool) (base : Nat) (e : Expr) (op : String)
    (precedence : Nat) : Rule.Extends tail (g.operation allowStruct base e op precedence)
      (g'.operation allowStruct base e op precedence) := by
  simp only [Grammar.operation]
  gcongr <;> simp

@[gcongr] theorem operatorStep (h : g.Extends g') (allowStruct : Bool) (base : Nat) (e : Expr) :
    Rule.Extends tail (g.operatorStep allowStruct base e) (g'.operatorStep allowStruct base e) := by
  simp only [Grammar.operatorStep]
  gcongr
  case ht => simp [operator?_append, isAssignment]
  case hk => split <;> gcongr <;> simp
  simp

@[gcongr] theorem operatorsRule (h : g.Extends g') (allowStruct : Bool) (base : Nat) (e : Expr) :
    Rule.Extends tail (g.operatorsRule allowStruct base e) (g'.operatorsRule allowStruct base e) := by
  unfold Grammar.operatorsRule
  gcongr

/-! ## After an operand -/

@[gcongr] theorem fieldAccess (h : g.Extends g') : Rule.Extends tail g.fieldAccess g'.fieldAccess := by
  intro ts u rest hr
  simp only [Grammar.fieldAccess] at hr ⊢
  rw [Rule.get_bind] at hr ⊢
  split at hr
  next text ts =>
    -- Numbers of fields: a dot at their end goes on with the tokens after them.
    simp only [List.cons_append]
    generalize ((text.splitOn ".").getLast? == some "") = isOpen at hr ⊢
    generalize (if isOpen = true then (text.splitOn ".").dropLast else text.splitOn ".") = numbers at hr ⊢
    split at hr
    · obtain ⟨_, _, ⟨⟩, _⟩ := bind_eq_some_iff.mp hr
    next hnumbers =>
      rw [if_neg hnumbers]
      rw [set_bind] at hr ⊢
      refine (?_ : Rule.Extends tail _ _) _ _ _ hr
      gcongr <;> simp
  next hne =>
    rcases ts with _ | ⟨_ | _ | _ | ⟨_ | _ | _ | _⟩ | _, ts⟩
    case nil => exact nomatch (hr : none = some (u, rest))
    case cons.literal.float => exact (hne _ _ rfl).elim
    all_goals
      simp only [List.cons_append]
      refine (?_ : Rule.Extends tail _ _) _ _ _ hr
      gcongr <;> simp

@[gcongr] theorem trailer (h : g.Extends g') (e : Expr) :
    Rule.Extends tail (g.trailer e) (g'.trailer e) := by
  simp only [Grammar.trailer]
  gcongr <;> simp

@[gcongr] theorem trailers (h : g.Extends g') (e : Expr) :
    Rule.Extends tail (g.trailers e) (g'.trailers e) := by
  unfold Grammar.trailers
  gcongr

/-! ## Paths, structures and brackets -/

@[gcongr] theorem fieldValues {tail : List Token} (h : g.Extends g') :
    Rule.Extends tail g.fieldValues g'.fieldValues := by
  simp only [Grammar.fieldValues]
  gcongr

@[gcongr] theorem pathExpr (h : g.Extends g') (allowStruct : Bool) :
    Rule.Extends tail (g.pathExpr allowStruct) (g'.pathExpr allowStruct) := by
  simp only [Grammar.pathExpr]
  gcongr <;> simp

@[gcongr] theorem parenthesized {tail : List Token} (h : g.Extends g') :
    Rule.Extends tail g.parenthesized g'.parenthesized := by
  simp only [Grammar.parenthesized]
  gcongr

@[gcongr] theorem bracketed {tail : List Token} (h : g.Extends g') :
    Rule.Extends tail g.bracketed g'.bracketed := by
  simp only [Grammar.bracketed]
  gcongr

/-! ## Function values -/

@[gcongr] theorem closureArgument (h : g.Extends g') :
    Rule.Extends tail g.closureArgument g'.closureArgument := by
  unfold Grammar.closureArgument
  gcongr <;> simp

@[gcongr] theorem closure (h : g.Extends g') (allowStruct : Bool) :
    Rule.Extends tail (g.closure allowStruct) (g'.closure allowStruct) := by
  simp only [Grammar.closure]
  gcongr <;> simp

@[simp] theorem isClosure_append (ts : List Token) : isClosure (ts ++ tail) = isClosure ts := by
  simp [isClosure, isAny]

/-! ## Jumps -/

@[simp] theorem isExprStart_append (ts : List Token) : isExprStart (ts ++ tail) = isExprStart ts := by
  simp [isExprStart, isAny]

@[gcongr] theorem breakExpr (h : g.Extends g') (allowStruct : Bool) :
    Rule.Extends tail (g.breakExpr allowStruct) (g'.breakExpr allowStruct) := by
  simp only [Grammar.breakExpr]
  have hlabel : Rule.Extends tail (sees fun ts => isLifetime ts && second (isMark ":") ts)
      (sees fun ts => isLifetime ts && second (isMark ":") ts) := .sees fun ts => by simp
  gcongr <;> simp

/-! ## Operands -/

@[simp] theorem isAsyncBlock_append (ts : List Token) :
    isAsyncBlock (ts ++ tail) = isAsyncBlock ts := by
  rw [isAsyncBlock, isAsyncBlock, isWord_append]
  cases ts with
  | nil => rfl
  | cons t ts => simp

@[simp] theorem isPathExpr_append (ts : List Token) : isPathExpr (ts ++ tail) = isPathExpr ts := by
  simp [isPathExpr, isAny]

@[gcongr] theorem letExpr (h : g.Extends g') (allowStruct : Bool) :
    Rule.Extends tail (g.letExpr allowStruct) (g'.letExpr allowStruct) := by
  unfold Grammar.letExpr
  gcongr <;> simp

@[gcongr] theorem keywordExpr (h : g.Extends g') (allowStruct : Bool) :
    Rule.Extends tail (g.keywordExpr allowStruct) (g'.keywordExpr allowStruct) := by
  simp only [Grammar.keywordExpr]
  gcongr <;> simp [isAny]

@[simp] theorem builtin {tail : List Token} : Rule.Extends tail builtin builtin := by
  unfold Grammar.builtin
  gcongr <;> simp

@[gcongr] theorem operand (h : g.Extends g') (allowStruct : Bool) :
    Rule.Extends tail (g.operand allowStruct) (g'.operand allowStruct) := by
  simp only [Grammar.operand]
  gcongr <;> simp

@[simp] theorem referenceKind : Rule.Extends tail referenceKind referenceKind := by
  simp only [Grammar.referenceKind]
  gcongr <;> simp [isAny]

@[gcongr] theorem unaryRule (h : g.Extends g') (allowStruct : Bool) :
    Rule.Extends tail (g.unaryRule allowStruct) (g'.unaryRule allowStruct) := by
  simp only [Grammar.unaryRule]
  gcongr <;> simp [isAny]

@[gcongr] theorem statementExprRule (h : g.Extends g') :
    Rule.Extends [] g.statementExprRule g'.statementExprRule := by
  simp only [Grammar.statementExprRule]
  gcongr

end Extends

end TypeExport.Source.Grammar
