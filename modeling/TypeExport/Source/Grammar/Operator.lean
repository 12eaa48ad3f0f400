import TypeExport.Source.Grammar.Pattern

/-!
# Operators

The operators between operands, with their precedences (`Grammar.operatorsRule`).
-/

namespace TypeExport.Source

/-! ## Precedences -/

namespace Precedence

def assignment : Nat := 1
def range : Nat := 2
def comparison : Nat := 6
def cast : Nat := 13

end Precedence

/-- The operators with two operands and how tightly they bind. Of two of which one begins with the other,
the longer comes first. -/
def operators : List (String × Nat) :=
  ["+=", "-=", "*=", "/=", "%=", "^=", "&=", "|=", "<<=", ">>="].map (·, Precedence.assignment) ++
  [("&&", 4), ("||", 3), ("<<", 10), (">>", 10)] ++
  ["==", "<=", "!=", ">="].map (·, Precedence.comparison) ++
  [("+", 11), ("-", 11), ("*", 12), ("/", 12), ("%", 12), ("^", 8), ("&", 9), ("|", 7)] ++
  ["<", ">"].map (·, Precedence.comparison)

/-- The operator at the beginning. -/
def operator? (ts : List Token) : Option (String × Nat) := operators.find? fun o => Rule.isMark o.1 ts

namespace Grammar

open Rule

variable (g : Grammar)

/-- An equals sign that assigns something. -/
def isAssignment (ts : List Token) : Bool := isMark "=" ts && !isMark "=>" ts

/-- The precedence of what comes next, zero if it is no operator. -/
def nextPrecedence (ts : List Token) : Nat :=
  match operator? ts with
  | some o => o.2
  | none =>
    if isAssignment ts then Precedence.assignment
    else if isMark ".." ts then Precedence.range
    else if isWord "as" ts then Precedence.cast
    else 0

/-! ## Operands on the right -/

/-- The operand of an operator, with all that binds more tightly. Assignments are grouped from the
right. -/
def rightOperand (allowStruct : Bool) (precedence : Nat) : Rule Unit := do
  let e ← g.unary allowStruct
  discard <| iterate (fun e => do
    let ts ← get
    let next := nextPrecedence ts
    if precedence < next || next = precedence && precedence = Precedence.assignment then
      let e ← g.operators allowStruct next e
      if (← get).length = ts.length then return none
      return some e
    return none) e

/-- The tokens that are left cannot be the end of a range. -/
def isRangeOpen (allowStruct : Bool) (ts : List Token) : Bool :=
  isAny [isEnd, isMark ",", isMark ";", isMark "?", isMark "=>", isMark "=", isMark "+", isMark "/",
    isMark "%", isMark "^", isMark ">", isMark "<=", isMark "!=", isMark "-=", isMark "*=", isMark "&=",
    isMark "|=", isMark "<<=", isWord "as"] ts ||
  isMark "." ts && !isMark ".." ts || !allowStruct && isGroup .brace ts

/-- The dots of a range and its end. -/
def rangeRest (allowStruct : Bool) : Rule Unit := do
  let isClosed ← rangeDots false
  if isClosed || !(← sees (isRangeOpen allowStruct)) then g.rightOperand allowStruct Precedence.range

/-- The tokens that are left would go on with an operand. That is not possible after a cast. -/
def isTrailer (ts : List Token) : Bool :=
  isMark "." ts && !isMark ".." ts || isAny [isMark "?", isGroup .bracket, isGroup .paren] ts

/-! ## Operators -/

/-- An operator with two operands of which the first has been read. -/
def operation (allowStruct : Bool) (base : Nat) (e : Expr) (op : String) (precedence : Nat) :
    Rule (Option Expr) := do
  if precedence < base then return none
  if precedence = Precedence.comparison && e = .comparison then fail
  mark op
  g.rightOperand allowStruct precedence
  return some (if precedence = Precedence.comparison then .comparison else .other)

/-- One operator that binds as tightly as the number says, if one comes. Nothing goes on after a range,
and comparisons are not grouped. -/
def operatorStep (allowStruct : Bool) (base : Nat) (e : Expr) : Rule (Option Expr) := do
  if e = .range then return none
  let ts ← get
  if let some (op, precedence) := operator? ts then
    return ← g.operation allowStruct base e op precedence
  if base ≤ Precedence.assignment && isAssignment ts then
    mark "="
    g.rightOperand allowStruct Precedence.assignment
    return some .other
  if base ≤ Precedence.range && isMark ".." ts then
    g.rangeRest allowStruct
    return some .range
  if base ≤ Precedence.cast && isWord "as" ts then
    word "as"
    discard (g.type false)
    if ← sees isTrailer then fail
    return some .other
  return none

/-- The operators after an operand. -/
def operatorsRule (allowStruct : Bool) (base : Nat) (e : Expr) : Rule Expr :=
  iterate (g.operatorStep allowStruct base) e

end Grammar

end TypeExport.Source
