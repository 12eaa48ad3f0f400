import TypeExport.Source.Grammar.Control
import TypeExport.Source.Grammar.Operator

/-!
# Operands

The operands of expressions: literals, paths, calls, fields, function values, jumps and what stands in
brackets (`Grammar.unaryRule`). An expression in the place of a statement ends with its block if it
begins with a construct that has one (`Grammar.statementExprRule`).
-/

namespace TypeExport.Source.Grammar

open Rule

variable (g : Grammar)

/-! ## After an operand -/

/-- A text is the number of a field. -/
def isFieldNumber (s : String) : Bool :=
  let digits := s.toList.filter Char.isDigit
  s.toList.head?.any Char.isDigit && s.toList.all (fun c => c.isDigit || c == '_') &&
    (Nat.ofDigitChars 10 digits 0) < UInt32.size

/-- What follows the dot after an operand. Two numbers of fields with a dot between them look like one
number. -/
def fieldAccess : Rule Unit := do
  if let .literal (.float text) :: ts ← get then
    let parts := text.splitOn "."
    let isOpen := parts.getLast? == some ""
    if !(if isOpen then parts.dropLast else parts).all isFieldNumber then fail
    set ts
    if !isOpen then return
  if ← optionalWord "await" then return
  if (← member) && (← sees (isMark "::")) then
    discard g.arguments
    if !(← sees (isGroup .paren)) then fail

/-- Something that goes on with an operand, if there is something. -/
def trailer (e : Expr) : Rule (Option Expr) := do
  let ts ← get
  if isGroup .paren ts then
    discard (group .paren (commaList g.expr))
    return some .other
  if isGroup .bracket ts then
    discard (group .bracket g.expr)
    return some .other
  if e = .range then return none
  if isMark "." ts && !isMark ".." ts then
    mark "."
    g.fieldAccess
    return some .other
  if ← optionalMark "?" then return some .other
  return none

/-- All that goes on with an operand. -/
def trailers (e : Expr) : Rule Expr := iterate g.trailer e

/-! ## Paths and structures -/

/-- The fields of a structure expression. Two dots may stand for the rest of them. -/
def fieldValues : Rule Unit := discard <| group .brace <| commaList do
  if ← optionalMark ".." then
    if !(← sees isEnd) then discard g.expr
    if !(← sees isEnd) then fail
  else
    discard g.attributes
    if !(← member) || (← sees (isMark ":")) then
      mark ":"
      discard g.expr

/-- An expression that begins with a path. -/
def pathExpr (allowStruct : Bool) : Rule Expr := do
  let p ← g.typedPath true
  let ts ← get
  if isMark "!" ts && !isMark "!=" ts && p.isPlain then
    mark "!"
    return .macroCall (← anyGroup).1
  if allowStruct && isGroup .brace ts then g.fieldValues
  return .other

/-! ## Brackets -/

/-- An expression in parentheses, or a tuple. -/
def parenthesized : Rule Expr := group .paren do
  if ← sees isEnd then return .other
  let e ← g.expr
  if ← sees isEnd then return .parens e
  mark ","
  discard (commaList g.expr)
  return .other

/-- An array, given by its elements or by one of them and their number. -/
def bracketed : Rule Unit := group .bracket do
  if ← sees isEnd then return
  discard g.expr
  if ← optionalMark ";" then discard g.expr
  else if !(← sees isEnd) then
    mark ","
    discard (commaList g.expr)

/-! ## Function values -/

/-- An argument of a function value. -/
def closureArgument : Rule Unit := do
  discard g.attributes
  discard g.pattern
  if ← optionalMark ":" then discard (g.type true)

/-- A function value. -/
def closure (allowStruct : Bool) : Rule Unit := do
  discard g.boundParameters
  for w in ["const", "static", "async", "move"] do discard (optionalWord w)
  mark "|"
  discard (separated (isMark "|") (mark ",") g.closureArgument)
  mark "|"
  if ← optionalMark "->" then
    discard (g.type true)
    g.block
  else discard (g.exprWith allowStruct)

def isClosure (ts : List Token) : Bool :=
  isAny [isMark "|", isWord "move", isWord "static", isForParameters] ts ||
    isWord "const" ts && !second (isGroup .brace) ts ||
    isWord "async" ts && second (isAny [isMark "|", isWord "move"]) ts

/-! ## Jumps -/

/-- The tokens that are left may be an expression. -/
def isExprStart (ts : List Token) : Bool :=
  isAny [isAnyWord, isAnyGroup, isLiteral, isMark "..", isMark "::", isLifetime, isMark "#"] ts ||
    isMark "!" ts && !isMark "!=" ts ||
    isMark "-" ts && !isMark "-=" ts && !isMark "->" ts ||
    isMark "*" ts && !isMark "*=" ts ||
    isMark "|" ts && !isMark "|=" ts ||
    isMark "&" ts && !isMark "&=" ts ||
    isMark "<" ts && !isMark "<=" ts && !isMark "<<=" ts

/-- A jump out of a loop, perhaps with a value. A construct with a label is no value for one. -/
def breakExpr (allowStruct : Bool) : Rule Unit := do
  word "break"
  if ← sees (fun ts => isLifetime ts && second (isMark ":") ts) then fail
  discard (whenever isLifetime lifetime)
  let ts ← get
  if isExprStart ts && (allowStruct || !isGroup .brace ts) then discard g.expr

/-! ## Operands -/

def isAsyncBlock (ts : List Token) : Bool :=
  isWord "async" ts &&
    (second (isGroup .brace) ts || second (isWord "move") ts && third (isGroup .brace) ts)

def isPathExpr (ts : List Token) : Bool :=
  isPathWord ts || isMark "::" ts || isMark "<" ts ||
    isWord "try" ts && second (isAny [isMark "!", isMark "::"]) ts

/-- A condition that binds names. -/
def letExpr (allowStruct : Bool) : Rule Unit := do
  word "let"
  discard g.alternatives
  mark "="
  let e ← g.unary allowStruct
  discard (g.operators allowStruct Precedence.comparison e)

/-- An operand that begins with a keyword and has no block of its own. -/
def keywordExpr (allowStruct : Bool) : Rule Unit := do
  let ts ← get
  if isWord "break" ts then g.breakExpr allowStruct
  else if isWord "continue" ts then
    word "continue"
    discard (whenever isLifetime lifetime)
  else if isAny [isWord "return", isWord "yield"] ts then
    discard anyWord
    if ← sees isExprStart then discard g.expr
  else if isWord "become" ts then
    word "become"
    discard g.expr
  else if isWord "let" ts then g.letExpr allowStruct
  else word "_"

/-- A call of something that the compiler provides. -/
def builtin : Rule Unit := do
  word "builtin"
  mark "#"
  discard name
  group .paren anything

/-- An operand without operators and without what goes on with it. -/
def operand (allowStruct : Bool) : Rule Expr := do
  let ts ← get
  if isLiteral ts then return .literal (← literal)
  if isAsyncBlock ts then
    word "async"
    discard (optionalWord "move")
    g.block
    return .other
  if isControl ts then
    g.control
    return .block
  if isClosure ts then
    g.closure allowStruct
    return .other
  if isWord "builtin" ts && second (isMark "#") ts then
    builtin
    return .other
  if isPathExpr ts then return ← g.pathExpr allowStruct
  if isGroup .paren ts then return ← g.parenthesized
  if isGroup .bracket ts then
    g.bracketed
    return .other
  if isMark ".." ts then
    g.rangeRest allowStruct
    return .range
  g.keywordExpr allowStruct
  return .other

/-- The words after the ampersand of a reference. -/
def referenceKind : Rule Unit := do
  if ← sees (fun ts => isWord "raw" ts && second (isAny [isWord "mut", isWord "const"]) ts) then
    discard anyWord
    discard anyWord
  else discard (optionalWord "mut")

/-- An operand with the operators before it. -/
def unaryRule (allowStruct : Bool) : Rule Expr := do
  let attributes ← g.attributes
  if ← optionalMark "&" then
    referenceKind
    discard (g.unary allowStruct)
    return .other
  if ← optionalMark "-" then return .negative (← g.unary allowStruct)
  if ← sees (isAny [isMark "*", isMark "!"]) then
    if !(← optionalMark "*") then mark "!"
    discard (g.unary allowStruct)
    return .other
  let e ← g.trailers (← g.operand allowStruct)
  if e = .range && !attributes.isEmpty then fail
  return e

/-- An expression in the place of a statement. -/
def statementExprRule : Rule Expr := do
  discard g.attributes
  if ← sees (fun ts => !isControl ts) then return ← g.expr
  g.control
  if ← sees (fun ts => isMark "." ts && !isMark ".." ts || isMark "?" ts) then
    return ← g.operators true 0 (← g.trailers .block)
  return .block

end TypeExport.Source.Grammar
