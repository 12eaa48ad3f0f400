import TypeExport.Source.Grammar.Pattern

/-!
# Constructs with blocks

Conditions, loops, matches and other expressions that end with a block (`Grammar.control`).
-/

namespace TypeExport.Source.Grammar

open Rule

variable (g : Grammar)

/-- Conditions with their blocks, and perhaps a block for all other cases. -/
def condition : Rule Unit := iterate (fun () => do
  word "if"
  discard (g.exprWith false)
  g.block
  if !(← optionalWord "else") then return none
  if ← sees (isWord "if") then return some ()
  g.block
  return none) ()

def forLoop : Rule Unit := do
  word "for"
  discard g.alternatives
  word "in"
  discard (g.exprWith false)
  g.body

/-- A case of a match. -/
def arm : Rule Unit := do
  discard g.attributes
  discard g.alternatives
  if ← optionalWord "if" then discard g.expr
  mark "=>"
  let e ← g.statementExpr
  if e.needsComma && !(← sees isEnd) then mark ","
  else discard (optionalMark ",")

def matchExpr : Rule Unit := do
  word "match"
  discard (g.exprWith false)
  group .brace do
    discard g.innerAttributes
    discard (many g.arm)

/-- A construct that ends with a block, without a label. -/
def unlabelled : Rule Unit := do
  let ts ← get
  if isWord "if" ts then g.condition
  else if isWord "match" ts then g.matchExpr
  else if isWord "for" ts then g.forLoop
  else if isWord "while" ts then
    word "while"
    discard (g.exprWith false)
    g.body
  else if isWord "try" ts then
    word "try"
    g.block
  else
    if isAny [isWord "loop", isWord "unsafe", isWord "const"] ts then discard anyWord
    g.body

/-- A construct that ends with a block. -/
def control : Rule Unit := do
  if ← sees isLifetime then
    discard lifetime
    mark ":"
    if !(← sees (isAny [isWord "while", isWord "for", isWord "loop", isGroup .brace])) then fail
  g.unlabelled

/-- The tokens that are left begin with the parameters of a function value, and not with a loop. -/
def isForParameters (ts : List Token) : Bool :=
  isWord "for" ts && second (isMark "<") ts && third (isAny [isLifetime, isMark ">"]) ts

/-- The tokens that are left begin with a construct that ends with a block. -/
def isControl (ts : List Token) : Bool :=
  isAny [isWord "if", isWord "match", isWord "while", isWord "loop", isWord "unsafe", isGroup .brace,
    isLifetime] ts ||
  isWord "for" ts && !isForParameters ts ||
  isAny [isWord "try", isWord "const"] ts && second (isGroup .brace) ts

end TypeExport.Source.Grammar
