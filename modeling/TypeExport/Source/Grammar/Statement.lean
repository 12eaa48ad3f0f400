import TypeExport.Source.Grammar.Basic

/-!
# Statements

The statements of a block (`Grammar.statementsRule`).
-/

namespace TypeExport.Source.Grammar

open Rule

variable (g : Grammar)

/-- A declaration of a local name. A block for the case that a pattern does not fit must not follow a
value that ends with a block. -/
def letStatement : Rule Unit := do
  word "let"
  discard g.pattern
  if ← optionalMark ":" then discard (g.type true)
  if ← optionalMark "=" then
    let hasBlock ← endsWith .brace g.expr
    if !hasBlock && (← optionalWord "else") then g.block
  mark ";"

/-- The tokens that are left begin with an item. -/
def isItem (ts : List Token) : Bool :=
  isAny [isWord "pub", isWord "extern", isWord "use", isWord "fn", isWord "mod", isWord "type",
    isWord "struct", isWord "enum", isWord "trait", isWord "impl", isWord "macro"] ts ||
  isWord "crate" ts && !second (isMark "::") ts ||
  isWord "static" ts && second (isAny [isWord "mut", isName]) ts ||
  isWord "const" ts &&
    !(second (isAny [isGroup .brace, isWord "static", isWord "move", isMark "|"]) ts ||
      second (isWord "async") ts &&
        !third (isAny [isWord "unsafe", isWord "extern", isWord "fn"]) ts) ||
  isWord "unsafe" ts && !second (isGroup .brace) ts ||
  isWord "async" ts && second (isAny [isWord "unsafe", isWord "extern", isWord "fn"]) ts ||
  isWord "union" ts && second isName ts ||
  isWord "auto" ts && second (isWord "trait") ts ||
  isWord "default" ts && second (isAny [isWord "unsafe", isWord "impl"]) ts

/-- The tokens after a path without arguments have the property. -/
def isAfterPath (p : List Token → Bool) (ts : List Token) : Bool :=
  match plainPath ts with
  | some (_, rest) => p rest
  | none => false

/-- A macro call that declares a name. -/
def isMacroItem (ts : List Token) : Bool :=
  isMark "!" ts && second (isAny [isName, isWord "try"]) ts

/-- A macro call with braces that is a statement of its own. -/
def isMacroStatement (ts : List Token) : Bool :=
  isMark "!" ts && second (isGroup .brace) ts &&
    !(third (isMark ".") ts && !third (isMark "..") ts || third (isMark "?") ts)

/-- A statement. It is true if a semicolon has to stand between it and another one. -/
def statement : Rule Bool := do
  discard g.attributes
  let ts ← get
  if isAfterPath isMacroStatement ts then
    discard plainPath
    mark "!"
    discard anyGroup
    discard (optionalMark ";")
    return false
  if isWord "let" ts then
    g.letStatement
    return false
  if isItem ts || isAfterPath isMacroItem ts then
    discard g.item
    return false
  let e ← g.statementExpr
  return !(← optionalMark ";") && e.needsSemicolon

/-- The statements of a block. -/
def statementsRule : Rule Unit := discard <| many do
  discard (manyWhile (isMark ";") (mark ";"))
  if ← sees isEnd then return
  if (← g.statement) && !(← sees isEnd) then fail

end TypeExport.Source.Grammar
