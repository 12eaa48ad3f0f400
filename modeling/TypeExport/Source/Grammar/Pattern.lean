import TypeExport.Source.Grammar.Path

/-!
# Patterns

The rule for patterns (`Grammar.patternRule`), and patterns with alternatives.
-/

namespace TypeExport.Source.Grammar

open Rule

variable (g : Grammar)

/-- Patterns with bars between them, and perhaps one before the first. -/
def alternatives : Rule PatternKind := do
  let hasBar ← optionalMark "|"
  let kind ← g.pattern
  let more ← manyWhile (fun ts => isMark "|" ts && !isMark "||" ts && !isMark "|=" ts) do
    mark "|"
    g.pattern
  return if hasBar || !more.isEmpty then .other else kind

/-- The name or the number of a field. It is true if it is a name. -/
def member : Rule Bool := do
  match ← get with
  | .literal (.integer n "") :: ts =>
    if n < UInt32.size then
      set ts
      return false
    fail
  | _ =>
    discard name
    return true

/-- A block that gives a value at compile time. -/
def constBlock : Rule Unit := do
  word "const"
  g.body

/-! ## Ranges -/

/-- The dots of a range. It is true if the range has to have an end. -/
def rangeDots (allowThree : Bool) : Rule Bool := do
  if ← optionalMark "..=" then return true
  if ← sees (isMark "...") then
    if !allowThree then fail
    mark "..."
    return true
  mark ".."
  return false

def isRangeEnd (ts : List Token) : Bool :=
  isAny [isEnd, isMark "|", isMark "=", isMark ",", isMark ";", isWord "if"] ts ||
    isMark ":" ts && !isMark "::" ts

/-- An end of a range pattern, if there is one. -/
def rangeBound : Rule Bool := do
  let ts ← get
  if isRangeEnd ts then return false
  if isLiteral ts then discard literal
  else if isWord "const" ts then g.constBlock
  else if isPathWord ts || isMark "::" ts || isMark "<" ts then discard (g.typedPath true)
  else fail
  return true

/-- The rest of a range pattern after its beginning. -/
def rangePattern : Rule PatternKind := do
  let isClosed ← rangeDots true
  if ← g.rangeBound then return .other
  if isClosed then fail
  return .openRange

/-- A range pattern without a beginning. Two dots alone stand for any parts. -/
def endPattern : Rule PatternKind := do
  let isClosed ← rangeDots false
  if ← g.rangeBound then return .openRange
  if isClosed then fail
  return .other

/-! ## Parts of structures -/

/-- A field of a structure pattern. -/
def fieldPattern : Rule Unit := do
  let isBoxed ← optionalWord "box"
  let isReference ← optionalWord "ref"
  let isMutable ← optionalWord "mut"
  if isBoxed || isReference || isMutable then discard name
  else if !(← member) || (← sees (isMark ":")) then
    mark ":"
    discard g.alternatives

/-- The fields of a structure pattern. Two dots may stand for the last ones. -/
def fieldPatterns : Rule Unit := discard <| group .brace <| commaList do
  discard g.attributes
  if ← optionalMark ".." then
    if !(← sees isEnd) then fail
  else g.fieldPattern

/-! ## Patterns -/

/-- A pattern that begins with a path. A macro call is one too. -/
def pathPattern : Rule PatternKind := do
  let p ← g.typedPath true
  let ts ← get
  if isMark "!" ts && !isMark "!=" ts && p.isPlain then
    mark "!"
    discard anyGroup
    return .other
  if isGroup .brace ts then
    g.fieldPatterns
    return .other
  if isGroup .paren ts then
    discard (group .paren (commaList g.alternatives))
    return .other
  if isMark ".." ts then return ← g.rangePattern
  return .other

def isPathPatternStart (ts : List Token) : Bool :=
  isName ts &&
      second (isAny [isMark "::", isMark "!", isGroup .brace, isGroup .paren, isMark ".."]) ts ||
    isWord "self" ts && second (isMark "::") ts ||
    isAny [isMark "::", isMark "<", isWord "Self", isWord "super", isWord "crate"] ts

/-- A name that is bound, perhaps to something with a pattern of its own. -/
def bindingPattern : Rule Unit := do
  discard (optionalWord "ref")
  discard (optionalWord "mut")
  if !(← optionalWord "self") then discard name
  if ← optionalMark "@" then discard g.pattern

/-- A pattern without alternatives. -/
def patternRule : Rule PatternKind := do
  let ts ← get
  if isPathPatternStart ts then g.pathPattern
  else if isWord "_" ts then
    word "_"
    return .other
  else if isWord "box" ts then
    word "box"
    discard g.pattern
    return .other
  else if isAny [isMark "-", isLiteral, isWord "const"] ts then
    if !(← g.rangeBound) then fail
    if ← sees (isMark "..") then g.rangePattern else return .other
  else if isMark "&" ts then
    mark "&"
    discard (optionalWord "mut")
    discard g.pattern
    return .other
  else if isGroup .paren ts then
    discard (group .paren (commaList g.alternatives))
    return .other
  else if isGroup .bracket ts then
    discard <| group .bracket <| commaList do
      if (← g.alternatives) = .openRange then fail
    return .other
  else if isMark ".." ts then g.endPattern
  else
    g.bindingPattern
    return .other

end TypeExport.Source.Grammar
