import TypeExport.Source.Grammar.Path

/-!
# Types

The rule for types (`Grammar.typeRule`).
-/

namespace TypeExport.Source.Grammar

open Rule

variable (g : Grammar)

/-! ## Bounds in the place of a type -/

def isBoundStart : List Token → Bool :=
  isAny [isAnyWord, isMark "::", isMark "?", isMark "~", isLifetime, isGroup .paren]

/-- Bounds joined by plus signs, one of them a trait. The given rule reads a bound and says whether it
is a trait. -/
def bounds (allowPlus : Bool) (bound : Rule Bool) : Rule Unit := do
  let areTraits ← if allowPlus then joined (fun ts => !isBoundStart ts) "+" bound else List.singleton <$> bound
  if !areTraits.contains true then fail

/-- The bounds of an object. -/
def objectBounds (allowPlus : Bool) : Rule Unit := bounds allowPlus g.objectBound

/-- The bounds of a type that is not named. -/
def hiddenBounds (allowPlus : Bool) : Rule Unit :=
  bounds allowPlus do
    let kind ← g.bound
    return kind = .trait || kind = .constTrait

/-- More bounds of an object, each after a plus sign. It is true if there are some. -/
def moreBounds : Rule Bool := do
  let more ← manyWhile (isMark "+") do
    mark "+"
    g.objectBound
  return !more.isEmpty

/-! ## Function types -/

/-- The interface that a function follows, if it is given. -/
def interface : Rule Unit := do
  if ← optionalWord "extern" then discard (whenever isText textLiteral)

def isSelfAfterMut (ts : List Token) : Bool := isWord "mut" ts && second (isWord "self") ts

/-- An argument of a function type. The first one may be `self`. -/
def functionArgument (isFirst : Bool) : Rule Unit := do
  let isMutable := isFirst && (← sees isSelfAfterMut)
  if isMutable then word "mut"
  let ts ← get
  let isSelf := isFirst && isWord "self" ts
  let isNamed := (isAny [isName, isWord "_"] ts || isSelf) &&
    second (isMark ":") ts && !second (isMark "::") ts
  if isNamed then
    discard anyWord
    mark ":"
  if isFirst && !(isNamed && isSelf) && (← sees isSelfAfterMut) then
    word "mut"
    word "self"
  else if isMutable && !isNamed then word "self"
  else discard (g.type true)

/-- The tokens that are left begin with dots for more arguments, perhaps after a name. -/
def isVariadic (ts : List Token) : Bool :=
  isMark "..." ts || isAny [isName, isWord "_"] ts && second (isMark ":") ts && third (isMark "...") ts

/-- The arguments of a function type. -/
def functionTypeArguments : Rule Unit := discard <| iterate (fun isFirst => do
  if ← sees isEnd then return none
  discard g.attributes
  if ← sees isVariadic then
    if !(← sees (isMark "...")) then
      discard anyWord
      mark ":"
    mark "..."
    discard (optionalMark ",")
    return none
  g.functionArgument isFirst
  if ← sees isEnd then return none
  mark ","
  return some false) true

/-- A function type. -/
def functionType : Rule Unit := do
  discard (optionalWord "unsafe")
  interface
  word "fn"
  group .paren g.functionTypeArguments
  g.returned false

/-! ## Types -/

/-- A type that begins with a path. A macro call is one too. -/
def pathType (allowPlus hasParameters : Bool) : Rule TypeSyntax := do
  let p ← g.typedPath false
  if p.ofType then return p.toType
  let ts ← get
  if isMark "!" ts && !isMark "!=" ts && p.isPlain then
    mark "!"
    discard anyGroup
    return .other
  if allowPlus && isMark "+" ts then
    mark "+"
    discard (joined (fun ts => !isBoundStart ts) "+" g.objectBound)
    return .other
  return if hasParameters then .bound else p.toType

/-- What stands in parentheses in the place of a type. -/
def parenthesisContent : Rule TypeSyntax := do
  if ← sees isLifetime then
    g.objectBounds true
    return .parens .other
  if ← sees isEnd then return .tuple []
  let first ← g.type true
  if ← optionalMark "," then return .tuple (first :: (← commaList (g.type true)))
  return .parens first

/-- A type that begins with parentheses. -/
def parenthesizedType (allowPlus : Bool) : Rule TypeSyntax := do
  let isOptional ← sees fun
    | .group _ inner :: _ => isMark "?" inner
    | _ => false
  if isOptional then
    discard (group .paren g.traitBound)
    return if ← g.moreBounds then .other else .bound
  let t ← group .paren g.parenthesisContent
  if let .parens inner := t then
    if allowPlus && inner.isBound && (← g.moreBounds) then return .other
  return t

/-- An array or a slice. -/
def bracketType : Rule TypeSyntax := group .bracket do
  let element ← g.type true
  if ← optionalMark ";" then
    discard g.expr
    return .array element
  return .slice element

/-- A type of any kind. -/
def typeRule (allowPlus : Bool) : Rule TypeSyntax := do
  let hasParameters ← g.boundParameters
  let ts ← get
  let isFunction := isAny [isWord "fn", isWord "unsafe", isWord "extern"] ts
  if hasParameters && !isFunction && !isPathWord ts then fail
  if isGroup .paren ts then g.parenthesizedType allowPlus
  else if isFunction then
    g.functionType
    return .other
  else if isPathWord ts || isMark "::" ts || isMark "<" ts then g.pathType allowPlus hasParameters
  else if isGroup .bracket ts then g.bracketType
  else if isMark "*" ts then
    mark "*"
    if !(← optionalWord "const") then word "mut"
    discard (g.type false)
    return .other
  else if isMark "&" ts then
    mark "&"
    discard (whenever isLifetime lifetime)
    discard (optionalWord "mut")
    return .reference (← g.type false)
  else if isWord "dyn" ts then
    word "dyn"
    discard (optionalMark "*")
    g.objectBounds allowPlus
    return .other
  else if isWord "impl" ts then
    word "impl"
    g.hiddenBounds allowPlus
    return .other
  else if isLifetime ts then
    g.objectBounds true
    return .other
  else if isWord "_" ts then
    word "_"
    return .other
  else
    mark "!"
    return .other

end TypeExport.Source.Grammar
