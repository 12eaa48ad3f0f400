import TypeExport.Source.Grammar.Basic

/-!
# Paths, bounds and parameters

The rules for paths with arguments, for the bounds of types, for the parameters of declarations and for
where clauses.
-/

namespace TypeExport.Source

/-- A path with its arguments. -/
structure Path where
  /-- It begins with a type in angle brackets. -/
  ofType : Bool
  /-- It begins with a double colon. -/
  isGlobal : Bool
  segments : List Segment
  /-- No part has arguments. -/
  isPlain : Bool

def Path.toType (p : Path) : TypeSyntax := .path p.ofType p.isGlobal p.segments

namespace Grammar

open Rule

variable (g : Grammar)

/-! ## Bounds in lists -/

/-- A bound that may stand before a declared type. -/
def declaredBound : Rule Unit := do
  if (← g.bound) = .capture then fail

/-- A bound that may stand in the type of an object. It is true if it is a trait. -/
def objectBound : Rule Bool := do
  match ← g.bound with
  | .lifetime => return false
  | .trait => return true
  | _ => fail

/-! ## Paths -/

/-- A value as an argument. -/
def constArgument : Rule Unit := do
  let ts ← get
  if isLiteral ts then discard literal
  else if isName ts then discard anyWord
  else g.body

def isConstStart : List Token → Bool := isAny [isLiteral, isGroup .brace]

/-- An argument in angle brackets. -/
def argument : Rule Argument := do
  let ts ← get
  if isLifetime ts && !second (isMark "+") ts then return .lifetime (← lifetime)
  if isConstStart ts then
    g.constArgument
    return .other
  let t ← g.type true
  if t.isName then
    if ← optionalMark "=" then
      if ← sees isConstStart then g.constArgument else discard (g.type true)
      return .other
    if ← optionalMark ":" then
      discard (joined (isAny [isMark ",", isMark ">"]) "+" g.declaredBound)
      return .other
  return .type t

/-- Arguments in angle brackets, perhaps after a double colon. -/
def arguments : Rule (List Argument) := do
  discard (optionalMark "::")
  mark "<"
  let as ← separated (isMark ">") (mark ",") g.argument
  mark ">"
  return as

/-- A part of a path. In an expression, arguments come after a double colon only. The flag of the result
says that there are none. -/
def segment (inExpr : Bool) : Rule (Segment × Bool) := do
  let ts ← get
  if isAny [isWord "super", isWord "self", isWord "crate", isWord "try"] ts then
    return (.mk (← anyWord) [], true)
  let n ← if isWord "Self" ts then anyWord else name
  let ts ← get
  if !inExpr && isMark "<" ts && !isMark "<=" ts || isMark "::" ts && third (isMark "<") ts then
    return (.mk n (← g.arguments), false)
  return (.mk n [], true)

/-- More parts of a path. A double colon before a parenthesis does not belong to it. -/
def moreSegments (inExpr : Bool) : Rule (List (Segment × Bool)) :=
  manyWhile (fun ts => isMark "::" ts && !third (isGroup .paren) ts) do
    mark "::"
    g.segment inExpr

/-- A path with arguments. -/
def path (inExpr : Bool) : Rule Path := do
  let isGlobal ← optionalMark "::"
  let parts := (← g.segment inExpr) :: (← g.moreSegments inExpr)
  return { ofType := false, isGlobal, segments := parts.map (·.1), isPlain := parts.all (·.2) }

/-- A path with arguments that may be relative to a type in angle brackets. -/
def typedPath (inExpr : Bool) : Rule Path := do
  if !(← sees (isMark "<")) then return ← g.path inExpr
  mark "<"
  discard (g.type true)
  if ← optionalWord "as" then discard (g.path false)
  mark ">"
  mark "::"
  let parts ← joined (fun _ => false) "::" (g.segment inExpr)
  return { ofType := true, isGlobal := false, segments := parts.map (·.1), isPlain := false }

/-! ## Parameters -/

/-- A parameter of a declaration. It is true if the parameter is a type. -/
def parameter : Rule Bool := do
  discard g.attributes
  let ts ← get
  if isLifetime ts then
    discard lifetime
    if ← optionalMark ":" then
      discard (joined (isAny [isEnd, isMark ",", isMark ">"]) "+" lifetime)
    return false
  if isWord "const" ts then
    discard anyWord
    discard name
    mark ":"
    discard (g.type true)
    if ← optionalMark "=" then g.constArgument
    return false
  discard name
  if ← optionalMark ":" then
    discard (joined (isAny [isEnd, isMark ",", isMark ">", isMark "="]) "+" g.declaredBound)
  if ← optionalMark "=" then discard (g.type true)
  return true

/-- A parameter of an item, which may be a type without a name. -/
def itemParameter : Rule Bool := do
  discard g.attributes
  if ← optionalWord "_" then return true
  g.parameter

/-- The parameters of an item, if it has some. It is true if one is a type. -/
def parameters : Rule Bool := do
  if !(← sees (isMark "<")) then return false
  mark "<"
  let ps ← separated (isMark ">") (mark ",") g.itemParameter
  mark ">"
  return ps.contains true

/-- The parameters of a bound or a function type, after `for`, if there are some. -/
def boundParameters : Rule Bool := do
  if !(← optionalWord "for") then return false
  mark "<"
  discard (separated (isMark ">") (mark ",") g.parameter)
  mark ">"
  return true

/-- The tokens that are left begin with the parameters of an implementation, and not with a type in
angle brackets. -/
def isParameterStart (ts : List Token) : Bool :=
  isMark "<" ts &&
    (second (isAny [isMark ">", isMark "#", isWord "const"]) ts ||
      second (isAny [isLifetime, isName]) ts &&
        (third (isAny [isMark ">", isMark ",", isMark "="]) ts ||
          third (isMark ":") ts && !third (isMark "::") ts))

/-! ## Bounds -/

/-- What a function type gives. The flag allows bounds joined by plus signs. -/
def returned (allowPlus : Bool) : Rule Unit := do
  if ← optionalMark "->" then discard (g.type allowPlus)

/-- The arguments and the result of a function trait. -/
def functionArguments : Rule Unit := do
  discard (group .paren (commaList (g.type true)))
  g.returned false

/-- A bound that is a trait. -/
def traitBound : Rule BoundKind := do
  let hasParameters ← g.boundParameters
  let isConditional ← optionalMark "~"
  let isConst ← if isConditional then (do word "const"; return true) else optionalWord "const"
  if (← optionalMark "?") && !hasParameters then discard g.boundParameters
  let p ← g.path false
  let isBare := p.segments.getLast?.all (·.args.isEmpty)
  if isBare && (← sees fun ts => isGroup .paren ts || isMark "::" ts && third (isGroup .paren) ts) then
    discard (optionalMark "::")
    g.functionArguments
  return if isConst then .constTrait else .trait

/-- The parameters that a type keeps. -/
def captured : Rule Unit := do
  word "use"
  mark "<"
  discard (separated (isMark ">") (mark ",") do
    let ts ← get
    if isLifetime ts then discard lifetime
    else if isAny [isName, isWord "Self"] ts then discard anyWord
    else fail)
  mark ">"

/-- A bound of any kind. -/
def boundRule : Rule BoundKind := do
  let ts ← get
  if isLifetime ts then
    discard lifetime
    return .lifetime
  if isWord "use" ts then
    captured
    return .capture
  if isGroup .paren ts then return ← group .paren g.traitBound
  g.traitBound

/-! ## Where clauses -/

/-- The tokens that are left end a where clause or one of its bounds. -/
def isPredicateEnd (ts : List Token) : Bool :=
  isAny [isEnd, isGroup .brace, isMark ",", isMark ";", isMark "="] ts ||
    isMark ":" ts && !isMark "::" ts

/-- A condition of a where clause. -/
def predicate : Rule Unit := do
  let ts ← get
  if isLifetime ts && second (isMark ":") ts then
    discard lifetime
    mark ":"
    discard (joined (fun ts => isPredicateEnd ts || isMark ":" ts) "+" lifetime)
  else
    discard g.boundParameters
    discard (g.type true)
    mark ":"
    discard (joined isPredicateEnd "+" g.declaredBound)

/-- A where clause, if there is one. -/
def whereClause : Rule Bool := do
  if !(← optionalWord "where") then return false
  if ← sees isParameterStart then fail
  discard (joined isPredicateEnd "," g.predicate)
  return true

end Grammar

end TypeExport.Source
