import TypeExport.Source.Rule
import TypeExport.Source.Syntax

/-!
# Grammars

The rules for types, expressions, patterns, statements and items need each other. A `Grammar` is a
choice of these rules; the modules of this folder define the rules one level up, for constructs whose
parts are read by a given grammar. `Grammar.upTo` (module `Levels`) puts the levels on each other.

This module holds what all constructs share: expressions from their two parts, blocks, attributes and
paths without arguments.
-/

namespace TypeExport.Source

/-- The kinds of bounds that must not stand everywhere. -/
inductive BoundKind where
  | lifetime
  | trait
  /-- A trait that holds at compile time. -/
  | constTrait
  /-- A list of what the type keeps. -/
  | capture
  deriving DecidableEq

/-- The kinds of patterns that must not stand everywhere. -/
inductive PatternKind where
  /-- A range with an end missing. -/
  | openRange
  | other
  deriving DecidableEq

/-- Rules for the constructs that need each other. -/
structure Grammar where
  /-- A type. The flag allows bounds joined by plus signs. -/
  type : Bool → Rule TypeSyntax
  bound : Rule BoundKind
  /-- An operand with the operators before it and after it. The flag allows structure expressions. -/
  unary : Bool → Rule Expr
  /-- The operators after an operand, with their operands, as far as they bind as tightly as the number
  says. The flag allows structure expressions. -/
  operators : Bool → Nat → Expr → Rule Expr
  /-- An expression in the place of a statement. If it begins with a construct that ends with a block, it
  ends there. -/
  statementExpr : Rule Expr
  pattern : Rule PatternKind
  /-- The statements of a block. -/
  statements : Rule Unit
  item : Rule Item
  /-- Fields with names, in braces. -/
  fields : Rule (List Field)
  /-- What a use declaration names. The flag allows a double colon before it. -/
  useTree : Bool → Rule Unit

namespace Grammar

open Rule

/-- The grammar that reads nothing. -/
def empty : Grammar where
  type _ := fail
  bound := fail
  unary _ := fail
  operators _ _ _ := fail
  statementExpr := fail
  pattern := fail
  statements := fail
  item := fail
  fields := fail
  useTree _ := fail

variable (g : Grammar)

/-- An expression. The flag allows structure expressions outside brackets. -/
def exprWith (allowStruct : Bool) : Rule Expr := do
  let e ← g.unary allowStruct
  g.operators allowStruct 0 e

def expr : Rule Expr := g.exprWith true

/-- A block. -/
def block : Rule Unit := group .brace g.statements

/-! ## Paths without arguments -/

/-- A word that may stand in a path. -/
def isPathWord (ts : List Token) : Bool :=
  isAny [isName, isWord "super", isWord "self", isWord "Self", isWord "crate"] ts

def pathWord : Rule String := do
  if ← sees isPathWord then anyWord else fail

/-- A path without arguments. The flag says that it begins with a double colon. -/
def plainPath : Rule (Bool × List String) := do
  let isGlobal ← optionalMark "::"
  return (isGlobal, ← joined (fun _ => false) "::" pathWord)

/-! ## Attributes -/

/-- What follows the path of an attribute. -/
def metaContent : Rule Meta := do
  if ← sees isAnyGroup then return .list (← anyGroup).2
  if ← sees (isMark "=") then
    mark "="
    let ts ← get
    match run literal ts with
    | some l =>
      set ([] : List Token)
      return .value (.literal l)
    | none =>
      if isMark "#" ts && second (isGroup .bracket) ts then fail
      return .value (← g.expr)
  return .word

/-- The path of an attribute. The only keyword that may be one is `unsafe`. -/
def attributePath : Rule (Bool × List String) := do
  if ← sees (isWord "unsafe") then return (false, [← anyWord])
  plainPath

/-- An attribute after its hash sign. -/
def attributeGroup : Rule Attribute :=
  group .bracket do
    let (isGlobal, path) ← attributePath
    return { isGlobal, path, content := ← g.metaContent }

/-- The attributes before something. -/
def attributes : Rule (List Attribute) :=
  manyWhile (isMark "#") do
    mark "#"
    g.attributeGroup

/-- The attributes at the beginning of something, for what they stand in. -/
def innerAttributes : Rule (List Attribute) :=
  manyWhile (fun ts => isMark "#" ts && second (isMark "!") ts) do
    mark "#"
    mark "!"
    g.attributeGroup

/-- A block that may begin with attributes. -/
def body : Rule Unit := group .brace do
  discard g.innerAttributes
  g.statements

end Grammar

end TypeExport.Source
