import TypeExport.Source.Grammar.Item
import TypeExport.Source.Grammar.Operand
import TypeExport.Source.Grammar.Statement

/-!
# The levels of the grammar

`Grammar.next` goes one level up: its rules read a construct whose parts the given grammar reads. A
construct of so many tokens has parts on no more than so many levels, up to a constant factor, so
`Source.expression` and `Source.items` take as many levels as they need.
-/

namespace TypeExport.Source

open Rule

namespace Grammar

/-- The rules one level up. -/
def next (g : Grammar) : Grammar where
  type := g.typeRule
  bound := g.boundRule
  unary := g.unaryRule
  operators := g.operatorsRule
  statementExpr := g.statementExprRule
  pattern := g.patternRule
  statements := g.statementsRule
  item := g.itemRule
  fields := g.fieldsRule
  useTree := g.useTreeRule

/-- The grammar for constructs with so many levels. -/
def upTo : Nat → Grammar
  | 0 => empty
  | n + 1 => (upTo n).next

/-- The grammar for a list of tokens. -/
def ofTokens (ts : List Token) : Grammar := upTo (4 * Token.totalSize ts + 8)

end Grammar

/-- An expression. -/
def expression : Rule Expr := fun ts => (Grammar.ofTokens ts).expr ts

/-- The items of a file, after the attributes of the file. -/
def items (ts : List Token) : Option (List Item) :=
  let g := Grammar.ofTokens ts
  run (do
    discard g.innerAttributes
    many g.item) ts

end TypeExport.Source
