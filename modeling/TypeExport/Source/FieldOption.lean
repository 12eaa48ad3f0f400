import TypeExport.Source.Grammar.Levels

/-!
# Options of fields

The attribute `serde` of a field says how the field is stored, as a list of options in brackets. Two of
them matter: a field can have another name, and it can be left out.

Options are read one after the other. What cannot be read ends the list, and the options before it
count.
-/

namespace TypeExport.Source

open Rule

/-- An option of a field. -/
inductive FieldOption where
  /-- Another name. -/
  | rename (name : String)
  /-- The field is left out. -/
  | skip
  | other
  deriving DecidableEq, Repr

namespace FieldOption

/-! ## Reading -/

/-- The path of an option. Its parts may be keywords. The flag says that it begins with a double
colon. -/
def path : Rule (Bool × List String) := do
  let isGlobal ← optionalMark "::"
  return (isGlobal, ← joined (fun _ => false) "::" anyWord)

/-- The value of an option. -/
def value : Rule Unit := do
  mark "="
  discard expression

/-- The options in parentheses after an option. There is one at least, and all have values. -/
def inner : Rule Unit := do
  if ← sees isEnd then fail
  discard <| commaList do
    discard path
    value

/-- An option. -/
def option : Rule FieldOption := do
  let (isGlobal, names) ← path
  if ← sees (isGroup .paren) then
    group .paren inner
    return .other
  if !isGlobal && names = ["rename"] then
    mark "="
    return .rename (← textLiteral)
  if !isGlobal && (names = ["skip"] || names = ["skip_serializing"]) then return .skip
  if ← sees (isMark "=") then value
  return .other

/-- The options at the beginning of a list of tokens, no more than a number. -/
def upTo : Nat → List Token → List FieldOption
  | 0, _ => []
  | n + 1, ts =>
    match option ts with
    | some (o, .mark ',' _ :: rest) => o :: upTo n rest
    | some (o, _) => [o]
    | none => []

/-- The options in a list of tokens. -/
def ofTokens (ts : List Token) : List FieldOption := upTo ts.length ts

/-- The options that an attribute gives. -/
def ofAttribute (a : Attribute) : List FieldOption :=
  match a.content with
  | .list ts => if a.isNamed "serde" then ofTokens ts else []
  | _ => []

/-- The options that attributes give, in their order. -/
def ofAttributes (as : List Attribute) : List FieldOption := as.flatMap ofAttribute

/-! ## Meaning -/

/-- The name that an option gives. -/
def name? : FieldOption → Option String
  | .rename name => some name
  | _ => none

/-- The name that options give. The last one wins. -/
def newName? (os : List FieldOption) : Option String := (os.filterMap name?).getLast?

/-- The options leave the field out. -/
def areSkipping (os : List FieldOption) : Bool := os.contains .skip

end FieldOption

end TypeExport.Source
