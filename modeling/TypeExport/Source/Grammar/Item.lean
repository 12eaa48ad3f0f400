import TypeExport.Source.Grammar.Type

/-!
# Items

The items of files, modules, traits, implementations and foreign interfaces (`Grammar.itemRule`).
-/

namespace TypeExport.Source

/-- Where an item can be seen. -/
inductive Reach where
  | inherited
  | everywhere
  | restricted
  deriving DecidableEq

/-- The place of a where clause in the declaration of a type. -/
inductive WherePlace where
  | beforeEquals
  | afterEquals
  | both
  deriving DecidableEq

namespace Grammar

open Rule

variable (g : Grammar)

/-! ## Visibility -/

/-- The visibility before an item or a field. Parentheses that do not restrict it belong to what
follows. -/
def visibility : Rule Reach := do
  if !(← optionalWord "pub") then return .inherited
  match ← get with
  | .group .paren inner :: rest =>
    if isWord "in" inner then
      group .paren do
        word "in"
        discard plainPath
      return .restricted
    if isAny [isWord "crate", isWord "self", isWord "super"] inner && inner.length = 1 then
      set rest
      return .restricted
    return .everywhere
  | _ => return .everywhere

/-! ## Functions -/

/-- The words before `fn`. -/
def functionWords (allowSafe : Bool) : Rule Unit := do
  discard (optionalWord "const")
  discard (optionalWord "async")
  if !(← optionalWord "unsafe") && allowSafe then discard (optionalWord "safe")
  interface

/-- The tokens that are left begin with a function. -/
def isFunction (allowSafe : Bool) (ts : List Token) : Bool :=
  match functionWords allowSafe ts with
  | some (_, rest) => isWord "fn" rest
  | none => false

/-- The receiver of a method. -/
def receiver : Rule Unit := do
  let isReference ← optionalMark "&"
  if isReference then discard (whenever isLifetime lifetime)
  discard (optionalWord "mut")
  word "self"
  if !isReference && (← optionalMark ":") then discard (g.type true)

/-- An argument of a function, or dots for more arguments. It is true if another argument may follow.
Only the first one may be a receiver. -/
def itemArgument (isFirst : Bool) : Rule Bool := do
  discard g.attributes
  if ← optionalMark "..." then return false
  if (← attempt g.receiver).isSome then
    if !isFirst then fail
    return true
  if ← sees (fun ts => isName ts && second (isMark "<") ts) then
    discard (g.type true)
    return true
  discard g.pattern
  mark ":"
  if ← optionalMark "..." then return false
  discard (g.type true)
  return true

/-- The arguments of a function. -/
def itemArguments : Rule Unit := discard <| iterate (fun isFirst => do
  if ← sees isEnd then return none
  let goesOn ← g.itemArgument isFirst
  if ← sees isEnd then return none
  mark ","
  return if goesOn then some false else none) true

/-- A function without its block. -/
def signature (allowSafe : Bool) : Rule Unit := do
  functionWords allowSafe
  word "fn"
  discard name
  discard g.parameters
  group .paren g.itemArguments
  g.returned true
  discard g.whereClause

/-- A function. Its block may be missing. -/
def function (allowSafe : Bool) : Rule Unit := do
  g.signature allowSafe
  if !(← optionalMark ";") then g.body

/-! ## Constants and declared types -/

/-- A name or an underscore. -/
def nameOrUnderscore : Rule String := do
  if ← sees (isWord "_") then anyWord else name

/-- A constant, perhaps without its value. -/
def constant : Rule Unit := do
  word "const"
  discard nameOrUnderscore
  discard g.parameters
  mark ":"
  discard (g.type true)
  if ← optionalMark "=" then discard g.expr
  discard g.whereClause
  mark ";"

/-- A global variable. Its type or its value may be missing. -/
def variableItem : Rule Unit := do
  word "static"
  discard (optionalWord "mut")
  discard name
  if ← optionalMark "=" then discard g.expr
  else
    mark ":"
    discard (g.type true)
    if ← optionalMark "=" then discard g.expr
  mark ";"

/-- Bounds, each but the last followed by a plus sign, up to where a property of the tokens that are
left holds. -/
def boundsUpTo (stop : List Token → Bool) (bound : Rule Unit) : Rule Unit :=
  discard (separated stop (mark "+") bound)

/-- The declaration of a type. -/
def typeDeclaration (place : WherePlace) : Rule Unit := do
  word "type"
  discard name
  discard g.parameters
  if ← optionalMark ":" then
    boundsUpTo (isAny [isWord "where", isMark "=", isMark ";"]) g.declaredBound
  let hasWhere ← if place = .afterEquals then pure false else g.whereClause
  if ← optionalMark "=" then discard (g.type true)
  if place != .beforeEquals && !hasWhere then discard g.whereClause
  mark ";"

/-! ## Macros -/

/-- The tokens of a macro call. They end with a semicolon unless they stand in braces. -/
def macroTokens : Rule Unit := do
  if (← anyGroup).1 != .brace then mark ";"

/-- A macro call among the items of a trait or an implementation. -/
def innerMacro : Rule Unit := do
  discard plainPath
  mark "!"
  macroTokens

/-- A macro call, perhaps with a name that it declares. -/
def macroItem : Rule Unit := do
  discard plainPath
  mark "!"
  if !(← optionalWord "try") then discard (whenever isName anyWord)
  macroTokens

/-- The declaration of a macro. -/
def macroDeclaration : Rule Unit := do
  word "macro"
  discard name
  discard (whenever (isGroup .paren) anyGroup)
  group .brace anything

/-- The tokens that are left may begin with a macro call. -/
def isMacroStart (ts : List Token) : Bool :=
  isAny [isName, isWord "self", isWord "super", isWord "crate", isMark "::"] ts

/-! ## Imports -/

/-- A new name for something. -/
def rename : Rule Unit := do
  if ← optionalWord "as" then discard nameOrUnderscore

/-- What a use declaration names. -/
def useTreeRule (allowRoot : Bool) : Rule Unit := do
  let isGlobal ← if allowRoot then optionalMark "::" else pure false
  let ts ← get
  if isAny [isName, isWord "self", isWord "super", isWord "crate", isWord "try"] ts then
    discard anyWord
    if ← optionalMark "::" then g.useTree false else rename
  else if ← optionalMark "*" then return
  else discard (group .brace (commaList (g.useTree (allowRoot && !isGlobal))))

def externCrate : Rule Unit := do
  word "extern"
  word "crate"
  if !(← optionalWord "self") then discard name
  rename
  mark ";"

/-! ## Structures and enumerations -/

/-- A field with a name. -/
def namedField : Rule Field := do
  let attributes ← g.attributes
  let r ← visibility
  let n ← nameOrUnderscore
  mark ":"
  let ts ← get
  if n = "_" && (isWord "struct" ts || isWord "union" ts && second (isGroup .brace) ts) then
    discard anyWord
    discard g.fields
    return { attributes, isPublic := r = .everywhere, name := n, type := .other }
  return { attributes, isPublic := r = .everywhere, name := n, type := ← g.type true }

/-- Fields with names, in braces. -/
def fieldsRule : Rule (List Field) := group .brace (commaList g.namedField)

/-- Fields without names, in parentheses. -/
def unnamedFields : Rule Unit := discard <| group .paren <| commaList do
  discard g.attributes
  discard visibility
  discard (g.type true)

/-- A structure. The attributes and the visibility before it have been read. -/
def structItem (attributes : List Attribute) (r : Reach) : Rule StructItem := do
  word "struct"
  let n ← name
  let isGeneric ← g.parameters
  let hasWhere ← g.whereClause
  let item fields : StructItem :=
    { attributes, isPublic := r = .everywhere, name := n, isGeneric, fields }
  let ts ← get
  if isGroup .brace ts then return item (.named (← g.fieldsRule))
  let hasFields := isGroup .paren ts && !hasWhere
  if hasFields then
    g.unnamedFields
    discard g.whereClause
  mark ";"
  return item (if hasFields then .unnamed else .none)

/-- A member of an enumeration. -/
def variant : Rule Variant := do
  discard g.attributes
  discard visibility
  let n ← name
  let ts ← get
  let fields ←
    if isGroup .brace ts then Fields.named <$> g.fieldsRule
    else if isGroup .paren ts then (fun () => Fields.unnamed) <$> g.unnamedFields
    else pure Fields.none
  return { name := n, fields, value := ← whenever (isMark "=") do
    mark "="
    g.expr }

/-- An enumeration. The attributes and the visibility before it have been read. -/
def enumItem (attributes : List Attribute) (r : Reach) : Rule EnumItem := do
  word "enum"
  let n ← name
  discard g.parameters
  discard g.whereClause
  let variants ← group .brace (commaList g.variant)
  return { attributes, isPublic := r = .everywhere, name := n, variants }

/-- A type whose fields share their place. -/
def unionItem : Rule Unit := do
  word "union"
  discard name
  discard g.parameters
  discard g.whereClause
  discard g.fieldsRule

/-! ## Traits, implementations and foreign interfaces -/

/-- Items in braces, after the attributes of what they stand in. -/
def innerItems {α : Type} (item : Rule α) : Rule (List α) := group .brace do
  discard g.innerAttributes
  many item

/-- An item of a trait. -/
def traitMember : Rule Unit := do
  discard g.attributes
  let r ← visibility
  let isDefault ← optionalWord "default"
  let ts ← get
  if isFunction false ts then g.function false
  else if isWord "const" ts then g.constant
  else if isWord "type" ts then g.typeDeclaration .afterEquals
  else if r = .inherited && !isDefault && isMacroStart ts then innerMacro
  else fail

/-- A trait, or another name for bounds. -/
def traitItem : Rule Unit := do
  let isUnsafe ← optionalWord "unsafe"
  let isAuto ← optionalWord "auto"
  word "trait"
  discard name
  discard g.parameters
  if !isUnsafe && !isAuto && (← optionalMark "=") then
    boundsUpTo (isAny [isWord "where", isMark ";"]) (discard g.objectBound)
    discard g.whereClause
    mark ";"
  else
    if ← optionalMark ":" then boundsUpTo (isAny [isWord "where", isGroup .brace]) g.declaredBound
    discard g.whereClause
    discard (g.innerItems g.traitMember)

/-- The tokens that are left begin with `default`, and not with a macro of this name. -/
def isDefault (ts : List Token) : Bool := isWord "default" ts && !second (isMark "!") ts

/-- An item of an implementation. -/
def implMember : Rule Unit := do
  discard g.attributes
  let r ← visibility
  let isDefault ← whenever isDefault (word "default")
  let ts ← get
  if isFunction false ts then g.function false
  else if isWord "const" ts then g.constant
  else if isWord "type" ts then g.typeDeclaration .afterEquals
  else if r = .inherited && isDefault.isNone && isMacroStart ts then innerMacro
  else fail

/-- An implementation. -/
def implItem : Rule Unit := do
  discard (optionalWord "default")
  discard (optionalWord "unsafe")
  word "impl"
  if ← sees isParameterStart then discard g.parameters
  if ← sees (fun ts => isWord "const" ts || isMark "?" ts && second (isWord "const") ts) then
    discard (optionalMark "?")
    word "const"
  if ← sees (fun ts => isMark "!" ts && !second (isGroup .brace) ts) then mark "!"
  discard (g.type true)
  if ← optionalWord "for" then discard (g.type true)
  discard g.whereClause
  discard (g.innerItems g.implMember)

/-- A variable in a foreign interface. -/
def foreignVariable : Rule Unit := do
  if !(← optionalWord "unsafe") then discard (optionalWord "safe")
  word "static"
  discard (optionalWord "mut")
  discard name
  mark ":"
  discard (g.type true)
  if ← optionalMark "=" then discard g.expr
  mark ";"

/-- An item of a foreign interface. -/
def foreignMember : Rule Unit := do
  discard g.attributes
  let r ← visibility
  let ts ← get
  if isFunction true ts then g.function true
  else if isWord "static" ts ||
      isAny [isWord "unsafe", isWord "safe"] ts && second (isWord "static") ts then g.foreignVariable
  else if isWord "type" ts then g.typeDeclaration .both
  else if r = .inherited && isMacroStart ts then innerMacro
  else fail

/-- A foreign interface. -/
def foreignItem : Rule Unit := do
  discard (optionalWord "unsafe")
  interface
  discard (g.innerItems g.foreignMember)

/-! ## Items -/

/-- A module. Its items may be in another file. -/
def moduleItem : Rule Item := do
  discard (optionalWord "unsafe")
  word "mod"
  let n ← if ← sees (isWord "try") then anyWord else name
  if ← optionalMark ";" then return .other
  return .module n (← g.innerItems g.item)

/-- An item that can hold nothing of interest. -/
def otherItem (r : Reach) : Rule Unit := do
  let ts ← get
  let rest := if isWord "unsafe" ts then ts.drop 1 else ts
  if isFunction false ts then g.function false
  else if isWord "extern" ts && second (isWord "crate") ts then externCrate
  else if isWord "extern" rest then
    if r = .inherited then g.foreignItem else fail
  else if isWord "use" ts then
    word "use"
    g.useTreeRule true
    mark ";"
  else if isWord "static" ts then g.variableItem
  else if isWord "const" ts then g.constant
  else if isWord "type" ts then g.typeDeclaration .beforeEquals
  else if isWord "union" ts && second isName ts then g.unionItem
  else if isWord "trait" rest || isWord "auto" rest && second (isWord "trait") rest then g.traitItem
  else if isWord "impl" rest || isDefault ts then g.implItem
  else if isWord "macro" ts then macroDeclaration
  else if r = .inherited && isMacroStart ts then macroItem
  else fail

/-- An item of any kind. -/
def itemRule : Rule Item := do
  let attributes ← g.attributes
  let r ← visibility
  let ts ← get
  if isWord "struct" ts then return .structure (← g.structItem attributes r)
  if isWord "enum" ts then return .enumeration (← g.enumItem attributes r)
  if isWord "mod" (if isWord "unsafe" ts then ts.drop 1 else ts) then return ← g.moduleItem
  g.otherItem r
  return .other

end Grammar

end TypeExport.Source
