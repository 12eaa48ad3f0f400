import TypeExport.Config.Placeholder
import TypeExport.Files.Access
import TypeExport.Files.Path
import TypeExport.Text.Alphanumeric
import TypeExport.Text.Blank

/-!
# Environment files

An environment file gives values to variables, one on each line: `NAME=value`, perhaps after `export`.
`EnvironmentFile.extend` adds them to an environment; what has a value keeps it.

A value may be quoted, with single or double quotes, and then it may go on over line ends. A dollar sign
begins the name of a variable whose value is put in its place, unless the quotes are single. A hash sign
after a blank begins a comment. A line with a mistake ends the file.
-/

namespace TypeExport.EnvironmentFile

open Placeholder (Environment)

/-! ## Lines -/

/-- What a character of a line stands in. -/
inductive LineState where
  | plain
  /-- Right after a blank. -/
  | blank
  | escaped
  /-- In quotes. -/
  | quoted (quote : Char)
  | quotedEscaped (quote : Char)
  deriving DecidableEq, Repr

/-- The state after a character outside quotes. -/
def LineState.ofPlain (c : Char) : LineState :=
  if c == '\\' then .escaped
  else if c == '"' || c == '\'' then .quoted c
  else .plain

/-- The state after a character. There is none if a comment begins with it. -/
def LineState.next? : LineState → Char → Option LineState
  | .plain, c =>
    some (if Text.isBlank c && c != '\n' && c != '\r' then .blank else .ofPlain c)
  | .blank, c => if c == '#' then none else some (.ofPlain c)
  | .escaped, _ => some .plain
  | .quoted q, c => some (if c == '\\' then .quotedEscaped q else if c == q then .plain else .quoted q)
  | .quotedEscaped q, _ => some (.quoted q)

/-- A line up to a comment, and the state at its end. There is none if the line ends with a comment. -/
def beforeComment (state : LineState) : List Char → List Char × Option LineState
  | [] => ([], some state)
  | c :: cs =>
    match state.next? c with
    | none => ([], none)
    | some state =>
      let (rest, last) := beforeComment state cs
      (c :: rest, last)

/-- A line without its line end. -/
def chomp (line : List Char) : List Char :=
  match line.reverse with
  | '\n' :: '\r' :: rest => rest.reverse
  | '\n' :: rest => rest.reverse
  | _ => line

/-- Lines without comments, those joined that are in the same quotes. A quote that is not closed ends the
list. -/
def joinLines (state : LineState) (done : List Char) : List (List Char) → List (List Char)
  | [] => []
  | line :: lines =>
    if done.isEmpty && (line.dropWhile Text.isBlank).head? == some '#' then joinLines .plain [] lines
    else match beforeComment state line with
      | (before, none) => (done ++ before) :: joinLines .plain [] lines
      | (before, some .plain) => chomp (done ++ before) :: joinLines .plain [] lines
      | (before, some state) => joinLines state (done ++ before) lines

/-! ## Values -/

/-- What a character of a value stands in. -/
inductive ValueState where
  | plain (isQuoted : Bool)
  | escaped (isQuoted : Bool)
  /-- In single quotes. -/
  | verbatim
  /-- In the name of a variable after a dollar sign. The name is in reverse. -/
  | variable (isQuoted : Bool) (name : List Char)
  /-- In the name of a variable in braces. -/
  | braced (isQuoted : Bool) (name : List Char)
  /-- After the value. -/
  | ended

/-- The value of a variable, empty if there is none. -/
def valueOf (env : Environment) (name : List Char) : List Char :=
  ((env (String.ofList name.reverse)).getD "").toList

/-- The state after a character outside single quotes, and what the character adds to the value. -/
def ValueState.ofPlain (isQuoted : Bool) (c : Char) : ValueState × List Char :=
  if c == '$' then (.variable isQuoted [], [])
  else if c == '\\' then (.escaped isQuoted, [])
  else if c == '"' then (.plain !isQuoted, [])
  else if isQuoted then (.plain true, [c])
  else if c == '\'' then (.verbatim, [])
  else if c == ' ' || c == '\t' then (.ended, [])
  else (.plain false, [c])

/-- What an escaped character stands for. -/
def unescape? (c : Char) : Option Char :=
  if ['\\', '\'', '"', '$', ' '].contains c then some c
  else if c == 'n' then some '\n'
  else none

/-- The value that a text gives. -/
def value (env : Environment) : ValueState → List Char → Option (List Char)
  | .plain isQuoted, [] => if isQuoted then none else some []
  | .escaped isQuoted, [] => if isQuoted then none else some []
  | .verbatim, [] => none
  | .variable isQuoted name, [] => if isQuoted then none else some (valueOf env name)
  | .braced _ _, [] => none
  | .ended, [] => some []
  | .plain isQuoted, c :: cs => do
    let (state, added) := ValueState.ofPlain isQuoted c
    return added ++ (← value env state cs)
  | .escaped isQuoted, c :: cs => do return (← unescape? c) :: (← value env (.plain isQuoted) cs)
  | .verbatim, c :: cs => do
    if c == '\'' then value env (.plain false) cs else return c :: (← value env .verbatim cs)
  | .variable isQuoted name, c :: cs => do
    if Text.isAlphanumeric c then value env (.variable isQuoted (c :: name)) cs
    else if c == '{' && name.isEmpty then value env (.braced isQuoted []) cs
    else if c == '$' then return valueOf env name ++ (← value env (.variable isQuoted []) cs)
    else return valueOf env name ++ c :: (← value env (.plain isQuoted) cs)
  | .braced isQuoted name, c :: cs => do
    if c == '}' then return valueOf env name ++ (← value env (.plain isQuoted) cs)
    else value env (.braced isQuoted (c :: name)) cs
  | .ended, c :: cs => do
    if c == ' ' || c == '\t' then value env .ended cs
    else if c == '#' then return []
    else none

/-! ## Entries -/

def isKeyStart (c : Char) : Bool := c.isAlpha || c == '_'

def isKeyContinue (c : Char) : Bool := c.isAlphanum || c == '_' || c == '.'

/-- The name at the beginning of a line, and what follows it and the blanks after it. -/
def key? (cs : List Char) : Option (List Char × List Char) :=
  if cs.head?.any isKeyStart then
    let (key, rest) := cs.span isKeyContinue
    some (key, rest.dropWhile Text.isBlank)
  else none

/-- The name on a line and the text of its value. The word `export` before the name is no part of it. -/
def binding? (cs : List Char) : Option (List Char × List Char) := do
  match ← key? cs with
  | (key, '=' :: rest) => some (key, rest.dropWhile Text.isBlank)
  | (key, rest) =>
    if key = "export".toList then
      match ← key? rest with
      | (key, '=' :: rest) => some (key, rest.dropWhile Text.isBlank)
      | _ => none
    else none

/-- What a line says. -/
inductive Entry where
  | empty
  | variable (name value : String)
  | mistake

/-- Reads a line without blanks around it. -/
def entry (env : Environment) (line : List Char) : Entry :=
  if line.isEmpty || line.head? == some '#' then .empty
  else match binding? line with
    | none => .mistake
    | some (key, text) =>
      if text.head? == some '#' then .variable (String.ofList key) ""
      else match value env (.plain false) text with
        | some v => .variable (String.ofList key) (String.ofList v)
        | none => .mistake

/-- Gives a variable a value unless it has one. -/
def define (env : Environment) (name value : String) : Environment := fun n =>
  if n = name then some ((env name).getD value) else env n

/-- Adds the variables of lines to an environment. -/
def addLines (env : Environment) : List (List Char) → Environment
  | [] => env
  | line :: lines =>
    match entry env (Text.dropRightWhile Text.isBlank line |>.dropWhile Text.isBlank) with
    | .empty => addLines env lines
    | .variable name value => addLines (define env name value) lines
    | .mistake => env

/-- The lines without a byte order mark at the beginning. -/
def skipByteOrderMark : List (List Char) → List (List Char)
  | ('\ufeff' :: cs) :: lines => cs :: lines
  | lines => lines

/-- Adds the variables of an environment file to an environment. The file is given by its lines. -/
def extend (env : Environment) (lines : List String) : Environment :=
  addLines env (joinLines .plain [] (skipByteOrderMark (lines.map (·.toList))))

/-! ## Files -/

/-- The name of environment files. -/
def fileName : String := ".env"

section

variable {m : Type → Type} [Monad m] (files : FileAccess m)

/-- The first environment file in directories. -/
def find? : List String → m (Option String)
  | [] => return none
  | dir :: dirs => do
    let path := Path.join dir fileName
    if (← files.pathExists path) && !(← files.isDirectory path) then return some path
    find? dirs

/-- Adds the variables of the next environment file, upwards from where relative paths begin. -/
def load (env : Environment) : m Environment := do
  match ← find? files (Path.ancestors (← files.home)) with
  | none => return env
  | some path => match ← files.readLines path with
    | .ok lines => return extend env lines
    | .error _ => return env

end

end TypeExport.EnvironmentFile
