import TypeExport.Schema.Basic
import TypeExport.Output.TypeText

/-!
# TypeScript modules

One module holds a declaration and all that is nested in it.

* `Output.importNames`: the names that an interface has to import.
* `Output.declarationLines`: the lines of a declaration's module.
* `Output.barrelLines`: the lines of the module that exports all others.
-/

namespace TypeExport.Output

/-- A statement that links the module of a name. -/
def linkLine (keyword name : String) : String :=
  keyword ++ " \x7b" ++ name ++ "\x7d from \"./" ++ name ++ "\";"

def importLine (name : String) : String := linkLine "import" name

def exportLine (name : String) : String := linkLine "export" name

/-- The lines of the module that exports all named ones. -/
def barrelLines (names : List String) : List String := names.map exportLine

/-- The names that the text of a declaration has to import: those its readable properties refer to,
apart from its own, each once. -/
def importNames (d : Declaration) : List String :=
  (d.readable.flatMap fun p => references p.type).foldl
    (fun names n => if n = d.name ∨ n ∈ names then names else names ++ [n]) []

/-- The import statements and the blank line after them. -/
def importBlock (d : Declaration) : List String :=
  match importNames d with
  | [] => []
  | names => names.map importLine ++ [""]

def propertyLine (p : Property) : String := "  " ++ p.tsName ++ ": " ++ typeText p.type ++ ";"

def memberLine (m : Member) : String := "  " ++ m.name ++ " = " ++ toString m.value ++ ","

/-- The lines of one declaration, without what is nested in it. -/
def ownLines (d : Declaration) : List String :=
  match d.shape with
  | .enumeration ms =>
    ["export enum " ++ d.name ++ " \x7b"] ++ ms.map memberLine ++ ["\x7d"]
  | _ =>
    importBlock d ++ ["export interface " ++ d.name ++ " \x7b"] ++ d.readable.map propertyLine ++
      ["\x7d"]

/-- The lines of a declaration's module. A blank line stands between two declarations. -/
def declarationLines (d : Declaration) : List String :=
  [""].intercalate (d.flatten.map ownLines)

/-- The name of a declaration's module file. -/
def fileName (name : String) : String := name ++ ".ts"

end TypeExport.Output
