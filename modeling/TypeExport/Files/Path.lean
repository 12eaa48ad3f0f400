import TypeExport.Text.Segments

/-!
# Paths

Paths are texts with `/` between names.

* `Path.join`: a path below another one. An absolute path stays as it is.
* `Path.names`: the names of a path; empty ones and single dots between others do not count.
* `Path.fileName?` and `Path.extension?`: the last name and its extension. A dot at the beginning of a
  name starts no extension.
-/

namespace TypeExport.Path

/-- The path of a name inside a directory. -/
def join (dir name : String) : String :=
  match name.toList, dir.toList.getLast? with
  | '/' :: _, _ => name
  | _, none => name
  | _, some '/' => dir ++ name
  | _, some _ => dir ++ "/" ++ name

def isAbsolute (path : String) : Bool := path.toList.head? == some '/'

/-- The path ends with a separator. -/
def isClosed (path : String) : Bool := path.toList.getLast? == some '/'

/-- The parts between separators, empty ones left out. -/
def parts (path : String) : List String :=
  ((path.toList.splitOn '/').filter fun p => !p.isEmpty).map String.ofList

/-- The names of a path. A single dot is a name only at the beginning of a relative path. -/
def names (path : String) : List String :=
  match parts path with
  | [] => []
  | p :: ps =>
    (if p == "." && isAbsolute path then [] else [p]) ++ ps.filter fun q => !(q == ".")

/-- The last name, unless it leads upwards. -/
def fileName? (path : String) : Option String :=
  match (names path).getLast? with
  | some "." | some ".." | none => none
  | some n => some n

/-- The position of the dot before the extension of a name: the text before and after it. -/
def splitName (name : String) : String × Option String :=
  let after := Text.afterLast (· == '.') name.toList
  let before := name.toList.take (name.toList.length - after.length - 1)
  if name == ".." || after.length = name.toList.length || before.isEmpty then (name, none)
  else (String.ofList before, some (String.ofList after))

/-- A name with its extension taken off, and the dot before it as well. Two dots stay as they are. -/
def withoutExtension (name : String) : String :=
  match splitName name with
  | (".", some _) => ".."
  | (stem, _) => stem

/-- The extension of the last name. -/
def extension? (path : String) : Option String :=
  (fileName? path).bind fun n => (splitName n).2

/-- The path of names. -/
def ofNames (isAbsolute : Bool) (names : List String) : String :=
  (if isAbsolute then "/" else "") ++ String.intercalate "/" names

/-- The paths of names, last one first, and of the names above them, the longest first. -/
def upwards (isAbsolute : Bool) : List String → List String
  | [] => if isAbsolute then ["/"] else []
  | n :: ns => ofNames isAbsolute (n :: ns).reverse :: upwards isAbsolute ns

/-- The path and the paths above it, the longest first. The empty path is left out. -/
def ancestors (path : String) : List String :=
  match (names path).reverse with
  | [] => if path.isEmpty then [] else [path]
  | _ :: above => path :: upwards (isAbsolute path) above

end TypeExport.Path
