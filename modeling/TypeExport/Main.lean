import TypeExport.Command.Program
import TypeExport.Files.Lines

/-!
# The command line program

`main` runs `Program.run` on the file system of the computer.
-/

namespace TypeExport

/-- The fault behind an error of an access. -/
def OsError.ofError : IO.Error → OsError
  | .noFileOrDirectory .. | .noSuchThing .. => .notFound
  | .inappropriateType _ code _ => if code = 21 then .isDirectory else .notDirectory
  | .alreadyExists .. => .alreadyExists
  | .invalidArgument (some _) code details => if code = 36 then .nameTooLong else .other details
  | e => .other (toString e)

/-- The result of an access. -/
def attemptAccess {α : Type} (access : IO α) : IO (Except OsError α) := do
  match ← access.toBaseIO with
  | .ok a => return .ok a
  | .error e => return .error (.ofError e)

/-- The place that a path leads to. -/
def located (path : String) := (· / path) <$> IO.currentDir

/-- The content of a file. -/
def readFile (path : String) : IO (Except OsError ByteArray) := do
  if ← (← located path).isDir then return .error .isDirectory
  attemptAccess (IO.FS.readBinFile path)

/-- The text of a file. -/
def readTextFile (path : String) : IO (Except OsError String) := do
  match ← readFile path with
  | .error e => return .error e
  | .ok content => match String.fromUTF8? content with
    | some text => return .ok text
    | none => return .error .notText

/-- The accesses to the file system of the computer. -/
def systemFiles : FileAccess IO where
  home := do return (← IO.currentDir).toString
  pathExists path := do (← located path).pathExists
  isDirectory path := do (← located path).isDir
  readText := readTextFile
  readLines path := do return (← readFile path).map textLines
  createDirectories path := attemptAccess (IO.FS.createDirAll path)
  writeText path text := attemptAccess (IO.FS.writeFile path text)
  list path := attemptAccess do
    let entries ← (← located path).readDir
    entries.toList.mapM fun e => do return ⟨e.fileName, ← e.path.isDir⟩

/-- The variables of the environment of this process. -/
def systemEnvironment : IO Placeholder.Environment := do
  match ← readTextFile "/proc/self/environ" with
  | .error _ => return fun _ => none
  | .ok text =>
    let pairs := (text.toList.splitOn '\x00').map fun entry => entry.span (· != '=')
    return fun name =>
      (pairs.find? (·.1 == name.toList)).map fun p => String.ofList (p.2.drop 1)

end TypeExport

open TypeExport in
def main (arguments : List String) : IO UInt32 := do
  let outcome ← Program.run systemFiles (← systemEnvironment) arguments
  IO.print outcome.output
  IO.eprint outcome.errors
  return outcome.exitCode.toUInt32
