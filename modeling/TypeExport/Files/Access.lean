/-!
# Access to files

`FileAccess m` is what the library asks of a file system, as actions of a monad `m`. Each action can
fail with an `OsError`. Two file systems provide it: the one of the computer and `Disk`, which is a
value.
-/

namespace TypeExport

/-- Why an access to a file fails. -/
inductive OsError where
  | notFound
  | notDirectory
  | isDirectory
  | alreadyExists
  | nameTooLong
  /-- The path holds a NUL character. -/
  | badPath
  /-- The file is not UTF-8. -/
  | notText
  | other (message : String)
  deriving DecidableEq, Repr

def OsError.message : OsError → String
  | .notFound => "No such file or directory (os error 2)"
  | .notDirectory => "Not a directory (os error 20)"
  | .isDirectory => "Is a directory (os error 21)"
  | .alreadyExists => "File exists (os error 17)"
  | .nameTooLong => "File name too long (os error 36)"
  | .badPath => "file name contained an unexpected NUL byte"
  | .notText => "stream did not contain valid UTF-8"
  | .other message => message

/-- A file or a directory found in a directory. -/
structure DirEntry where
  name : String
  isDirectory : Bool
  deriving DecidableEq, Repr

/-- The accesses to a file system. -/
structure FileAccess (m : Type → Type) where
  /-- The path of the directory where relative paths begin. -/
  home : m String
  pathExists : String → m Bool
  isDirectory : String → m Bool
  /-- The text of a file. -/
  readText : String → m (Except OsError String)
  /-- The lines of a file with their ends, up to the first one that is no text. -/
  readLines : String → m (Except OsError (List String))
  /-- Creates a directory and those above it. -/
  createDirectories : String → m (Except OsError Unit)
  /-- Writes a file, over an old one if there is one. -/
  writeText : String → String → m (Except OsError Unit)
  /-- What a directory holds. -/
  list : String → m (Except OsError (List DirEntry))

end TypeExport
