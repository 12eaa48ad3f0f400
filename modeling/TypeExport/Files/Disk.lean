import TypeExport.Files.Access
import TypeExport.Files.Lines
import TypeExport.Files.Path

/-!
# Disks

A `Disk` is a file system as a value: what stands at each place, and the place where relative paths
begin. A place is the list of names that lead to it from the root directory. `Disk.target` follows a
path to its end; `Disk.access` are the accesses to a disk.

A path is followed name by name, and each name but the last has to lead to a directory. Two dots lead
upwards, and above the root there is the root.
-/

namespace TypeExport

/-- What stands at a place. -/
inductive DiskItem where
  | file (content : ByteArray)
  | directory
  deriving Inhabited

def DiskItem.isDirectory : DiskItem → Bool
  | .file _ => false
  | .directory => true

/-- The names that lead to a place from the root directory. -/
abbrev Place := List String

structure Disk where
  items : List (Place × DiskItem) := []
  /-- The directory where relative paths begin. -/
  home : Place := []

namespace Disk

/-- What stands at a place. The root directory is always there. -/
def get? (d : Disk) (p : Place) : Option DiskItem :=
  if p.isEmpty then some .directory else (d.items.find? (·.1 == p)).map (·.2)

/-- Puts something at a place, instead of what stood there. -/
def put (d : Disk) (p : Place) (item : DiskItem) : Disk :=
  if d.items.any (·.1 == p) then
    { d with items := d.items.map fun i => if i.1 == p then (p, item) else i }
  else { d with items := d.items ++ [(p, item)] }

/-! ## Following paths -/

/-- The greatest length of a name, in bytes. -/
def maxNameSize : Nat := 255

/-- Paths are shorter than this, in bytes. -/
def pathSizeLimit : Nat := 4096

/-- The place of a name in a directory. -/
def child (here : Place) (name : String) : Except OsError Place :=
  if name == "." then .ok here
  else if name == ".." then .ok here.dropLast
  else if maxNameSize < name.utf8ByteSize then .error .nameTooLong
  else .ok (here ++ [name])

/-- Goes from a directory to the directory with a name. -/
def enter (d : Disk) (here : Place) (name : String) : Except OsError Place := do
  let p ← child here name
  match d.get? p with
  | some .directory => .ok p
  | some (.file _) => .error .notDirectory
  | none => .error .notFound

/-- The end of a path: a place, and what stands there. -/
structure Target where
  place : Place
  item : Option DiskItem

/-- Follows names from a directory. -/
def follow (d : Disk) (here : Place) (names : List String) : Except OsError Target :=
  match names.getLast? with
  | none => .ok ⟨here, d.get? here⟩
  | some name => do
    let p ← child (← names.dropLast.foldlM d.enter here) name
    .ok ⟨p, d.get? p⟩

/-- Follows a path to its end. Something stands there or could stand there. -/
def target (d : Disk) (path : String) : Except OsError Target :=
  if Text.hasChar '\x00' path then .error .badPath
  else if path.isEmpty then .error .notFound
  else if pathSizeLimit ≤ path.utf8ByteSize then .error .nameTooLong
  else d.follow (if Path.isAbsolute path then [] else d.home) (Path.parts path)

/-- What stands at the end of a path. The path of a file does not end with a separator. -/
def item? (d : Disk) (path : String) : Except OsError DiskItem := do
  match (← d.target path).item with
  | some (.file content) =>
    if Path.isClosed path then .error .notDirectory else .ok (.file content)
  | some .directory => .ok .directory
  | none => .error .notFound

/-! ## Accesses -/

def pathExists (d : Disk) (path : String) : Bool := (d.item? path).toBool

def isDirectory (d : Disk) (path : String) : Bool :=
  match d.item? path with
  | .ok item => item.isDirectory
  | .error _ => false

/-- The content of a file. -/
def read (d : Disk) (path : String) : Except OsError ByteArray := do
  match ← d.item? path with
  | .directory => .error .isDirectory
  | .file content => .ok content

def readText (d : Disk) (path : String) : Except OsError String := do
  match String.fromUTF8? (← d.read path) with
  | some s => .ok s
  | none => .error .notText

def readLines (d : Disk) (path : String) : Except OsError (List String) :=
  (d.read path).map textLines

/-- Makes one directory. -/
def makeDirectory (d : Disk) (path : String) : Except OsError Disk := do
  let t ← d.target path
  match t.item with
  | some _ => .error .alreadyExists
  | none => .ok (d.put t.place .directory)

/-- Makes the directories of the paths, the first one last. What is there already stays. -/
def makeAll (d : Disk) : List String → Except OsError Unit × Disk
  | [] => (.ok (), d)
  | path :: above =>
    match d.makeDirectory path with
    | .ok d => (.ok (), d)
    | .error .notFound => match makeAll d above with
      | (.ok (), d) => match d.makeDirectory path with
        | .ok d => (.ok (), d)
        | .error e => (if d.isDirectory path then .ok () else .error e, d)
      | (.error e, d) => (.error e, d)
    | .error e => (if d.isDirectory path then .ok () else .error e, d)

/-- Writes a file. -/
def writeFile (d : Disk) (path : String) (content : ByteArray) : Except OsError Disk := do
  let t ← d.target path
  match t.item with
  | some .directory => .error .isDirectory
  | _ => if Path.isClosed path then .error .isDirectory else .ok (d.put t.place (.file content))

/-- The names in a directory with what stands there. -/
def contents (d : Disk) (here : Place) : List DirEntry :=
  d.items.filterMap fun (p, item) =>
    match p.getLast? with
    | some name => if p.dropLast == here then some ⟨name, item.isDirectory⟩ else none
    | none => none

def listDirectory (d : Disk) (path : String) : Except OsError (List DirEntry) := do
  let t ← d.target path
  match t.item with
  | some .directory => .ok (d.contents t.place)
  | some (.file _) => .error .notDirectory
  | none => .error .notFound

/-- An access that may change the disk. -/
def change (f : Disk → Except OsError Disk) : StateM Disk (Except OsError Unit) := fun d =>
  match f d with
  | .ok d' => (.ok (), d')
  | .error e => (.error e, d)

/-- The accesses to a disk. -/
def access : FileAccess (StateM Disk) where
  home := do return Path.ofNames true (← get).home
  pathExists path := do return (← get).pathExists path
  isDirectory path := do return (← get).isDirectory path
  readText path := do return (← get).readText path
  readLines path := do return (← get).readLines path
  createDirectories path := fun d => d.makeAll (Path.ancestors path)
  writeText path text := change (·.writeFile path text.toUTF8)
  list path := do return (← get).listDirectory path

end Disk

end TypeExport
