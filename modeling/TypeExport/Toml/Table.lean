import TypeExport.Data.Node
import TypeExport.Toml.Text

/-!
# Tables

A TOML text builds its tables by paths. `Table.update` changes the table at the end of a path and
makes the tables on the way that are missing. `Table.define` adds a value under a dotted key,
`Table.addSection` a header's table with its values. Each table remembers what it was made by, since a header
and a dotted key must not define the same table.
-/

namespace TypeExport.Toml

open Data

/-- What a table was made by. -/
inductive Origin where
  /-- A header of its own, or the beginning of the text. -/
  | header
  /-- The header of a table inside it. -/
  | path
  /-- A dotted key. -/
  | dotted
  deriving DecidableEq, Repr

mutual

/-- A table that is being built. -/
inductive Table where
  | mk (origin : Origin) (entries : List (String × Item))

/-- An entry of a table. -/
inductive Item where
  | value (n : Node)
  | table (t : Table)
  /-- The tables of the headers with double brackets. -/
  | tables (ts : List Table)

end

instance : Inhabited Table := ⟨.mk .header []⟩

namespace Table

def origin : Table → Origin
  | .mk o _ => o

def entries : Table → List (String × Item)
  | .mk _ es => es

def empty (o : Origin) : Table := .mk o []

def get? (t : Table) (key : String) : Option Item :=
  (t.entries.find? (·.1 == key)).map (·.2)

/-- Sets an entry: a new one goes to the end. -/
def set (t : Table) (key : String) (item : Item) : Table :=
  .mk t.origin <|
    if t.entries.any (·.1 == key) then
      t.entries.map fun e => if e.1 == key then (key, item) else e
    else t.entries ++ [(key, item)]

def erase (t : Table) (key : String) : Table :=
  .mk t.origin (t.entries.filter fun e => !(e.1 == key))

/-- A dotted key may go on into a table that no header made. -/
def accepts (t : Table) (dotted : Bool) : Bool := !(dotted && t.origin == .header)

/-- Changes the table at the end of a path. The path of a header goes on into the last of several
tables. -/
def update (dotted : Bool) : List String → (Table → Option Table) → Table → Option Table
  | [], f, t => f t
  | k :: ks, f, t => do
    let item ← match t.get? k with
      | none => (update dotted ks f (empty (if dotted then .dotted else .path))).map .table
      | some (.value _) => none
      | some (.table inner) =>
        if inner.accepts dotted then (update dotted ks f inner).map .table else none
      | some (.tables ts) => match ts.reverse with
        | [] => none
        | last :: before =>
          (update dotted ks f last).map fun t => .tables (before.reverse ++ [t])
    some (t.set k item)

/-- Adds a value under a key that is not in use. A table that a header made takes only keys without
dots, and a table that a dotted key made only dotted ones. -/
def insert (isDotted : Bool) (key : String) (n : Node) (t : Table) : Option Table :=
  if (t.origin == .dotted) != isDotted || (t.get? key).isSome then none
  else some (t.set key (.value n))

/-- A value under a dotted key. -/
structure Entry where
  path : List String
  key : String
  node : Node

/-- Adds a value under a dotted key. -/
def define (t : Table) (e : Entry) : Option Table :=
  t.update (!e.path.isEmpty) e.path (insert (!e.path.isEmpty) e.key e.node)

/-- Adds values under dotted keys. -/
def defineAll (t : Table) (es : List Entry) : Option Table := es.foldlM define t

/-! ## Sections -/

/-- What stands at the beginning of a section. -/
inductive Header where
  /-- The beginning of the text. -/
  | root
  /-- A table in single brackets. -/
  | single (path : List String) (key : String)
  /-- A further table of several, in double brackets. -/
  | further (path : List String) (key : String)

/-- A header and the values below it. -/
structure Section where
  header : Header
  entries : List Entry

/-- The table of a section, as a new entry of the table around it. A table that was only on the way
to others is taken up and gets its place anew. -/
def addSingle (key : String) (es : List Entry) (around : Table) : Option Table :=
  match around.get? key with
  | none => do some (around.set key (.table (← (empty .header).defineAll es)))
  | some (.table t) =>
    if t.origin = .path then do
      some ((around.erase key).set key (.table (← (mk .header t.entries).defineAll es)))
    else none
  | some _ => none

/-- The table of a section, as the last of several. -/
def addFurther (key : String) (es : List Entry) (around : Table) : Option Table := do
  let t ← (empty .header).defineAll es
  match around.get? key with
  | none => some (around.set key (.tables [t]))
  | some (.tables ts) => some (around.set key (.tables (ts ++ [t])))
  | some _ => none

/-- Adds a section to the table of the whole text. -/
def addSection (t : Table) (s : Section) : Option Table :=
  match s.header with
  | .root => t.defineAll s.entries
  | .single path key => t.update false path (addSingle key s.entries)
  | .further path key => t.update false path (addFurther key s.entries)

/-! ## Trees of data -/

mutual

/-- The tree of data of a table. -/
def toNode : Table → Node
  | .mk _ es => .map (entryNodes es)

def entryNodes : List (String × Item) → List MapEntry
  | [] => []
  | (k, item) :: es => (.ok k, itemNode item) :: entryNodes es

def itemNode : Item → Node
  | .value n => n
  | .table t => t.toNode
  | .tables ts => .seq (tableNodes ts)

def tableNodes : List Table → List Node
  | [] => []
  | t :: ts => t.toNode :: tableNodes ts

end

end Table

end TypeExport.Toml
