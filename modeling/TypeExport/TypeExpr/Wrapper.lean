import TypeExport.Text.Segments

/-!
# Generic wrappers

The generic types that have a meaning of their own, and `custom` for all others.
`Wrapper.ofName` classifies a name by its last segment; `Wrapper.arity?` is the number of arguments
where it is fixed.
-/

namespace TypeExport

/-- What a generic type wraps its arguments into. -/
inductive Wrapper where
  /-- The result of an operation that ends later. -/
  | task
  /-- A sequence of its argument. -/
  | enumerable
  /-- The many side of a relationship. -/
  | collection
  /-- A value that may be absent. -/
  | nullable
  /-- A map from keys to values. -/
  | dictionary
  /-- Any other generic definition, by its name as written. -/
  | custom (name : String)
  deriving DecidableEq, Repr, Inhabited

namespace Wrapper

/-- The wrappers with a fixed meaning, each with the names that denote it. -/
def spellings : List (Wrapper × List String) :=
  [(.task, ["Task", "ValueTask", "Future"]),
   (.enumerable, ["IEnumerable", "IList", "List", "IReadOnlyList", "IReadOnlyCollection",
      "HashSet", "ISet", "SortedSet", "Queue", "Stack", "LinkedList", "Vec", "VecDeque",
      "BTreeSet"]),
   (.collection, ["ICollection", "Collection"]),
   (.nullable, ["Nullable", "Option"]),
   (.dictionary, ["Dictionary", "IDictionary", "IReadOnlyDictionary", "SortedDictionary",
      "HashMap", "BTreeMap"])]

/-- The wrapper that a generic definition's name denotes. -/
def ofName (name : String) : Wrapper :=
  match spellings.find? fun s => s.2.contains (Text.lastSegment name) with
  | some s => s.1
  | none => .custom name

/-- The name that type expressions show. -/
def name : Wrapper → String
  | .task => "Task"
  | .enumerable => "IEnumerable"
  | .collection => "ICollection"
  | .nullable => "Nullable"
  | .dictionary => "Dictionary"
  | .custom name => name

/-- The number of arguments, where it is fixed. -/
def arity? : Wrapper → Option Nat
  | .task | .enumerable | .collection | .nullable => some 1
  | .dictionary => some 2
  | .custom _ => none

/-- A sequence of the first argument. -/
def isSequence : Wrapper → Bool
  | .enumerable | .collection => true
  | _ => false

end Wrapper

end TypeExport
