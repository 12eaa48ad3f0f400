import TypeExport.Json.Fault

/-!
# Trees of data

A `Node` is what a reader of a text format hands to the decoders. Decoding goes through the text in
order and stops at the first thing wrong, be it the form of the text or its content. So a tree keeps
the faults of its text in their places: decoding meets them where reading the text would.

* `Node.broken`: the text cannot be read on from here.
* `Node.refused`: a value that may be skipped, but not used.
* `Node.tooDeep`: a container below the nesting limit.

`Node.read` looks at all of a tree, as for use; `Node.skip` only at what no reader can pass.
-/

namespace TypeExport.Data

open Json (Fault)

/-- A tree of data with the faults of its text. -/
inductive Node where
  | null
  | bool (b : Bool)
  /-- An integer of a format that tells integers without a sign apart. -/
  | unsigned (n : Nat)
  | signed (i : Int)
  | float (x : Float)
  | text (s : String)
  | seq (items : List Node)
  | map (entries : List (Except Fault String × Node))
  | tooDeep (container : Node)
  | refused (fault : Fault)
  /-- The faults of a reader that uses the value and of one that skips it. -/
  | broken (used skipped : Fault)
  deriving Inhabited

/-- An entry of a map. The key is a fault if it cannot be used. -/
abbrev MapEntry := Except Fault String × Node

namespace Node

mutual

/-- Passes over a tree. -/
def skip : Node → Except Fault Unit
  | .broken _ f => .error f
  | .tooDeep n => n.skip
  | .seq items => skipItems items
  | .map entries => skipEntries entries
  | _ => .ok ()

def skipItems : List Node → Except Fault Unit
  | [] => .ok ()
  | n :: ns => do
    n.skip
    skipItems ns

def skipEntries : List MapEntry → Except Fault Unit
  | [] => .ok ()
  | (_, n) :: es => do
    n.skip
    skipEntries es

end

mutual

/-- Looks at all of a tree. -/
def read : Node → Except Fault Unit
  | .broken f _ => .error f
  | .refused f => .error f
  | .tooDeep _ => .error .nestingLimit
  | .seq items => readItems items
  | .map entries => readEntries entries
  | _ => .ok ()

def readItems : List Node → Except Fault Unit
  | [] => .ok ()
  | n :: ns => do
    n.read
    readItems ns

def readEntries : List MapEntry → Except Fault Unit
  | [] => .ok ()
  | (.error f, _) :: _ => .error f
  | (.ok _, n) :: es => do
    n.read
    readEntries es

end

end Node

end TypeExport.Data
