import TypeExport.TypeExpr.Primitive
import TypeExport.TypeExpr.Wrapper

/-!
# Type expressions

`TypeExpr` is a use of a type: the declared type of a property or the result of an endpoint.
Declarations are referred to by name, so models with cycles stay finite. `TypeExpr.display` is the
text of an expression; `TypeExpr.parse` (module `Parser`) reads it back.
-/

namespace TypeExport

/-- A use of a type. -/
inductive TypeExpr where
  | primitive (p : Primitive)
  /-- A declared type, by its simple or qualified name. -/
  | named (name : String)
  | array (element : TypeExpr)
  | generic (wrapper : Wrapper) (args : List TypeExpr)
  deriving Repr, Inhabited

namespace TypeExpr

/-! ## Equality -/

mutual

/-- Equality of type expressions is decided part by part. -/
def decEq : (a b : TypeExpr) → Decidable (a = b)
  | .primitive p, .primitive q =>
    if h : p = q then isTrue (by rw [h]) else isFalse (by simp [h])
  | .named m, .named n => if h : m = n then isTrue (by rw [h]) else isFalse (by simp [h])
  | .array a, .array b => match decEq a b with
    | isTrue h => isTrue (by rw [h])
    | isFalse h => isFalse (by simp [h])
  | .generic v as, .generic w bs =>
    if h : v = w then match decEqList as bs with
      | isTrue hs => isTrue (by rw [h, hs])
      | isFalse hs => isFalse (by simp [hs])
    else isFalse (by simp [h])
  | .primitive _, .named _ | .primitive _, .array _ | .primitive _, .generic _ _
  | .named _, .primitive _ | .named _, .array _ | .named _, .generic _ _
  | .array _, .primitive _ | .array _, .named _ | .array _, .generic _ _
  | .generic _ _, .primitive _ | .generic _ _, .named _ | .generic _ _, .array _ =>
    isFalse (by simp)

def decEqList : (as bs : List TypeExpr) → Decidable (as = bs)
  | [], [] => isTrue rfl
  | a :: as, b :: bs => match decEq a b, decEqList as bs with
    | isTrue h, isTrue hs => isTrue (by rw [h, hs])
    | isFalse h, _ => isFalse (by simp [h])
    | _, isFalse hs => isFalse (by simp [hs])
  | [], _ :: _ | _ :: _, [] => isFalse (by simp)

end

instance : DecidableEq TypeExpr := decEq

/-! ## Parts -/

def isPrimitive : TypeExpr → Bool
  | .primitive _ => true
  | _ => false

def isGeneric : TypeExpr → Bool
  | .generic _ _ => true
  | _ => false

/-- The primitive that the expression is. -/
def primitive? : TypeExpr → Option Primitive
  | .primitive p => some p
  | _ => none

/-- The expression for a value that may be absent. Only a primitive value type needs the wrapper:
all other types have an absent value already. -/
def optional : TypeExpr → TypeExpr
  | .primitive p => if p.isValueType then .generic .nullable [.primitive p] else .primitive p
  | t => t

/-- The element type of an array or of a sequence. -/
def element? : TypeExpr → Option TypeExpr
  | .array e => some e
  | .generic w args => if w.isSequence then args.head? else none
  | _ => none

/-- The type under a nullable wrapper, unless it is a primitive that has an absent value anyway. -/
def nullableValue? : TypeExpr → Option TypeExpr
  | .generic .nullable (.primitive p :: _) => if p.isValueType then some (.primitive p) else none
  | .generic .nullable (t :: _) => some t
  | _ => none

/-! ## Texts -/

/-- The name without qualifiers and arguments. -/
def simpleName : TypeExpr → String
  | .primitive p => p.name
  | .named n => Text.simpleName n
  | .array e => e.simpleName ++ "[]"
  | .generic w _ => Text.simpleName w.name

mutual

/-- The text of the expression. -/
def display : TypeExpr → String
  | .primitive p => p.name
  | .named n => n
  | .array e => e.display ++ "[]"
  | .generic w args => w.name ++ "<" ++ displayArgs args ++ ">"

/-- The texts of arguments, separated by commas. -/
def displayArgs : List TypeExpr → String
  | [] => ""
  | [t] => t.display
  | t :: ts => t.display ++ ", " ++ displayArgs ts

end

end TypeExpr

end TypeExport
