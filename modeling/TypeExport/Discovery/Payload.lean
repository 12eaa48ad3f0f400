import TypeExport.TypeExpr.Basic

/-!
# Payloads

The payload of a type expression is what is left when the arrays, sequences and operation results
around it are taken off. `TypeExpr.payload` takes off at most `maxUnwrapDepth` of them.
-/

namespace TypeExport

/-- Why a type expression has no payload. -/
inductive PayloadFault where
  /-- A wrapper that cannot be taken off, or that has no argument. -/
  | unsupportedShape
  /-- More wrappers than the limit. -/
  | tooDeep
  deriving DecidableEq, Repr

/-- The number of wrappers that may be taken off one type expression. -/
def maxUnwrapDepth : Nat := 32

/-- A generic type with this wrapper is unwrapped to its first argument. -/
def Wrapper.isTransparent : Wrapper → Bool
  | .task | .enumerable | .collection => true
  | _ => false

namespace TypeExpr

/-- The payload under at most `steps` wrappers. -/
def payloadWithin : Nat → TypeExpr → Except PayloadFault TypeExpr
  | _, .primitive p => .ok (.primitive p)
  | _, .named n => .ok (.named n)
  | 0, .array _ => .error .tooDeep
  | steps + 1, .array e => payloadWithin steps e
  | steps, .generic w args =>
    if w.isTransparent then
      match args, steps with
      | [], _ => .error .unsupportedShape
      | _ :: _, 0 => .error .tooDeep
      | t :: _, steps + 1 => payloadWithin steps t
    else .error .unsupportedShape

/-- The payload of a type expression. -/
def payload (t : TypeExpr) : Except PayloadFault TypeExpr := payloadWithin maxUnwrapDepth t

end TypeExpr

end TypeExport
