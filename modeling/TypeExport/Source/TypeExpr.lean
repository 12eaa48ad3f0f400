import TypeExport.Source.Syntax
import TypeExport.TypeExpr.Basic

/-!
# From types to type expressions

`TypeSyntax.toExpr` is the type expression for a type in a source file. References, parentheses and
owning wrappers do not show: the expression for a box is the one for its content.
-/

namespace TypeExport.Source

/-- The types of points in time. -/
def timeNames : List String := ["DateTime", "OffsetDateTime", "SystemTime"]

/-- The wrappers that only own their content. -/
def ownerNames : List String := ["Box", "Arc", "Rc", "Cow"]

/-- The type expression for a name without arguments. -/
def exprOfName (name : String) : TypeExpr :=
  if name == "Value" then .primitive .object
  else match Primitive.ofName? name with
    | some p => .primitive p
    | none => .named name

/-- The type expression for a name with arguments. A wrapper with the wrong number of them is none of
those with a fixed meaning. -/
def exprOfGeneric (name : String) (args : List TypeExpr) : TypeExpr :=
  if (Wrapper.ofName name).arity?.all (· == args.length) then .generic (Wrapper.ofName name) args
  else .generic (.custom name) args

/-- The type expression for a name with the expressions for its arguments. -/
def exprOf (name : String) (args : List TypeExpr) : TypeExpr :=
  if timeNames.contains name then .primitive .dateTimeOffset
  else match args with
    | [] => exprOfName name
    | [t] =>
      if name == "Option" then t.optional
      else if ownerNames.contains name then t
      else exprOfGeneric name [t]
    | _ => exprOfGeneric name args

mutual

/-- The type expression for a type. Only the last part of a path counts. -/
def TypeSyntax.toExpr : TypeSyntax → TypeExpr
  | .reference t => t.toExpr
  | .parens t => t.toExpr
  | .array t => .array t.toExpr
  | .slice t => .array t.toExpr
  | .tuple [] => .primitive .void
  | .tuple (_ :: _) => .primitive .object
  | .path _ _ segments => lastExpr segments
  | .bound => .primitive .object
  | .other => .primitive .object

/-- The type expression for the last part of a path. -/
def lastExpr : List Segment → TypeExpr
  | [] => .primitive .object
  | [s] => s.toExpr
  | _ :: s :: ss => lastExpr (s :: ss)

def Segment.toExpr : Segment → TypeExpr
  | .mk name args => exprOf name (argumentExprs args)

/-- The type expressions for those arguments that are types. -/
def argumentExprs : List Argument → List TypeExpr
  | [] => []
  | .type t :: as => t.toExpr :: argumentExprs as
  | .lifetime _ :: as => argumentExprs as
  | .other :: as => argumentExprs as

end

end TypeExport.Source
