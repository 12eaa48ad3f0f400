/-!
# Placeholders

A placeholder is a variable's name in capitals between `${` and `}`. `Placeholder.substitute` puts the
values of variables in their place. The placeholders are those of the text as it is given. One after
the other is replaced wherever it stands by then, so a placeholder in a value is replaced too if it
also stands later in the text.
-/

namespace TypeExport.Placeholder

/-- The values of variables. -/
abbrev Environment := String → Option String

/-- The first character of a variable's name. -/
def isStart (c : Char) : Bool := c.isUpper || c == '_'

/-- A further character of a variable's name. -/
def isContinue (c : Char) : Bool := isStart c || c.isDigit

/-- The placeholder of a variable. -/
def text (name : List Char) : List Char := ['$', '{'] ++ name ++ ['}']

/-- The variable of the placeholder at the beginning of a text. -/
def name? : List Char → Option (List Char)
  | '$' :: '{' :: c :: cs =>
    if isStart c then
      match cs.span isContinue with
      | (rest, '}' :: _) => some (c :: rest)
      | _ => none
    else none
  | _ => none

/-- The variables of the placeholders of a text, in their order. -/
def names : List Char → List (List Char)
  | [] => []
  | c :: cs => match name? (c :: cs) with
    | some n => n :: names cs
    | none => names cs

/-- Replaces a text wherever it occurs. `skip` characters still belong to the last occurrence. -/
def replaceAll (old new : List Char) (skip : Nat) : List Char → List Char
  | [] => []
  | c :: cs =>
    match skip with
    | skip + 1 => replaceAll old new skip cs
    | 0 =>
      if old.isPrefixOf (c :: cs) then new ++ replaceAll old new (old.length - 1) cs
      else c :: replaceAll old new 0 cs

/-- Replaces the placeholders of a variable, if it has a value. -/
def replace (env : Environment) (cs : List Char) (name : List Char) : List Char :=
  match env (String.ofList name) with
  | some value => replaceAll (text name) value.toList 0 cs
  | none => cs

/-- Puts the values of variables in the place of their placeholders. -/
def substitute (env : Environment) (s : String) : String :=
  String.ofList ((names s.toList).foldl (replace env) s.toList)

end TypeExport.Placeholder
