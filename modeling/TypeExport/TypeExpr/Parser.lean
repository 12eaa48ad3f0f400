import TypeExport.Text.Alphanumeric
import TypeExport.Text.Blank
import TypeExport.TypeExpr.Basic

/-!
# Reading type expressions

A text is cut into words and marks (`TypeExpr.Token.scan`), blanks separating words. The reader is a
machine over tokens: `Reader.step` takes one token, `Reader.finish` the end of the text, and
`TypeExpr.parse` runs it. The stack of a state holds the generic types whose closing mark has not
been read yet, innermost first.
-/

namespace TypeExport.TypeExpr

/-! ## Tokens -/

/-- A character of a name: a letter, a numeral, an underscore or a separator. -/
def isNameChar (c : Char) : Bool :=
  Text.isAlphanumeric c || c == '_' || c == '.' || c == ':'

/-- A part of a type expression's text. -/
inductive Token where
  /-- The longest run of name characters. -/
  | word (first : Char) (rest : List Char)
  /-- Any other character that is not a blank. -/
  | mark (c : Char)
  deriving DecidableEq, Repr

namespace Token

/-- The token's first character. -/
def first : Token → Char
  | .word c _ => c
  | .mark c => c

/-- Puts a character in front of a scanned text. The flag says whether the text begins with a
word. -/
def push (c : Char) : List Token × Bool → List Token × Bool
  | (ts, joins) =>
    if Text.isBlank c then (ts, false)
    else if isNameChar c then
      match joins, ts with
      | true, .word d ds :: rest => (.word c (d :: ds) :: rest, true)
      | _, _ => (.word c [] :: ts, true)
    else (.mark c :: ts, false)

/-- The tokens of a text. -/
def scan (cs : List Char) : List Token := (cs.foldr push ([], false)).1

end Token

/-! ## Errors -/

/-- Why a text is no type expression. -/
inductive Reason where
  /-- A character after the end of the expression. -/
  | unexpected (c : Char)
  /-- Another character, or the end of the text, where a mark has to stand. -/
  | expected (wanted : Char) (found : Option Char)
  /-- No name where a type has to begin. -/
  | noName
  /-- A wrapper with another number of arguments than it takes. -/
  | arity (name : String) (takes found : Nat)
  deriving DecidableEq, Repr

def Reason.message : Reason → String
  | .unexpected c => "unexpected `" ++ c.toString ++ "`"
  | .expected w (some c) => "expected `" ++ w.toString ++ "`, found `" ++ c.toString ++ "`"
  | .expected w none => "expected `" ++ w.toString ++ "`, found end of input"
  | .noName => "expected a type name"
  | .arity n takes found =>
    "`" ++ n ++ "` takes " ++ toString takes ++ " type argument(s), found " ++ toString found

/-- A text that is no type expression. -/
structure ParseError where
  text : String
  reason : Reason
  deriving DecidableEq, Repr

def ParseError.message (e : ParseError) : String :=
  "Invalid type expression `" ++ e.text ++ "`: " ++ e.reason.message

/-! ## The machine -/

/-- A generic type whose closing mark has not been read: its name, and its finished arguments, last
one first. -/
structure Frame where
  name : String
  args : List TypeExpr
  deriving Repr

/-- What has been read, and what may follow. -/
inductive Reader where
  /-- A type has to begin. -/
  | start (stack : List Frame)
  /-- A name has been read: arguments or a suffix may follow. -/
  | name (stack : List Frame) (name : String)
  /-- A type has been read: a suffix may follow. -/
  | type (stack : List Frame) (t : TypeExpr)
  /-- An opening bracket has been read after a type. -/
  | bracket (stack : List Frame) (t : TypeExpr)
  deriving Repr

/-- The type that a name without arguments denotes. -/
def ofName (name : String) : TypeExpr :=
  match Primitive.ofName? name with
  | some p => .primitive p
  | none => .named name

/-- The generic type that a name denotes with arguments. -/
def instantiate (name : String) (args : List TypeExpr) : Except Reason TypeExpr :=
  match (Wrapper.ofName name).arity? with
  | some n =>
    if n = args.length then .ok (.generic (Wrapper.ofName name) args)
    else .error (.arity name n args.length)
  | none => .ok (.generic (Wrapper.ofName name) args)

namespace Reader

/-- A token after a complete type. -/
def afterType : List Frame → TypeExpr → Token → Except Reason Reader
  | stack, t, .mark '[' => .ok (.bracket stack t)
  | stack, t, .mark '?' => .ok (.type stack t.optional)
  | f :: stack, t, .mark ',' => .ok (.start ({ f with args := t :: f.args } :: stack))
  | f :: stack, t, .mark '>' => (instantiate f.name (t :: f.args).reverse).map (.type stack)
  | [], _, tok => .error (.unexpected tok.first)
  | _ :: _, _, tok => .error (.expected '>' (some tok.first))

/-- One token. -/
def step : Reader → Token → Except Reason Reader
  | .start stack, .word c cs => .ok (.name stack (String.ofList (c :: cs)))
  | .start _, .mark _ => .error .noName
  | .name stack n, .mark '<' => .ok (.start (⟨n, []⟩ :: stack))
  | .name stack n, tok => afterType stack (ofName n) tok
  | .type stack t, tok => afterType stack t tok
  | .bracket stack t, .mark ']' => .ok (.type stack (.array t))
  | .bracket _ _, tok => .error (.expected ']' (some tok.first))

/-- The end of the text. -/
def finish : Reader → Except Reason TypeExpr
  | .start _ => .error .noName
  | .name [] n => .ok (ofName n)
  | .type [] t => .ok t
  | .name (_ :: _) _ | .type (_ :: _) _ => .error (.expected '>' none)
  | .bracket _ _ => .error (.expected ']' none)

/-- Takes all tokens, then the end of the text. -/
def run (r : Reader) (ts : List Token) : Except Reason TypeExpr :=
  ts.foldlM step r >>= finish

end Reader

/-- Reads a type expression. -/
def parse (text : String) : Except ParseError TypeExpr :=
  match Reader.run (.start []) (Token.scan text.toList) with
  | .ok t => .ok t
  | .error reason => .error ⟨text, reason⟩

end TypeExport.TypeExpr
