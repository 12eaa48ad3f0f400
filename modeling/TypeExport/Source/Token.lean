/-!
# Tokens of source files

The tokens of Rust source files. Brackets come in pairs: what stands between them is a token of its
own, a group. So a list of tokens is a list of trees.
-/

namespace TypeExport.Source

/-- A pair of brackets. -/
inductive Delimiter where
  | paren
  | bracket
  | brace
  deriving DecidableEq, Repr

/-- A literal, as far as it can matter. -/
inductive Literal where
  | integer (value : Nat) (suffix : String)
  /-- A floating-point number as it is written. -/
  | float (text : String)
  | text (value : String)
  /-- A character, or a string of bytes. -/
  | other
  deriving DecidableEq, Repr

inductive Token where
  /-- An identifier or a keyword. A raw identifier keeps its mark. -/
  | word (name : String)
  | lifetime (name : String)
  /-- A punctuation character. It is joint if another one follows without a blank. -/
  | mark (c : Char) (joint : Bool)
  | literal (l : Literal)
  | group (d : Delimiter) (inner : List Token)
  deriving Inhabited

mutual

/-- The number of tokens in a token, itself included. -/
def Token.size : Token → Nat
  | .group _ inner => Token.totalSize inner + 1
  | _ => 1

/-- The number of tokens in a list, those in groups included. -/
def Token.totalSize : List Token → Nat
  | [] => 0
  | t :: ts => t.size + totalSize ts

end

end TypeExport.Source
