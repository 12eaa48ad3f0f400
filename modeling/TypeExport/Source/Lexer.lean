import TypeExport.Source.Lexeme

/-!
# From source texts to tokens

`Token.scan` cuts a source text into tokens. Blanks and comments separate tokens; a documentation
comment stands for an attribute with its text. First the text is cut into pieces
(`Source.pieces`), then the pieces between two brackets become a group (`Source.trees`).
-/

namespace TypeExport.Source

/-! ## Blanks and comments -/

/-- A blank; the marks of the writing direction are blanks too. -/
def isBlank (c : Char) : Bool := Text.isBlank c || c == '\u200e' || c == '\u200f'

/-- The rest of a line, and the text after it from the line end on. -/
def line (done : List Char) : List Char → List Char × List Char
  | [] => (done.reverse, [])
  | '\n' :: cs => (done.reverse, '\n' :: cs)
  | '\r' :: '\n' :: cs => (done.reverse, '\n' :: cs)
  | c :: cs => line (c :: done) cs

/-- The text of a comment in brackets after its first opening bracket, without the closing one.
Comments may be nested; `depth` of them are open inside the first. -/
def blockComment (depth : Nat) (done : List Char) : List Char → Option (List Char × List Char)
  | '/' :: '*' :: cs => blockComment (depth + 1) ('*' :: '/' :: done) cs
  | '*' :: '/' :: cs =>
    match depth with
    | 0 => some (done.reverse, cs)
    | depth + 1 => blockComment depth ('/' :: '*' :: done) cs
  | c :: cs => blockComment depth (c :: done) cs
  | [] => none

/-- A comment that documents something. -/
inductive Comment where
  | plain
  /-- The documentation of what follows. -/
  | outer (text : List Char)
  /-- The documentation of what the comment stands in. -/
  | inner (text : List Char)

/-- The comment at the beginning of a text. -/
def comment? : List Char → Option (Comment × List Char)
  | '/' :: '/' :: '!' :: cs => some (.inner (line [] cs).1, (line [] cs).2)
  | '/' :: '/' :: '/' :: '/' :: cs => some (.plain, (line [] cs).2)
  | '/' :: '/' :: '/' :: cs => some (.outer (line [] cs).1, (line [] cs).2)
  | '/' :: '/' :: cs => some (.plain, (line [] cs).2)
  | '/' :: '*' :: '*' :: '/' :: cs => some (.plain, cs)
  | '/' :: '*' :: '!' :: cs => (blockComment 0 [] cs).map fun (t, rest) => (.inner t, rest)
  | '/' :: '*' :: '*' :: '*' :: cs =>
    (blockComment 0 [] ('*' :: '*' :: cs)).map fun (_, rest) => (.plain, rest)
  | '/' :: '*' :: '*' :: cs => (blockComment 0 [] cs).map fun (t, rest) => (.outer t, rest)
  | '/' :: '*' :: cs => (blockComment 0 [] cs).map fun (_, rest) => (.plain, rest)
  | _ => none

/-- Every carriage return stands before a line feed. -/
def hasPairedReturns : List Char → Bool
  | '\r' :: '\n' :: cs => hasPairedReturns cs
  | '\r' :: _ => false
  | _ :: cs => hasPairedReturns cs
  | [] => true

/-! ## Pieces -/

/-- A part of a source text. -/
inductive Piece where
  | leaf (t : Token)
  | opening (d : Delimiter)
  | closing (d : Delimiter)

def Delimiter.ofOpening? : Char → Option Delimiter
  | '(' => some .paren
  | '[' => some .bracket
  | '{' => some .brace
  | _ => none

def Delimiter.ofClosing? : Char → Option Delimiter
  | ')' => some .paren
  | ']' => some .bracket
  | '}' => some .brace
  | _ => none

/-- A punctuation character at the beginning of a text, unless a comment begins there. -/
def startsWithMark : List Char → Bool
  | '/' :: '/' :: _ => false
  | '/' :: '*' :: _ => false
  | c :: _ => "~!@#$%^&*-=+|;:,<.>/?'".toList.contains c
  | [] => false

/-- A lifetime after its mark. Another mark right after it would make it a character literal, and a
hash sign a raw identifier. -/
def lifetime (cs : List Char) : Option (Token × List Char) := do
  let (name, rest) ← anyIdentifier cs
  match rest with
  | '\'' :: _ => none
  | '#' :: _ => if ['r', '#'].isPrefixOf cs then some (.lifetime (String.ofList name), rest) else none
  | _ => some (.lifetime (String.ofList name), rest)

/-- The attribute that a documentation comment stands for. -/
def docAttribute (isInner : Bool) (text : List Char) : List Piece :=
  [.leaf (.mark '#' false)] ++ (if isInner then [.leaf (.mark '!' false)] else []) ++
    [.leaf (.group .bracket
      [.word "doc", .mark '=' false, .literal (.text (String.ofList text))])]

/-- The piece at the beginning of a text that is no blank, no comment and no bracket. -/
def leaf (cs : List Char) : Option (Token × List Char) :=
  match literal cs with
  | some (l, rest) => some (.literal l, rest)
  | none => match cs with
    | '\'' :: rest => lifetime rest
    | c :: rest =>
      if startsWithMark cs then some (.mark c (startsWithMark rest), rest)
      else (word cs).map fun (name, rest) => (.word (String.ofList name), rest)
    | [] => none

/-- The pieces of a text. `fuel` is more than its length. -/
def pieces : Nat → List Char → Option (List Piece)
  | 0, _ => none
  | fuel + 1, cs => match cs with
    | [] => some []
    | c :: rest =>
      if isBlank c then pieces fuel rest
      else match comment? cs with
        | some (.plain, rest) => pieces fuel rest
        | some (.outer text, rest) =>
          if hasPairedReturns text then do some (docAttribute false text ++ (← pieces fuel rest))
          else none
        | some (.inner text, rest) =>
          if hasPairedReturns text then do some (docAttribute true text ++ (← pieces fuel rest))
          else none
        | none => match Delimiter.ofOpening? c, Delimiter.ofClosing? c with
          | some d, _ => do some (.opening d :: (← pieces fuel rest))
          | none, some d => do some (.closing d :: (← pieces fuel rest))
          | none, none => do
            let (t, rest) ← leaf cs
            some (.leaf t :: (← pieces fuel rest))

/-! ## Trees -/

/-- The tokens of pieces. `done` holds the tokens of the innermost open group and `stack` the groups
around it with their tokens, each last one first. -/
def trees (done : List Token) (stack : List (Delimiter × List Token)) :
    List Piece → Option (List Token)
  | [] => if stack.isEmpty then some done.reverse else none
  | .leaf t :: ps => trees (t :: done) stack ps
  | .opening d :: ps => trees [] ((d, done) :: stack) ps
  | .closing d :: ps => match stack with
    | (d', outer) :: stack =>
      if d = d' then trees (.group d done.reverse :: outer) stack ps else none
    | [] => none

/-- A byte order mark does not count at the beginning. -/
def skipByteOrderMark : List Char → List Char
  | '\ufeff' :: cs => cs
  | cs => cs

/-- The tokens of a text. -/
def Token.scan (cs : List Char) : Option (List Token) := do
  let cs := skipByteOrderMark cs
  trees [] [] (← pieces (cs.length + 1) cs)

/-! ## The first line -/

/-- The text after blanks and plain comments. `fuel` is more than its length. -/
def skipPlain : Nat → List Char → List Char
  | 0, cs => cs
  | fuel + 1, cs => match cs with
    | [] => []
    | c :: rest =>
      if isBlank c then skipPlain fuel rest
      else match comment? cs with
        | some (.plain, rest) => skipPlain fuel rest
        | _ => cs

/-- A first line that names an interpreter does not count. Such a line begins like an inner attribute,
but no bracket follows. -/
def skipInterpreter : List Char → List Char
  | '#' :: '!' :: cs => match skipPlain (cs.length + 1) cs with
    | '[' :: _ => '#' :: '!' :: cs
    | _ => cs.dropWhile (· != '\n')
  | cs => cs

/-- The tokens of a file. -/
def Token.ofFile (text : String) : Option (List Token) :=
  Token.scan (skipInterpreter (skipByteOrderMark text.toList))

end TypeExport.Source
