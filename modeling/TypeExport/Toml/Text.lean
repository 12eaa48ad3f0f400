import TypeExport.Text.HexDigit

/-!
# The characters of TOML texts

Blanks, line ends, comments, strings and keys. A reader takes the characters that are left and gives
what it read and the rest, or nothing where the text is not well formed: all errors of form are one.
-/

namespace TypeExport.Toml

/-- A reader of something at the beginning of a text. -/
abbrev Reader (α : Type) := List Char → Option (α × List Char)

/-! ## Blanks and comments -/

def isBlank (c : Char) : Bool := c == ' ' || c == '\t'

def skipBlanks (cs : List Char) : List Char := cs.dropWhile isBlank

/-- A character that may stand in a comment: no control character except the tabulator. -/
def isVisible (c : Char) : Bool := c == '\t' || (32 ≤ c.toNat && c.toNat != 127)

/-- The text after a line end. -/
def lineEnd? : List Char → Option (List Char)
  | '\n' :: rest => some rest
  | '\r' :: '\n' :: rest => some rest
  | _ => none

/-- The text after a comment, if there is one. -/
def skipComment : List Char → List Char
  | '#' :: rest => rest.dropWhile isVisible
  | cs => cs

/-- The text after the rest of a line: blanks, a comment and the line end or the end of the text. -/
def endLine? (cs : List Char) : Option (List Char) :=
  match skipComment (skipBlanks cs) with
  | [] => some []
  | rest => lineEnd? rest

/-- The text after blanks, comments and line ends. The flag says that a comment has begun. -/
def skipLines (inComment : Bool) : List Char → Option (List Char)
  | [] => if inComment then none else some []
  | '\n' :: rest => skipLines false rest
  | '\r' :: '\n' :: rest => skipLines false rest
  | c :: rest =>
    if inComment then if isVisible c then skipLines true rest else none
    else if isBlank c then skipLines false rest
    else if c = '#' then skipLines true rest
    else some (c :: rest)

/-! ## Escapes -/

/-- The character with the number that digits to base sixteen write. -/
def numbered? (digits : List Char) : Option Char := do
  let n ← digits.foldlM (fun n c => (Text.hexDigit? c).map (n * 16 + ·)) 0
  if n.isValidChar then some (Char.ofNat n) else none

/-- The character of an escape by a single letter. -/
def shortEscape? : Char → Option Char
  | 'b' => some '\x08'
  | 'f' => some '\x0c'
  | 'n' => some '\n'
  | 'r' => some '\r'
  | 't' => some '\t'
  | '"' => some '"'
  | '\\' => some '\\'
  | _ => none

/-! ## Strings

Each reader starts after the opening mark. `done` holds the characters before, last one first. -/

/-- A string in one line, with escapes. -/
def basicString (done : List Char) : Reader String
  | '"' :: rest => some (String.ofList done.reverse, rest)
  | '\\' :: 'u' :: a :: b :: c :: d :: rest => do
    basicString ((← numbered? [a, b, c, d]) :: done) rest
  | '\\' :: 'U' :: a :: b :: c :: d :: e :: f :: g :: h :: rest => do
    basicString ((← numbered? [a, b, c, d, e, f, g, h]) :: done) rest
  | '\\' :: c :: rest => do basicString ((← shortEscape? c) :: done) rest
  | c :: rest => if isVisible c && c != '\\' then basicString (c :: done) rest else none
  | [] => none

/-- A string in one line, without escapes. -/
def literalString (done : List Char) : Reader String
  | '\'' :: rest => some (String.ofList done.reverse, rest)
  | c :: rest => if isVisible c then literalString (c :: done) rest else none
  | [] => none

/-- The end of a string of several lines, after three marks. Up to two more belong to the string. -/
def closeLines (mark : Char) (done rest : List Char) : String × List Char :=
  match rest with
  | c :: d :: rest' =>
    if c = mark ∧ d = mark then (String.ofList (mark :: mark :: done).reverse, rest')
    else if c = mark then (String.ofList (mark :: done).reverse, d :: rest')
    else (String.ofList done.reverse, rest)
  | [c] =>
    if c = mark then (String.ofList (mark :: done).reverse, [])
    else (String.ofList done.reverse, rest)
  | [] => (String.ofList done.reverse, [])

/-- Only blanks stand before the next line end. -/
def endsBlank (cs : List Char) : Bool := (lineEnd? (skipBlanks cs)).isSome

/-- A string of several lines, with escapes. A backslash at the end of a line joins the lines: the
blanks and line ends after it do not count. The flag says that they are being passed over. -/
def basicLines (joining : Bool) (done : List Char) : Reader String
  | '"' :: '"' :: '"' :: rest => some (closeLines '"' done rest)
  | '\n' :: rest => basicLines joining (if joining then done else '\n' :: done) rest
  | '\r' :: '\n' :: rest => basicLines joining (if joining then done else '\n' :: done) rest
  | '\\' :: 'u' :: a :: b :: c :: d :: rest => do
    basicLines false ((← numbered? [a, b, c, d]) :: done) rest
  | '\\' :: 'U' :: a :: b :: c :: d :: e :: f :: g :: h :: rest => do
    basicLines false ((← numbered? [a, b, c, d, e, f, g, h]) :: done) rest
  | '\\' :: c :: rest =>
    if endsBlank (c :: rest) then basicLines true done (c :: rest)
    else do basicLines false ((← shortEscape? c) :: done) rest
  | c :: rest =>
    if joining && isBlank c then basicLines true done rest
    else if isVisible c && c != '\\' then basicLines false (c :: done) rest
    else none
  | [] => none

/-- A string of several lines, without escapes. -/
def literalLines (done : List Char) : Reader String
  | '\'' :: '\'' :: '\'' :: rest => some (closeLines '\'' done rest)
  | '\n' :: rest => literalLines ('\n' :: done) rest
  | '\r' :: '\n' :: rest => literalLines ('\n' :: done) rest
  | c :: rest => if isVisible c then literalLines (c :: done) rest else none
  | [] => none

/-- The text after a line end, if it begins with one. -/
def skipLineEnd (cs : List Char) : List Char := (lineEnd? cs).getD cs

/-- A string with its marks. -/
def string : Reader String
  | '"' :: '"' :: '"' :: rest => basicLines false [] (skipLineEnd rest)
  | '"' :: rest => basicString [] rest
  | '\'' :: '\'' :: '\'' :: rest => literalLines [] (skipLineEnd rest)
  | '\'' :: rest => literalString [] rest
  | _ => none

/-! ## Keys -/

/-- A character of a key without marks. -/
def isBareChar (c : Char) : Bool := c.isAlphanum || c == '-' || c == '_'

/-- A key without dots. -/
def simpleKey : Reader String
  | '"' :: rest => basicString [] rest
  | '\'' :: rest => literalString [] rest
  | cs =>
    let name := cs.takeWhile isBareChar
    if name.isEmpty then none else some (String.ofList name, cs.dropWhile isBareChar)

/-- Keys are nested less deep than this, and so are values. -/
def nestingLimit : Nat := 80

/-- Keys separated by dots. Blanks may stand around each. -/
def keyPath : Nat → Reader (List String)
  | 0, _ => none
  | fuel + 1, cs => do
    let (k, rest) ← simpleKey (skipBlanks cs)
    match skipBlanks rest with
    | '.' :: rest => do
      let (ks, rest) ← keyPath fuel rest
      some (k :: ks, rest)
    | rest => some ([k], rest)

/-- A key: the path to its table, and its last part. -/
def key (cs : List Char) : Option ((List String × String) × List Char) := do
  let (ks, rest) ← keyPath (nestingLimit - 1) cs
  match ks.reverse with
  | [] => none
  | k :: before => some ((before.reverse, k), rest)

end TypeExport.Toml
