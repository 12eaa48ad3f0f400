import TypeExport.Source.Token

/-!
# Rules

A rule reads something at the beginning of a list of tokens. Rules look ahead with predicates on
lists of tokens: `isMark`, `isWord`, `isName`, `isGroup`. `separated` and its kin repeat a rule; each
round takes a token at least, so the number of tokens bounds the rounds.
-/

namespace TypeExport.Source

abbrev Rule := StateT (List Token) Option

namespace Rule

variable {α : Type}

/-- No reading. -/
def fail : Rule α := fun _ => none

/-- The tokens that are left have the property. -/
def sees (p : List Token → Bool) : Rule Bool := do return p (← get)

/-! ## Looking ahead -/

def isEnd (ts : List Token) : Bool := ts.isEmpty

/-- Punctuation characters, one right after the other. What follows the last one does not matter. -/
def isMarks : List Char → List Token → Bool
  | [], _ => true
  | [c], .mark d _ :: _ => c == d
  | c :: cs, .mark d true :: ts => c == d && isMarks cs ts
  | _, _ => false

def isMark (s : String) (ts : List Token) : Bool := isMarks s.toList ts

def isWord (w : String) : List Token → Bool
  | .word n :: _ => n == w
  | _ => false

/-- An identifier or a keyword. -/
def isAnyWord : List Token → Bool
  | .word _ :: _ => true
  | _ => false

def keywords : List String :=
  ["_", "abstract", "as", "async", "await", "become", "box", "break", "const", "continue", "crate",
    "do", "dyn", "else", "enum", "extern", "false", "final", "fn", "for", "if", "impl", "in", "let",
    "loop", "macro", "match", "mod", "move", "mut", "override", "priv", "pub", "ref", "return", "Self",
    "self", "static", "struct", "super", "trait", "true", "try", "type", "typeof", "unsafe", "unsized",
    "use", "virtual", "where", "while", "yield"]

/-- An identifier that is no keyword. -/
def isName : List Token → Bool
  | .word n :: _ => !keywords.contains n
  | _ => false

def isLifetime : List Token → Bool
  | .lifetime _ :: _ => true
  | _ => false

def isGroup (d : Delimiter) : List Token → Bool
  | .group d' _ :: _ => d == d'
  | _ => false

def isAnyGroup : List Token → Bool
  | .group _ _ :: _ => true
  | _ => false

/-- A literal, a truth value or a negative number. -/
def isLiteral : List Token → Bool
  | .literal _ :: _ => true
  | .word n :: _ => n == "true" || n == "false"
  | .mark '-' _ :: .literal (.integer _ _) :: _ => true
  | .mark '-' _ :: .literal (.float _) :: _ => true
  | _ => false

/-- A text literal. -/
def isText : List Token → Bool
  | .literal (.text _) :: _ => true
  | _ => false

/-- Some token begins here with the property. -/
def isAny (ps : List (List Token → Bool)) (ts : List Token) : Bool := ps.any fun p => p ts

/-- The first or second token after this one has the property. -/
def second (p : List Token → Bool) (ts : List Token) : Bool := p (ts.drop 1)

def third (p : List Token → Bool) (ts : List Token) : Bool := p (ts.drop 2)

/-! ## Single tokens -/

def marks : List Char → Rule Unit
  | [] => pure ()
  | c :: cs => fun ts => match ts with
    | .mark d joint :: ts => if c = d ∧ (joint ∨ cs.isEmpty) then marks cs ts else none
    | _ => none

def mark (s : String) : Rule Unit := marks s.toList

def word (w : String) : Rule Unit := fun ts =>
  match ts with
  | .word n :: ts => if n = w then some ((), ts) else none
  | _ => none

/-- An identifier or a keyword. -/
def anyWord : Rule String := fun ts =>
  match ts with
  | .word n :: ts => some (n, ts)
  | _ => none

/-- An identifier that is no keyword. -/
def name : Rule String := fun ts => if isName ts then anyWord ts else none

def lifetime : Rule String := fun ts =>
  match ts with
  | .lifetime n :: ts => some (n, ts)
  | _ => none

/-- A literal. The truth values and negative numbers are no literals of a kind that can matter. -/
def literal : Rule Literal := fun ts =>
  match ts with
  | .literal l :: ts => some (l, ts)
  | .mark _ _ :: _ :: rest => if isLiteral ts then some (.other, rest) else none
  | .word _ :: rest => if isLiteral ts then some (.other, rest) else none
  | _ => none

def textLiteral : Rule String := fun ts =>
  match ts with
  | .literal (.text s) :: ts => some (s, ts)
  | _ => none

/-- All tokens of a group with the given brackets. -/
def group (d : Delimiter) (inner : Rule α) : Rule α := fun ts =>
  match ts with
  | .group d' ts' :: rest =>
    if d = d' then match inner ts' with
      | some (a, []) => some (a, rest)
      | _ => none
    else none
  | _ => none

/-- A group, whatever stands in it. -/
def anyGroup : Rule (Delimiter × List Token) := fun ts =>
  match ts with
  | .group d inner :: ts => some ((d, inner), ts)
  | _ => none

/-- Reads something, and says whether its last token is a group with the given brackets. -/
def endsWith (d : Delimiter) (r : Rule α) : Rule Bool := fun ts => do
  let (_, rest) ← r ts
  return (isGroup d (ts.drop (ts.length - rest.length - 1)), rest)

/-- All tokens that are left. -/
def anything : Rule Unit := fun _ => some ((), [])

/-! ## Choices -/

/-- Reads something if the tokens that are left have the property. -/
def whenever (p : List Token → Bool) (r : Rule α) : Rule (Option α) := do
  if ← sees p then return some (← r)
  return none

/-- Reads a mark if there is one. -/
def optionalMark (s : String) : Rule Bool := do return (← whenever (isMark s) (mark s)).isSome

/-- Reads a word if it comes. -/
def optionalWord (w : String) : Rule Bool := do return (← whenever (isWord w) (word w)).isSome

/-! ## Repetitions -/

/-- Repeats a rule until it gives nothing. -/
def repeatUpTo (round : Rule (Option α)) : Nat → Rule (List α)
  | 0 => fail
  | n + 1 => do
    match ← round with
    | none => return []
    | some a => return a :: (← repeatUpTo round n)

/-- Repeats a rule as long as the tokens that are left have the property. -/
def manyWhile (p : List Token → Bool) (item : Rule α) : Rule (List α) := fun ts =>
  repeatUpTo (whenever p item) (ts.length + 1) ts

/-- Repeats a rule to the end of the tokens. -/
def many (item : Rule α) : Rule (List α) := manyWhile (fun ts => !isEnd ts) item

def separatedUpTo (stop : List Token → Bool) (separator : Rule Unit) (item : Rule α) :
    Nat → Rule (List α)
  | 0 => fail
  | n + 1 => do
    if ← sees stop then return []
    let a ← item
    if ← sees stop then return [a]
    separator
    return a :: (← separatedUpTo stop separator item n)

/-- Items with a separator between them, and perhaps after the last one, up to where a property of the
tokens that are left holds. -/
def separated (stop : List Token → Bool) (separator : Rule Unit) (item : Rule α) :
    Rule (List α) := fun ts => separatedUpTo stop separator item (ts.length + 1) ts

/-- Items separated by commas, to the end of the tokens. -/
def commaList (item : Rule α) : Rule (List α) := separated isEnd (mark ",") item

def joinedUpTo (stop : List Token → Bool) (joint : String) (item : Rule α) : Nat → Rule (List α)
  | 0 => fail
  | n + 1 => do
    if ← sees stop then return []
    let a ← item
    if ← optionalMark joint then return a :: (← joinedUpTo stop joint item n)
    return [a]

/-- Items with a mark between them. They end where no mark follows, or after a mark where a property of
the tokens that are left holds. -/
def joined (stop : List Token → Bool) (joint : String) (item : Rule α) : Rule (List α) := fun ts =>
  joinedUpTo stop joint item (ts.length + 1) ts

def iterateUpTo (step : α → Rule (Option α)) : Nat → α → Rule α
  | 0, _ => fail
  | n + 1, a => do
    match ← step a with
    | some b => iterateUpTo step n b
    | none => return a

/-- Goes on from a value step by step, until a step gives nothing. -/
def iterate (step : α → Rule (Option α)) (a : α) : Rule α := fun ts =>
  iterateUpTo step (ts.length + 1) a ts

/-! ## Whole lists of tokens -/

/-- Reads all of a list of tokens. -/
def run (r : Rule α) (ts : List Token) : Option α :=
  match r ts with
  | some (a, []) => some a
  | _ => none

/-- Reads something, or nothing if that is not possible. -/
def attempt (r : Rule α) : Rule (Option α) := fun ts =>
  match r ts with
  | some (a, rest) => some (some a, rest)
  | none => some (none, ts)

end Rule

end TypeExport.Source
