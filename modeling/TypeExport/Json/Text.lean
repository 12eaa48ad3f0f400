import TypeExport.Json.Fault
import TypeExport.Text.HexDigit

/-!
# Strings in JSON texts

Both functions start after the opening quotation mark. `Json.stringValue` decodes a string up to its
closing mark and `Json.skipString` passes over it. They differ in what they refuse: surrogates
written by number have to come in pairs only in a string that is decoded.
-/

namespace TypeExport.Json

/-- The value of four digits to base sixteen. -/
def hexValue? (a b c d : Char) : Option Nat := do
  let value := Text.hexDigit?
  return ((← value a) * 16 + (← value b)) * 256 + (← value c) * 16 + (← value d)

/-- The fault where four digits are expected: the text may be too short for any four bytes. -/
def missingDigits (rest : List Char) : Fault :=
  if (String.ofList rest).utf8ByteSize < 4 then .endInString else .badEscape

/-- The character of an escape by a single letter. -/
def shortEscape? : Char → Option Char
  | '"' => some '"'
  | '\\' => some '\\'
  | '/' => some '/'
  | 'b' => some '\x08'
  | 'f' => some '\x0c'
  | 'n' => some '\n'
  | 'r' => some '\r'
  | 't' => some '\t'
  | _ => none

/-- Passes over a string. -/
def skipString : List Char → Except Fault (List Char)
  | [] => .error .endInString
  | '"' :: rest => .ok rest
  | '\\' :: 'u' :: a :: b :: c :: d :: rest =>
    match hexValue? a b c d with
    | some _ => skipString rest
    | none => .error .badEscape
  | '\\' :: 'u' :: rest => .error (missingDigits rest)
  | ['\\'] => .error .endInString
  | '\\' :: c :: rest =>
    match shortEscape? c with
    | some _ => skipString rest
    | none => .error .badEscape
  | c :: rest => if c.toNat < 32 then .error .controlCharacter else skipString rest

/-- Decodes a string. `done` holds the characters before, last one first. -/
def stringValue (done : List Char) : List Char → Except Fault (String × List Char)
  | [] => .error .endInString
  | '"' :: rest => .ok (String.ofList done.reverse, rest)
  | '\\' :: 'u' :: a :: b :: c :: d :: rest =>
    match hexValue? a b c d with
    | none => .error .badEscape
    | some n =>
      if 0xDC00 ≤ n ∧ n ≤ 0xDFFF then .error .loneSurrogate
      else if 0xD800 ≤ n ∧ n ≤ 0xDBFF then
        match rest with
        | [] | ['\\'] => .error .endInString
        | '\\' :: 'u' :: a :: b :: c :: d :: rest =>
          match hexValue? a b c d with
          | none => .error .badEscape
          | some m =>
            if 0xDC00 ≤ m ∧ m ≤ 0xDFFF then
              stringValue (Char.ofNat ((n - 0xD800) * 0x400 + (m - 0xDC00) + 0x10000) :: done) rest
            else .error .loneSurrogate
        | '\\' :: 'u' :: rest => .error (missingDigits rest)
        | _ => .error .unpairedSurrogate
      else stringValue (Char.ofNat n :: done) rest
  | '\\' :: 'u' :: rest => .error (missingDigits rest)
  | ['\\'] => .error .endInString
  | '\\' :: c :: rest =>
    match shortEscape? c with
    | some c => stringValue (c :: done) rest
    | none => .error .badEscape
  | c :: rest =>
    if c.toNat < 32 then .error .controlCharacter else stringValue (c :: done) rest

end TypeExport.Json
