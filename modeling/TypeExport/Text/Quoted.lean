import TypeExport.Text.HexDigit
import TypeExport.Text.Printable

/-!
# Quoted text

`Text.quoted` puts a text between quotation marks for a message. The quotation mark, the backslash
and the line characters get a backslash; a character that would not show is written by its number
(`\u{200b}`).
-/

namespace TypeExport.Text

/-- A character as quoted text writes it. -/
def quotedChar (c : Char) : List Char :=
  match c with
  | '"' => ['\\', '"']
  | '\\' => ['\\', '\\']
  | '\n' => ['\\', 'n']
  | '\r' => ['\\', 'r']
  | '\t' => ['\\', 't']
  | '\x00' => ['\\', '0']
  | c => if isPlain c then [c] else ['\\', 'u', '{'] ++ hexDigits c.toNat ++ ['}']

/-- The text between quotation marks. -/
def quoted (s : String) : String :=
  String.ofList ('"' :: (s.toList.flatMap quotedChar ++ ['"']))

end TypeExport.Text
