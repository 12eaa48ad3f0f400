import TypeExport.Text.Ranges

/-!
# Blanks

`Text.isBlank` is the Unicode property White_Space; `Text.trim` removes the blanks at both ends.
-/

namespace TypeExport.Text

/-- White_Space, as inclusive ranges of code points. -/
def blankRanges : List (Nat × Nat) :=
  [(9, 13), (32, 32), (133, 133), (160, 160), (5760, 5760), (8192, 8202), (8232, 8233),
  (8239, 8239), (8287, 8287), (12288, 12288)]

/-- A blank. -/
def isBlank (c : Char) : Bool := c.inRanges blankRanges

/-- The list without the elements of the class at its end. -/
def dropRightWhile {α : Type} (p : α → Bool) (l : List α) : List α :=
  (l.reverse.dropWhile p).reverse

/-- The text without the blanks at its end. -/
def trimRight (s : String) : String := String.ofList (dropRightWhile isBlank s.toList)

/-- The text without the blanks at its beginning and end. -/
def trim (s : String) : String :=
  String.ofList (dropRightWhile isBlank (s.toList.dropWhile isBlank))

end TypeExport.Text
