/-!
# Parts of qualified names

* `Text.afterLast`: what stands after the last character of a class.
* `Text.stripPrefix?`: a text without a given beginning.
* `Text.simpleName`: the part of a qualified name after its last dot.
* `Text.lastSegment`: the part after its last dot or colon.
-/

namespace TypeExport.Text

/-- What stands after the last character of the class, and all of the text if there is none. -/
def afterLast (p : Char → Bool) (cs : List Char) : List Char :=
  (cs.reverse.takeWhile fun c => !p c).reverse

/-- The text after a given beginning, if it begins so. -/
def stripPrefix? (lead s : String) : Option String :=
  (lead.toList.isPrefixOf? s.toList).map String.ofList

/-- The text before a given ending, if it ends so. -/
def stripSuffix? (tail s : String) : Option String :=
  (tail.toList.reverse.isPrefixOf? s.toList.reverse).map fun r => String.ofList r.reverse

/-- The character occurs in the text. -/
def hasChar (c : Char) (s : String) : Bool := s.toList.contains c

/-- The part of a qualified name after its last dot. -/
def simpleName (name : String) : String :=
  String.ofList (afterLast (· == '.') name.toList)

/-- The part of a qualified name after its last dot or colon. -/
def lastSegment (name : String) : String :=
  String.ofList (afterLast (fun c => c == '.' || c == ':') name.toList)

end TypeExport.Text
