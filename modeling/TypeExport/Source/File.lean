import TypeExport.Source.Grammar.Levels
import TypeExport.Source.Lexer

/-!
# Source files

`Source.itemsOfFile?` reads the text of a whole file.
-/

namespace TypeExport.Source

/-- The items of a source file. There are none unless all of the text follows the grammar. -/
def itemsOfFile? (text : String) : Option (List Item) := do items (← Token.ofFile text)

end TypeExport.Source
