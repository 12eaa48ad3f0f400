/-!
# Lines of files

`textLines` cuts the content of a file into lines and decodes them one by one, so that the lines before
the first one that is no text can be read.
-/

namespace TypeExport

/-- The lines of bytes, each with its end. `done` holds the bytes of the line before, last one first. -/
def byteLines (done : List UInt8) : List UInt8 → List (List UInt8)
  | [] => if done.isEmpty then [] else [done.reverse]
  | b :: bs =>
    if b == 10 then (b :: done).reverse :: byteLines [] bs else byteLines (b :: done) bs

/-- The text of a line. -/
def lineText? (line : List UInt8) : Option String := String.fromUTF8? (ByteArray.mk line.toArray)

/-- The lines of a file with their ends, up to the first one that is no text. -/
def textLines (content : ByteArray) : List String :=
  (((byteLines [] content.toList).map lineText?).takeWhile (·.isSome)).filterMap id

end TypeExport
