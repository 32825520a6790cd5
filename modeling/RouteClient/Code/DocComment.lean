/-!
# Documentation comments

A text becomes a comment block with ` * ` before each of its lines. Line ends are normalised first,
and the two characters that would close the block are kept apart by a backslash.
-/

namespace RouteClient

namespace Code

/-- A carriage return with a line feed after it becomes the line feed alone. The text is read once
from left to right. -/
def normalizeLineEnds : List Char → List Char
  | [] => []
  | '\r' :: '\n' :: cs => '\n' :: normalizeLineEnds cs
  | c :: cs => c :: normalizeLineEnds cs

/-- A backslash goes between a star and the slash after it. -/
def guardTerminator : List Char → List Char
  | [] => []
  | '*' :: '/' :: cs => '*' :: '\\' :: '/' :: guardTerminator cs
  | c :: cs => c :: guardTerminator cs

/-- The lines of a documentation text as they stand in the comment, without their margin. -/
def docLines (text : String) : List String :=
  ((guardTerminator (normalizeLineEnds text.toList)).splitOn '\n').map String.ofList

/-- A text as a documentation comment. -/
def docComment (text : String) : String :=
  "/**\n" ++ "\n".intercalate ((docLines text).map (" * " ++ ·)) ++ "\n */"

end Code

end RouteClient
