/-!
# Lines

The lines of a text. A line ends with a line feed, and a carriage return right before the line feed
belongs to the end of the line. What follows the last line feed is a line only if it is not empty.
-/

namespace Transposition.Lines

/-- A line without the carriage return that may end it. -/
def withoutReturn (line : String) : String :=
  if line.toList.getLast? = some '\r' then String.ofList line.toList.dropLast else line

/-- The lines of a text that is cut at its line feeds. The last piece is not ended by one. -/
def ofPieces : List String → List String
  | [] => []
  | [last] => if last = "" then [] else [last]
  | piece :: rest => withoutReturn piece :: ofPieces rest

/-- The lines of a text. -/
def ofText (text : String) : List String := ofPieces (text.splitOn "\n")

/-- The lines of several texts, each of which is ended by a line feed. -/
def ofTexts (texts : List String) : List String :=
  texts.flatMap fun text => ofText (text ++ "\n")

end Transposition.Lines
