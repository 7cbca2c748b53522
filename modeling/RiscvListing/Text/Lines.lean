/-!
# Lines

* `lines`: the lines of a text. A line ends at a line feed, and a carriage return right before the
  line feed belongs to the line end. What follows the last line feed is a line of its own, kept as
  it is, unless it is empty.
* `dropReturn`: a line without one carriage return at its end.
-/

namespace RiscvListing

/-- A line without the carriage return at its end, if it has one there. -/
def dropReturn (line : List Char) : List Char :=
  if line.getLast? = some '\r' then line.dropLast else line

/-- The lines of a text. -/
def lines (text : List Char) : List (List Char) :=
  let pieces := text.splitOn '\n'
  pieces.dropLast.map dropReturn ++ (pieces.getLast?.toList.filter fun last => !last.isEmpty)

end RiscvListing
