/-!
# Source texts

A source text is a sequence of lines. Each but the last has to end in a line feed, the last may; a
carriage return before the line's end does not count.
-/

namespace Befunge.Source

/-- The text without one given character at its end. -/
def dropFinal (c : Char) (s : List Char) : List Char :=
  if s.getLast? = some c then s.dropLast else s

def lines (s : List Char) : List (List Char) :=
  ((dropFinal '\n' s).splitOn '\n').map (dropFinal '\r')

def width (lines : List (List Char)) : Nat := (lines.map List.length).foldl max 0

end Befunge.Source
