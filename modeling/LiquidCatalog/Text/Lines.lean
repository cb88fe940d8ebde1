/-!
The lines of a text.

A line ends at a line feed, and a carriage return directly before that line feed belongs to the
line end. What follows the last line feed is a line only if it is not empty.
-/

namespace LiquidCatalog.Text

def consFirst (c : Char) : List (List Char) → List (List Char)
  | [] => [[c]]
  | l :: ls => (c :: l) :: ls

def lineChars : List Char → List (List Char)
  | [] => []
  | '\n' :: s => [] :: lineChars s
  | '\r' :: '\n' :: s => [] :: lineChars s
  | c :: s => consFirst c (lineChars s)

def lines (s : String) : List String :=
  (lineChars s.toList).map String.ofList

end LiquidCatalog.Text
