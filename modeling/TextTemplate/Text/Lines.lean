/-!
Lines of a text. A line ends at a line feed, which a carriage return may precede; nothing after the
last line end is no line.
-/
namespace TextTemplate.Text

/-- Puts a character in front of the first line. -/
def extendLine (c : Char) : List (List Char) → List (List Char)
  | [] => [[c]]
  | line :: lines => (c :: line) :: lines

def dropReturn (cs : List Char) : List Char :=
  if cs.getLast? = some '\r' then cs.dropLast else cs

/-- The text without one line end behind it. -/
def dropLineEnd (cs : List Char) : List Char :=
  if cs.getLast? = some '\n' then dropReturn cs.dropLast else cs

def lines : List Char → List (List Char)
  | [] => []
  | '\r' :: '\n' :: cs => [] :: lines cs
  | '\n' :: cs => [] :: lines cs
  | c :: cs => extendLine c (lines cs)

end TextTemplate.Text
