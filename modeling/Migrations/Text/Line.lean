/-!
# Lines

A text as a list of lines.  A line ends with a line feed; a carriage return directly before that
line feed belongs to the line end.  The text after the last line feed is a line of its own unless
it is empty, and keeps a carriage return at its end.
-/

namespace Migrations.Text

/-- The lines of a text, without their line ends. -/
def lines : List Char → List (List Char)
  | [] => []
  | '\n' :: cs => [] :: lines cs
  | '\r' :: '\n' :: cs => [] :: lines cs
  | c :: cs =>
    match lines cs with
    | [] => [[c]]
    | l :: ls => (c :: l) :: ls

/-- The text whose lines are the given ones, each ended by a line feed. -/
def unlines (ls : List (List Char)) : List Char := ls.flatMap (· ++ ['\n'])

/-- Every carriage return followed by a line feed becomes a line feed alone. -/
def unixEnds : List Char → List Char
  | [] => []
  | '\r' :: '\n' :: cs => '\n' :: unixEnds cs
  | c :: cs => c :: unixEnds cs

end Migrations.Text
