/-!
# The lines of a text

A help text is written with line feeds between its lines.  A line ends at a
line feed, and a carriage return right before the line feed belongs to the end
and not to the line.  What stands after the last line feed is a line only if it
is not empty.
-/

namespace SmtpReceiver.Text

/-- The characters up to each line feed, with the ends removed. -/
def linesOf : List Char → List (List Char)
  | [] => []
  | '\n' :: cs => [] :: linesOf cs
  | '\r' :: '\n' :: cs => [] :: linesOf cs
  | [c] => [[c]]
  | c :: d :: cs => (linesOf (d :: cs)).modifyHead (c :: ·)

/-- The lines of a text, in order. -/
def lines (s : String) : List String := (linesOf s.toList).map String.ofList

/-! ## Tests -/

example : lines "a\r\n\nb\r" = ["a", "", "b\r"] := by decide +kernel

example : lines "" = [] := by decide +kernel

example : lines "a\n" = ["a"] := by decide +kernel

end SmtpReceiver.Text
