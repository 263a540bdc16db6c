/-!
# Lines of a text

A line ends at a line feed, at a carriage return, or at a carriage return with a line feed, which
together end one line. A terminator belongs to no line, so a text that ends with one has no further
empty line after it, and the empty text has no lines.
-/

namespace BootConfig.Text

/-- A character that ends a line. -/
def isTerminator (c : Char) : Bool :=
  c == '\n' || c == '\r'

/-- The lines of a text of whose first line some characters have been read already, last one first.
A read character is put in front, so that only a finished line costs a reversal. -/
def linesFrom : List Char → List Char → List (List Char)
  | read, [] => if read.isEmpty then [] else [read.reverse]
  | read, '\r' :: '\n' :: rest => read.reverse :: linesFrom [] rest
  | read, c :: rest =>
    if isTerminator c then read.reverse :: linesFrom [] rest else linesFrom (c :: read) rest

/-- The lines of a sequence of characters. -/
def splitLines (cs : List Char) : List (List Char) :=
  linesFrom [] cs

/-- The lines of a text, without their terminators. -/
def lines (text : String) : List String :=
  (splitLines text.toList).map String.ofList

example : lines "A=1\r\rB=2\r\n\n" = ["A=1", "", "B=2", ""] := by decide

end BootConfig.Text
