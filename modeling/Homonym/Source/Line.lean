import Homonym.Text.Space

/-!
# Lines of a source text

A source text is cut into lines at every line feed and nowhere else, so a
carriage return stays on its line and is white space there. Lines are numbered
from zero. What decides the fate of a line is its *code*, the line without the
white space around it, and its *indentation*, the number of white space
characters it starts with.
-/

namespace Homonym

namespace Source

/-- A line of a source text, as it stands there, without its line feed. -/
structure Line where
  /-- The line as it stands in the text. -/
  raw : Text
  deriving DecidableEq

namespace Line

/-- The line without the white space around it. -/
def code (l : Line) : Text :=
  l.raw.trim

/-- The number of white space characters that the line starts with. -/
def indent (l : Line) : Nat :=
  l.raw.indent

/-- Whether the line is blank or holds only a comment. -/
def isIdle (l : Line) : Bool :=
  l.code.isEmpty || l.code.head? = some '#'

end Line

/-- The text without the byte order mark that it may start with. A mark
    further on is a character like any other, and so is a second one. -/
def dropMark : Text → Text
  | [] => []
  | c :: rest => if c = '\uFEFF' then rest else c :: rest

/-- The lines of a source text. There is one line more than line feeds, so the
    empty text has one empty line. -/
def lines (source : Text) : List Line :=
  ((dropMark source).splitOn '\n').map Line.mk

end Source

end Homonym
