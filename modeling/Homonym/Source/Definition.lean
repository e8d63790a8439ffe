import Homonym.Source.Header
import Homonym.Source.Line

/-!
# Function definitions

Every line whose code is a function header starts a definition of its own,
whether it stands inside another one or not. Indentation stands for scope: the
body goes on until a line at or left of the header's indentation opens a
function or a class (`Line.closes`), and otherwise to the end of the text.
Blank lines and comments never end a body, but they belong to it.
-/

namespace Homonym

namespace Source

/-- Whether `l` ends the body of a definition whose header has the indentation
    `indent`: it stands at or left of it and opens a function or a class. Here
    the word is followed by a space, not by any white space. -/
def Line.closes (indent : Nat) (l : Line) : Bool :=
  !l.isIdle && l.indent ≤ indent &&
    ("def ".toList.isPrefixOf l.code || "class ".toList.isPrefixOf l.code)

/-- A function definition in a source text. -/
structure Definition where
  /-- The name of the function. -/
  name : Text
  /-- The line of the header. -/
  first : Nat
  /-- The last line of the body. -/
  last : Nat
  /-- The beginning of the definition, for display. -/
  excerpt : Text
  deriving DecidableEq

/-- The number of lines that the excerpt of a definition is taken from. -/
def excerptLines : Nat := 5

/-- The body of the definition with the given header, in the lines that follow
    the header. -/
def body (header : Line) (following : List Line) : List Line :=
  following.takeWhile fun l => !l.closes header.indent

/-- The first lines of a definition, header included, without the white space
    around them. -/
def excerpt (header : Line) (following : List Line) : Text :=
  let shown := (header :: body header following).take excerptLines
  Text.trim (List.intercalate ['\n'] (shown.map Line.raw))

/-- The definitions that start in the given lines, of which the first has the
    number `n`. -/
def definitionsFrom (n : Nat) : List Line → List Definition
  | [] => []
  | header :: following =>
    match headerName? header.code with
    | none => definitionsFrom (n + 1) following
    | some name =>
      { name, first := n, last := n + (body header following).length,
        excerpt := excerpt header following } :: definitionsFrom (n + 1) following

/-- The definitions in a source text, in the order of their headers. -/
def definitions (source : Text) : List Definition :=
  definitionsFrom 0 (lines source)

end Source

end Homonym
