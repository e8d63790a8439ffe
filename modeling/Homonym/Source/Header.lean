import Homonym.Text.Space

/-!
# Function headers

A function header is the word `def`, a gap of white space, a name, perhaps more
white space, and an opening parenthesis; whatever follows does not matter. A
name is a letter or an underscore followed by letters, digits and underscores,
all of them ASCII.
-/

namespace Homonym

namespace Source

/-- The characters that a name may start with. -/
def isNameStart (c : Char) : Bool :=
  c.isAlpha || c = '_'

/-- The characters that a name may hold. -/
def isNameChar (c : Char) : Bool :=
  isNameStart c || c.isDigit

/-- The name in a text that starts with a name and then, perhaps after white
    space, an opening parenthesis. -/
def calledName? (t : Text) : Option Text :=
  let name := t.takeWhile isNameChar
  let rest := (t.dropWhile isNameChar).dropWhile isSpace
  if name.head?.any isNameStart && rest.head? = some '(' then some name else none

/-- The name of the function whose header `t` starts with. The text is taken
    as it is: white space in front of the word `def` makes it no header. -/
def headerName? : Text → Option Text
  | 'd' :: 'e' :: 'f' :: rest =>
    if rest.head?.any isSpace then calledName? (rest.dropWhile isSpace) else none
  | _ => none

end Source

end Homonym
