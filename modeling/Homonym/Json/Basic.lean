import Homonym.Text.Basic

/-!
# JSON documents

The values that a survey is written with: numbers, strings, arrays and objects.
They are laid out with one entry on a line and two spaces for each level of
nesting, and an array or object without entries on no line of its own. An
object keeps its fields in the order they are given in.

In a string, the quotation mark, the backslash and the characters below U+0020
are escaped, five of the latter with a letter of their own; all other
characters stand for themselves.
-/

namespace Homonym

/-- A JSON value. -/
inductive Json where
  | number (n : Nat)
  | string (t : Text)
  | array (items : List Json)
  | object (fields : List (Text × Json))

namespace Json

/-- A digit of a number in base sixteen, in lower case. -/
def hexDigit (n : Nat) : Char :=
  Nat.digitChar n

/-- What a character is written as inside a string. -/
def escape (c : Char) : Text :=
  if c = '"' then ['\\', '"']
  else if c = '\\' then ['\\', '\\']
  else if c = '\x08' then ['\\', 'b']
  else if c = '\x0c' then ['\\', 'f']
  else if c = '\n' then ['\\', 'n']
  else if c = '\r' then ['\\', 'r']
  else if c = '\t' then ['\\', 't']
  else if c.toNat < 0x20 then
    ['\\', 'u', '0', '0', hexDigit (c.toNat / 16), hexDigit (c.toNat % 16)]
  else [c]

/-- A string, with its quotation marks. -/
def quote (t : Text) : Text :=
  '"' :: t.flatMap escape ++ ['"']

/-- The start of a line at the given level of nesting. -/
def newLine (depth : Nat) : Text :=
  '\n' :: List.replicate (2 * depth) ' '

/-- The entries of an array or object between its brackets, which stand at the
    given level of nesting. -/
def enclose (opening closing : Char) (depth : Nat) : List Text → Text
  | [] => [opening, closing]
  | entries =>
    opening :: newLine (depth + 1) ++ List.intercalate (',' :: newLine (depth + 1)) entries ++
      newLine depth ++ [closing]

mutual

/-- A value, laid out at the given level of nesting. -/
def layOut (depth : Nat) : Json → Text
  | .number n => Text.ofNat n
  | .string t => quote t
  | .array items => enclose '[' ']' depth (layOutItems (depth + 1) items)
  | .object fields => enclose '\x7b' '\x7d' depth (layOutFields (depth + 1) fields)

/-- The items of an array, each laid out at the given level of nesting. -/
def layOutItems (depth : Nat) : List Json → List Text
  | [] => []
  | item :: items => layOut depth item :: layOutItems depth items

/-- The fields of an object, each laid out at the given level of nesting. -/
def layOutFields (depth : Nat) : List (Text × Json) → List Text
  | [] => []
  | (key, value) :: fields =>
    (quote key ++ ':' :: ' ' :: layOut depth value) :: layOutFields depth fields

end

/-- The document that holds a value. -/
def document (v : Json) : Text :=
  layOut 0 v

end Json

end Homonym
