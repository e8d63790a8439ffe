/-!
# Texts and bytes

Everything that is read is a list: a *text* is a list of characters, and what a
file holds or a path is spelled with is a list of *bytes*, which need not be
the encoding of any text (`Homonym.Utf8`).

* `Text.ofNat`: a number in decimal digits;
* `Text.lines`: the lines of a text as one prints them, without line ends.
-/

namespace Homonym

/-- A text, as the list of its characters. -/
abbrev Text := List Char

/-- A sequence of bytes, such as the content of a file or the spelling of a
    path. -/
abbrev Bytes := List UInt8

namespace Text

/-- The decimal digits of `n`, without leading zeros. -/
def ofNat (n : Nat) : Text :=
  Nat.toDigits 10 n

/-- A line without the carriage return it may end in. -/
def dropReturn (line : Text) : Text :=
  if line.getLast? = some '\r' then line.dropLast else line

/-- The lines of a text. A line ends in a line feed, or in a carriage return
    and a line feed; the last one may end with the text. So a text that ends in
    a line feed has no empty last line, and a carriage return at the very end
    belongs to its line. -/
def lines (t : Text) : List Text :=
  let pieces := t.splitOn '\n'
  pieces.dropLast.map dropReturn ++ pieces.getLast?.toList.filter (· ≠ [])

end Text

end Homonym
