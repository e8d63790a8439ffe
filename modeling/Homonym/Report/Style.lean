import Homonym.Terminal.Sequence

/-!
# Styled text

A report is made of rows, and a row of spans, some of which are styled. In
colour, a styled span stands between an escape sequence that turns its style on
and one that turns all styles off, even if the span is empty. Should the text
of the span turn all styles off itself, the style is turned on again right
after that. Without colour, only the text is left.
-/

namespace Homonym

namespace Report

/-- The styles of a span. -/
inductive Style where
  | bold
  | dim
  | red
  | green
  | yellow
  | boldRed
  deriving DecidableEq

/-- The parameters of the escape sequence that turns a style on. -/
def Style.parameters : Style → Text
  | .bold => "1".toList
  | .dim => "2".toList
  | .red => "31".toList
  | .green => "32".toList
  | .yellow => "33".toList
  | .boldRed => "1;31".toList

/-- The escape sequence that turns a style on. -/
def Style.opening (s : Style) : Text :=
  Terminal.sequenceOf s.parameters

/-- The text with `opening` put in again behind each reset. -/
def reopen (opening : Text) : Text → Text
  | '\x1b' :: '[' :: '0' :: 'm' :: rest => Terminal.reset ++ opening ++ reopen opening rest
  | c :: rest => c :: reopen opening rest
  | [] => []

/-- A piece of a row. -/
structure Span where
  /-- The style of the piece, if it has one. -/
  style : Option Style
  /-- The text of the piece. -/
  text : Text
  deriving DecidableEq

/-- A span without a style. -/
def Span.plain (t : Text) : Span :=
  ⟨none, t⟩

/-- A span with a style. -/
def Span.styled (s : Style) (t : Text) : Span :=
  ⟨some s, t⟩

/-- The text of a span, in colour or not. -/
def Span.render (colour : Bool) (s : Span) : Text :=
  match colour, s.style with
  | true, some style => style.opening ++ reopen style.opening s.text ++ Terminal.reset
  | _, _ => s.text

/-- A row of a report. -/
abbrev Row := List Span

/-- A row without styles. -/
def Row.plain (t : Text) : Row :=
  [.plain t]

/-- A row in one style. -/
def Row.styled (s : Style) (t : Text) : Row :=
  [.styled s t]

/-- The text of a row, with the line feed that ends it. -/
def Row.render (colour : Bool) (r : Row) : Text :=
  r.flatMap (Span.render colour) ++ ['\n']

end Report

end Homonym
