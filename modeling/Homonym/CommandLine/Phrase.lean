import Homonym.Terminal.Printable
import Homonym.Terminal.Sequence

/-!
# What the command line says

Help and complaints about the arguments are made of phrases, some of which are
marked: headings, what is to be typed as it stands, and what is wrong. Marks are
shown by style sequences. Where they are not wanted, everything that would steer
a terminal is taken out, whether it belongs to a mark or to an argument that is
quoted.
-/

namespace Homonym

namespace CommandLine

/-- What a phrase stands for. -/
inductive Mark where
  /-- Nothing special. -/
  | plain
  /-- The heading of a section. -/
  | heading
  /-- A word to be typed as it stands. -/
  | literal
  /-- The word that announces a complaint. -/
  | alarm
  /-- Something that is wrong. -/
  | invalid
  deriving DecidableEq

/-- The style sequences that show a mark. -/
def Mark.opening : Mark → Text
  | .plain => []
  | .heading => Terminal.sequenceOf "1".toList ++ Terminal.sequenceOf "4".toList
  | .literal => Terminal.sequenceOf "1".toList
  | .alarm => Terminal.sequenceOf "1".toList ++ Terminal.sequenceOf "31".toList
  | .invalid => Terminal.sequenceOf "33".toList

/-- A piece of what is said. -/
structure Phrase where
  /-- What it stands for. -/
  mark : Mark
  /-- Its text. -/
  text : Text
  deriving DecidableEq

namespace Phrase

/-- A phrase without a mark. -/
def plain (s : String) : Phrase :=
  ⟨.plain, s.toList⟩

/-- The phrase with its mark shown. -/
def marked (p : Phrase) : Text :=
  if p.mark = .plain then p.text else p.mark.opening ++ p.text ++ Terminal.reset

end Phrase

/-- What is said, with the marks shown or not. -/
def say (colour : Bool) (phrases : List Phrase) : Text :=
  let marked := phrases.flatMap Phrase.marked
  if colour then marked else Utf8.shown (Terminal.printable (Utf8.encode marked))

end CommandLine

end Homonym
