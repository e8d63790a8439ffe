import Homonym.Path.Basic
import Homonym.Source.Clash

/-!
# Findings in a file

A file is examined on its own. If its bytes are a text, the outcome is what was
found in it; otherwise the outcome is that it could not be read.
-/

namespace Homonym

/-- A file to examine, with what it holds. -/
structure SourceFile where
  path : Path
  content : Bytes
  deriving DecidableEq

/-- What was found in a file. -/
structure Findings where
  /-- The file. -/
  file : Path
  /-- The number of function definitions in it. -/
  definitions : Nat
  /-- The names that it defines more than once. -/
  clashes : List Source.Clash
  deriving DecidableEq

/-- A file that could not be read. -/
structure Unreadable where
  /-- The file. -/
  file : Path
  /-- Why it could not be read. -/
  reason : Text
  deriving DecidableEq

/-- What comes of examining a file. -/
inductive Outcome where
  | examined (findings : Findings)
  | unreadable (failure : Unreadable)
  deriving DecidableEq

/-- What is found in the text `source` of a file. -/
def Findings.ofText (file : Path) (source : Text) : Findings :=
  { file, definitions := (Source.definitions source).length, clashes := Source.clashes source }

/-- Whether the file defines a name more than once. -/
def Findings.hasClash (f : Findings) : Bool :=
  !f.clashes.isEmpty

/-- Why a file whose bytes are no text cannot be read. -/
def Unreadable.notText : Text :=
  "stream did not contain valid UTF-8".toList

/-- Examines a file. -/
def SourceFile.examine (f : SourceFile) : Outcome :=
  match Utf8.decode? f.content with
  | some source => .examined (.ofText f.path source)
  | none => .unreadable ⟨f.path, Unreadable.notText⟩

/-- The file that was examined. -/
def Outcome.file : Outcome → Path
  | .examined findings => findings.file
  | .unreadable failure => failure.file

end Homonym
