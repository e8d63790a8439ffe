import Homonym.Survey.Findings

/-!
# Surveys

A survey collects the outcomes of examining all files below a root: the files
with clashes and the files that could not be read, each sorted by path, and the
numbers that sum it up. The outcomes may come in any order.
-/

namespace Homonym

/-- The numbers that sum a survey up. -/
structure Tally where
  /-- The files found. -/
  files : Nat
  /-- The files that define a name more than once. -/
  clashing : Nat
  /-- The names defined more than once, file by file. -/
  names : Nat
  /-- The files that could not be read. -/
  unreadable : Nat
  deriving DecidableEq

/-- The result of examining all files below a root. -/
structure Survey where
  /-- Where the files were looked for. -/
  root : Path
  /-- What was found in the files that define a name more than once. -/
  clashing : List Findings
  /-- The files that could not be read. -/
  unreadable : List Unreadable
  /-- The numbers that sum it up. -/
  tally : Tally
  deriving DecidableEq

namespace Outcome

/-- What was found, if the file has a clash. -/
def clashing? : Outcome → Option Findings
  | .examined findings => if findings.hasClash then some findings else none
  | .unreadable _ => none

/-- The failure, if the file could not be read. -/
def failure? : Outcome → Option Unreadable
  | .examined _ => none
  | .unreadable failure => some failure

end Outcome

namespace Survey

/-- The survey of so many files below `root` of which these had clashes, and these
    could not be read. -/
def ofParts (root : Path) (files : Nat) (clashing : List Findings)
    (unreadable : List Unreadable) : Survey :=
  let clashing := clashing.mergeSort fun a b => a.file.le b.file
  let unreadable := unreadable.mergeSort fun a b => a.file.le b.file
  { root, clashing, unreadable
    tally :=
      { files
        clashing := clashing.length
        names := (clashing.flatMap Findings.clashes).length
        unreadable := unreadable.length } }

/-- Collects the outcomes of the files below `root`. -/
def ofOutcomes (root : Path) (outcomes : List Outcome) : Survey :=
  ofParts root outcomes.length (outcomes.filterMap Outcome.clashing?)
    (outcomes.filterMap Outcome.failure?)

/-- Whether a file defines a name more than once. -/
def hasClash (s : Survey) : Bool :=
  !s.clashing.isEmpty

/-- Whether the survey counts as a failure, when a clash does (`strict`) or
    does not. -/
def fails (s : Survey) (strict : Bool) : Bool :=
  strict && s.hasClash

end Survey

end Homonym
