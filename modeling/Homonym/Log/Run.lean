import Homonym.Log.Event
import Homonym.Survey.Run

/-!
# Surveying with a log

A survey logs its events on the way, in three places: the number of files when
they are discovered, what is found in a file when the file is examined, and that a
file could not be read when the outcomes are gone through to make the survey of
them.

Files do not depend on each other, so they could be examined in any order, and with
them the order of their events would change. Here it is the order of the files.
-/

namespace Homonym

namespace Log

/-- A computation that logs events. -/
abbrev Logged := StateM (List Event)

/-- Logs an event. -/
def emit (e : Event) : Logged Unit :=
  modify (· ++ [e])

/-- Discovers the selected files at `root`, where there is `sight`. -/
def discover (s : Selection) (root : Path) (sight : Sight) : Logged (List SourceFile) := do
  let files := sight.discover s root
  emit (.discovered files.length root)
  return files

/-- Examines a file. -/
def examine (f : SourceFile) : Logged Outcome := do
  match f.examine with
  | .examined findings =>
    emit (.examined findings)
    return .examined findings
  | .unreadable failure => return .unreadable failure

/-- The parts of the outcomes that a survey reports: what was found in the files
    with clashes, and the files that could not be read. -/
structure Reported where
  clashing : List Findings := []
  unreadable : List Unreadable := []

/-- Puts an outcome behind the others of its part. -/
def collect (r : Reported) (outcome : Outcome) : Logged Reported := do
  match outcome with
  | .examined findings =>
    if findings.hasClash then return { r with clashing := r.clashing ++ [findings] }
    else return r
  | .unreadable failure =>
    emit (.unreadable failure)
    return { r with unreadable := r.unreadable ++ [failure] }

/-- Surveys the selected files at `root`, where there is `sight`. -/
def survey (s : Selection) (root : Path) (sight : Sight) : Logged (Except Failure Survey) := do
  if !sight.isThere then
    return .error (.missingRoot root)
  let files ← discover s root sight
  let outcomes ← files.mapM examine
  let reported ← outcomes.foldlM collect {}
  return .ok (.ofParts root files.length reported.clashing reported.unreadable)

end Log

end Homonym
