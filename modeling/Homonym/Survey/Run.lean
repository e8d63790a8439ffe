import Homonym.Survey.Basic
import Homonym.Survey.Discovery
import Homonym.Survey.Failure

/-!
# Surveying a root

A survey of a root examines every file that is discovered there. It fails only
if there is nothing at the root.
-/

namespace Homonym

namespace Survey

/-- The outcomes of the selected files at `root`, in the order of their
    paths. -/
def outcomes (s : Selection) (root : Path) (sight : Sight) : List Outcome :=
  (sight.discover s root).map SourceFile.examine

/-- Surveys the selected files at `root`, where there is `sight`. -/
def ofRoot (s : Selection) (root : Path) (sight : Sight) : Except Failure Survey :=
  if sight.isThere then .ok (ofOutcomes root (outcomes s root sight))
  else .error (.missingRoot root)

end Survey

end Homonym
