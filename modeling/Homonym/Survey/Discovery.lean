import Homonym.FileTree.Walk
import Homonym.Survey.Findings
import Homonym.Survey.Selection

/-!
# Discovery

The files to survey are found from the root down. Below the root, links are
neither followed nor taken for files, and a folder whose name is excluded is
not entered; the root itself is entered whatever it is called, and if it is a
link to a folder, too. Each file is known by the path that leads to it from the
root as the root was spelled. The files found are sorted by path.
-/

namespace Homonym

mutual

/-- The selected files in a node, which has the given path and name. -/
def Node.sources (s : Selection) (path : Path) (name : Name) : Node → List SourceFile
  | .file content => if s.wants name then [⟨path, content⟩] else []
  | .link _ => []
  | .folder entries => if s.prunes name then [] else Entries.sources s path entries

/-- The selected files in a folder with the given path. -/
def Entries.sources (s : Selection) (path : Path) : Entries → List SourceFile
  | [] => []
  | (name, node) :: rest =>
    node.sources s (path.join name) name ++ Entries.sources s path rest

end

namespace Sight

/-- Whether there is something at the end of the path. -/
def isThere : Sight → Bool
  | .missing => false
  | _ => true

/-- The selected files at the end of the path `root`, in the order of the
    entries of every folder. -/
def sources (s : Selection) (root : Path) : Sight → List SourceFile
  | .file content => if root.fileName?.any s.wants then [⟨root, content⟩] else []
  | .folder entries => Entries.sources s root entries
  | _ => []

/-- The selected files at the end of the path `root`, sorted by path. -/
def discover (s : Selection) (root : Path) (sight : Sight) : List SourceFile :=
  (sight.sources s root).mergeSort fun a b => a.path.le b.path

end Sight

end Homonym
