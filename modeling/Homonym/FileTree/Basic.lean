import Homonym.Path.Basic

/-!
# File trees

A tree is the folder at its top with all that is in it: files, symbolic links
and folders. A *place* in the tree is the list of the names that lead to it from
the top through folders alone, so that it is the place of at most one node.

The names in a folder are distinct, and none of them is empty, holds a slash, or
is one of the steps `.` and `..` that say where to go instead of naming an entry
(`Node.WellFormed`).
-/

namespace Homonym

/-- The name of an entry of a folder. -/
abbrev Name := Bytes

/-- A file tree. -/
inductive Node where
  | file (content : Bytes)
  | link (target : Bytes)
  | folder (entries : List (Name × Node))

/-- The entries of a folder, in any order. -/
abbrev Entries := List (Name × Node)

/-- Whether some bytes can be the name of an entry. -/
def IsName (name : Name) : Prop :=
  Path.Component.ofStep? name = some (.name name) ∧ Path.slash ∉ name

instance (name : Name) : Decidable (IsName name) :=
  inferInstanceAs (Decidable (_ ∧ _))

namespace Node

/-- The entry of this name, if the node is a folder that has one. -/
def child? (node : Node) (name : Name) : Option Node :=
  match node with
  | .folder entries => entries.lookup name
  | _ => none

/-- The node at a place. -/
def get? (node : Node) : List Name → Option Node
  | [] => some node
  | name :: place => (node.child? name).bind (get? · place)

end Node

mutual

/-- Every folder in the tree has distinct entries with proper names. -/
def Node.WellFormed : Node → Prop
  | .file _ => True
  | .link _ => True
  | .folder entries => (entries.map Prod.fst).Nodup ∧ Entries.WellFormed entries

/-- The entries have proper names and are well-formed themselves. -/
def Entries.WellFormed : Entries → Prop
  | [] => True
  | (name, node) :: rest => IsName name ∧ node.WellFormed ∧ Entries.WellFormed rest

end

end Homonym
