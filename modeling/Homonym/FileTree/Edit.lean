import Homonym.FileTree.Walk

/-!
# Changing a tree

Files, links and folders are put into the tree of a world at the end of a path,
and the folders on the way are made where they are missing. A change that cannot
be made (a folder would have to be where a file is) gives no world.
-/

namespace Homonym

/-- The entries with the entry `name` replaced, or added behind the others. -/
def Entries.put (name : Name) (node : Node) : Entries → Entries
  | [] => [(name, node)]
  | (other, old) :: rest =>
    if other = name then (name, node) :: rest else (other, old) :: Entries.put name node rest

namespace Node

/-- The tree with `node` put at a place. -/
def put (top : Node) (place : List Name) (node : Node) : Node :=
  match place, top with
  | [], _ => node
  | name :: place, .folder entries =>
    let old := (entries.lookup name).getD (.folder [])
    .folder (Entries.put name (put old place node) entries)
  | _ :: _, other => other

/-- The tree with nothing at a place. -/
def clear (top : Node) (place : List Name) : Node :=
  match place, top with
  | [name], .folder entries => .folder (entries.filter fun e => e.1 ≠ name)
  | name :: place, .folder entries =>
    .folder (entries.map fun e => if e.1 = name then (e.1, clear e.2 place) else e)
  | _, other => other

/-- Goes one step further from a place to a folder, and makes the folder if
    there is nothing. -/
def enter (s : Node × List Name) (step : Bytes) : Option (Node × List Name) := do
  let place ← s.1.travel true linkLimit s.2 [step]
  match s.1.get? place with
  | some (.folder _) => some (s.1, place)
  | some _ => none
  | none => some (s.1.put place (.folder []), place)

/-- The tree with a folder at the end of some steps from the place `here`. -/
def makeFolders (top : Node) (here : List Name) (steps : List Bytes) : Option Node :=
  (steps.foldlM enter (top, here)).map Prod.fst

end Node

namespace World

/-- The world with a folder at `p`. -/
def makeFolder (w : World) (p : Path) : Option World := do
  let top ← w.top.makeFolders (p.start w.here) (← p.steps?)
  return { w with top }

/-- The world with `node` at `p`, where a link at the end of the path is
    followed (`toEnd`) or replaced. -/
def place (w : World) (toEnd : Bool) (p : Path) (node : Node) : Option World := do
  let top ← w.top.makeFolders (p.start w.here) (← p.steps?).dropLast
  let spot ← { w with top : World }.locate toEnd p
  return { w with top := top.put spot node }

/-- The world with a file at `p` that holds `content`. -/
def writeFile (w : World) (p : Path) (content : Bytes) : Option World :=
  w.place true p (.file content)

/-- The world with a link at `p`. -/
def makeLink (w : World) (p : Path) (target : Bytes) : Option World :=
  w.place false p (.link target)

/-- The world without what is at `p`. -/
def remove (w : World) (p : Path) : Option World := do
  return { w with top := w.top.clear (← w.locate false p) }

end World

end Homonym
