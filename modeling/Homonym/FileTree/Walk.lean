import Homonym.FileTree.Basic

/-!
# Where a path leads

A path is followed step by step in the tree of all files. It starts at the top if
it starts with a slash, and otherwise at the place where one stands (`World`). An
idle step stays where it is and `..` goes back to the folder above, or stays at
the top, so both need a folder to stand in; any other step goes to the entry of
that name. A link on the way is replaced by its target, which starts at the top
or in the folder of the link; a link at the very end may be kept instead. As
links can lead in circles, at most `linkLimit` of them are followed. A path that
is empty, or whose spelling has more than `pathLimit` bytes, leads nowhere.

* `World.locate`: the place that a path leads to;
* `World.look`: what is there.
-/

namespace Homonym

/-- The number of links that are followed on the way. -/
def linkLimit : Nat := 40

/-- Where some steps lead as far as the first link to follow. -/
inductive Leg where
  /-- To a place. There is a node at it, or a folder that could hold one. -/
  | reached (place : List Name)
  /-- To a link in a folder, with steps still to go. -/
  | link (base : List Name) (target : Bytes) (rest : List Bytes)
  /-- To no place in the tree. -/
  | nowhere
  deriving DecidableEq

/-- The number of bytes that the spelling of a path may have to be followed. -/
def pathLimit : Nat := 4095

namespace Path

/-- The steps of a path from where it starts. A path that is empty or too long
    has none. -/
def steps? (p : Path) : Option (List Bytes) :=
  if p.spelling = [] ∨ pathLimit < p.spelling.length then none
  else some (p.spelling.splitOn slash)

/-- Where a path starts that is followed from the place `here`. -/
def start (p : Path) (here : List Name) : List Name :=
  if p.spelling.head? = some slash then [] else here

end Path

namespace Node

/-- Goes along some steps from the place `here`, as far as the first link to
    follow. A link at the end is one of these if `toEnd` holds. -/
def advance (top : Node) (toEnd : Bool) (here : List Name) : List Bytes → Leg
  | [] => .reached here
  | step :: rest =>
    match top.get? here with
    | some (.folder entries) =>
      match Path.Component.ofStep? step with
      | some (.name name) =>
        match entries.lookup name with
        | some (.link target) =>
          if toEnd || !rest.isEmpty then .link here target rest
          else .reached (here ++ [name])
        | some _ => advance top toEnd (here ++ [name]) rest
        | none => if rest.isEmpty then .reached (here ++ [name]) else .nowhere
      -- Nothing is above the top: at the empty place, `dropLast` stays there.
      | some _ => advance top toEnd here.dropLast rest
      | none => advance top toEnd here rest
    | _ => .nowhere

/-- Goes along some steps from the place `here` and follows up to `budget`
    links on the way. -/
def travel (top : Node) (toEnd : Bool) (budget : Nat) (here : List Name) (steps : List Bytes) :
    Option (List Name) :=
  match top.advance toEnd here steps with
  | .reached place => some place
  | .nowhere => none
  | .link base target rest =>
    match budget, Path.steps? ⟨target⟩ with
    | budget + 1, some steps =>
      travel top toEnd budget (Path.start ⟨target⟩ base) (steps ++ rest)
    | _, _ => none
  termination_by structural budget

end Node

/-- What there is at the end of a path. -/
inductive Sight where
  /-- Nothing. -/
  | missing
  /-- A file. -/
  | file (content : Bytes)
  /-- A folder, or a link to one. -/
  | folder (entries : Entries)
  /-- Something else, such as a link to a file. -/
  | other

/-- All files there are, and where in them one stands. -/
structure World where
  /-- The tree of all files, from the root of the file system down. -/
  top : Node
  /-- The place that paths start at unless they start with a slash. -/
  here : List Name

namespace World

/-- The place that a path leads to, with a link at its end followed (`toEnd`) or
    kept. There need not be a node at it. -/
def locate (w : World) (toEnd : Bool) (p : Path) : Option (List Name) :=
  p.steps?.bind (w.top.travel toEnd linkLimit (p.start w.here))

/-- What a path leads to. -/
def look (w : World) (p : Path) : Sight :=
  match (w.locate false p).bind w.top.get? with
  | none => .missing
  | some (.file content) => .file content
  | some (.folder entries) => .folder entries
  | some (.link _) =>
    match (w.locate true p).bind w.top.get? with
    | some (.folder entries) => .folder entries
    | some (.file _) => .other
    | _ => .missing

end World

end Homonym
