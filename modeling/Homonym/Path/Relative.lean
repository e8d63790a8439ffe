import Homonym.Path.Basic

/-!
# Paths relative to a folder

A file below a folder is shown by what its spelling says after the folder: a
piece of its own spelling, with the idle steps around it left out. The folder
may be spelled in another way, as only components are compared. Any other file,
and the folder itself, is shown by its whole spelling.
-/

namespace Homonym

namespace Path

/-- The steps after the first `n` that are not idle. -/
def skipSteps : Nat → List Bytes → List Bytes
  | 0, steps => steps
  | _ + 1, [] => []
  | n + 1, step :: steps => if isIdle step then skipSteps (n + 1) steps else skipSteps n steps

/-- The steps without the idle ones at the end. -/
def dropIdleEnd (steps : List Bytes) : List Bytes :=
  (steps.reverse.dropWhile isIdle).reverse

/-- What is left of a path after its first `n` components. An anchor counts as
    one; when it stays, so do the idle steps right behind it. -/
def Layout.drop : Nat → Layout → Layout
  | 0, l => l
  | n + 1, l =>
    let rest := skipSteps (if l.anchor.isSome then n else n + 1) l.steps
    ⟨none, rest.dropWhile isIdle⟩

/-- The path from the folder `root` to `file`, if `file` is `root` or below
    it. -/
def relativeTo? (file root : Path) : Option Path :=
  if root.components.isPrefixOf file.components then
    let rest := file.layout.drop root.components.length
    some ⟨Layout.spelling { rest with steps := dropIdleEnd rest.steps }⟩
  else none

/-- The text shown for `file` in a list of files below `root`. -/
def shownBelow (file root : Path) : Text :=
  match file.relativeTo? root with
  | some rest => if rest.spelling = [] then file.shown else rest.shown
  | none => file.shown

end Path

end Homonym
