import Homonym.Text.Utf8

/-!
# Paths

A path is known by its *spelling*, a byte sequence, and stands for its
*components*. The spelling is cut at the slashes into steps; the empty step and
the step `.` are *idle*: they say nothing, except that a leading slash makes the
path absolute and a leading `.` is a component of its own (`Path.layout`). So
`p`, `p/`, `p//` and `p/.` have the same components, and `./p` has one more.

Paths are ordered by their components, not by their spelling: component by
component, each by its bytes, a path coming before all those below it.
-/

namespace Homonym

/-- A path, as it is spelled. -/
structure Path where
  spelling : Bytes
  deriving DecidableEq

namespace Path

/-- The byte that divides the steps of a path. -/
def slash : UInt8 := 0x2F

/-- The byte that the idle step `.` and the step `..` are made of. -/
def dot : UInt8 := 0x2E

/-- What a path is made of. -/
inductive Component where
  /-- The leading slash of an absolute path. -/
  | root
  /-- The `.` that a relative path starts with. -/
  | current
  /-- The step `..`. -/
  | parent
  /-- Any other step. -/
  | name (bytes : Bytes)
  deriving DecidableEq

namespace Component

/-- The component that a step is, if it is one. -/
def ofStep? (step : Bytes) : Option Component :=
  if step = [] ∨ step = [dot] then none
  else if step = [dot, dot] then some .parent
  else some (.name step)

/-- The key that components are ordered by: the special ones come first, and
    names go by their bytes. -/
def key : Component → List Nat
  | .root => [0]
  | .current => [1]
  | .parent => [2]
  | .name bytes => 3 :: bytes.map UInt8.toNat

end Component

/-- Whether a step is idle. -/
def isIdle (step : Bytes) : Bool :=
  (Component.ofStep? step).isNone

/-- What a path may start with, other than a step. -/
inductive Anchor where
  /-- A slash: the path is absolute. -/
  | root
  /-- The step `.`. -/
  | current
  deriving DecidableEq

/-- The anchor as a component. -/
def Anchor.component : Anchor → Component
  | .root => .root
  | .current => .current

/-- A path taken apart. -/
structure Layout where
  /-- What the path starts with. -/
  anchor : Option Anchor
  /-- The steps after the anchor, the idle ones included. -/
  steps : List Bytes
  deriving DecidableEq

/-- The components of a path taken apart. -/
def Layout.components (l : Layout) : List Component :=
  l.anchor.toList.map Anchor.component ++ l.steps.filterMap Component.ofStep?

/-- The spelling of a path taken apart. -/
def Layout.spelling (l : Layout) : Bytes :=
  match l.anchor with
  | none => List.intercalate [slash] l.steps
  | some .root => slash :: List.intercalate [slash] l.steps
  | some .current => List.intercalate [slash] ([dot] :: l.steps)

/-- Takes a path apart. -/
def layout (p : Path) : Layout :=
  match p.spelling.splitOn slash with
  | [] => ⟨none, []⟩
  | step :: steps =>
    if step = [] ∧ steps ≠ [] then ⟨some .root, steps⟩
    else if step = [dot] then ⟨some .current, steps⟩
    else ⟨none, step :: steps⟩

/-- The components of a path. -/
def components (p : Path) : List Component :=
  p.layout.components

/-- The key that paths are ordered by. -/
def key (p : Path) : List (List Nat) :=
  p.components.map Component.key

/-- The order of two paths: the first component that differs decides, and so
    does the first byte within it. -/
def order (p q : Path) : Ordering :=
  List.compareLex (List.compareLex compare) p.key q.key

/-- Whether `p` comes before `q` or has the same components. -/
def le (p q : Path) : Bool :=
  (p.order q).isLE

/-- The name of the file that a path leads to, if the path ends in a name. -/
def fileName? (p : Path) : Option Bytes :=
  match p.components.getLast? with
  | some (.name bytes) => some bytes
  | _ => none

/-- The path of the entry called `name` in the folder at `p`. -/
def join (p : Path) (name : Bytes) : Path :=
  if p.spelling = [] ∨ p.spelling.getLast? = some slash then ⟨p.spelling ++ name⟩
  else ⟨p.spelling ++ slash :: name⟩

/-- The path that a text spells. -/
def ofText (t : Text) : Path :=
  ⟨Utf8.encode t⟩

/-- The spelling as a text, if it is one. -/
def text? (p : Path) : Option Text :=
  Utf8.decode? p.spelling

/-- The spelling as it is shown, with U+FFFD for what is not text. -/
def shown (p : Path) : Text :=
  Utf8.shown p.spelling

end Path

end Homonym
