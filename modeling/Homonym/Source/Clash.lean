import Homonym.Source.Definition

/-!
# Clashes

A *clash* is a name that a source text defines more than once, together with
all the definitions of it. The definitions are sorted into groups one by one,
each joining the group of its name or opening a new group behind the others. So
the groups stand in the order in which their names first appear, and each group
keeps the order of the definitions. The groups of a single definition are left
out at the end.
-/

namespace Homonym

namespace Source

/-- A name together with its definitions. -/
structure Clash where
  /-- The name that the definitions share. -/
  name : Text
  /-- The definitions of the name. -/
  sites : List Definition
  deriving DecidableEq

/-- The groups with one definition more: it joins the group of its name, or
    opens a new one behind the others. -/
def enrol (d : Definition) : List Clash → List Clash
  | [] => [⟨d.name, [d]⟩]
  | g :: groups =>
    if g.name = d.name then ⟨g.name, g.sites ++ [d]⟩ :: groups else g :: enrol d groups

/-- The names that are given to two or more of the definitions. -/
def clashesAmong (ds : List Definition) : List Clash :=
  (ds.foldl (fun groups d => enrol d groups) []).filter fun g => 1 < g.sites.length

/-- The names that a source text defines more than once. -/
def clashes (source : Text) : List Clash :=
  clashesAmong (definitions source)

end Source

end Homonym
