import Homonym.Text.Utf8

/-!
# Which files are surveyed

A selection names the extensions of the files to survey and the folders to stay
out of. Both go by names that are texts: a name that is not well-formed UTF-8
has no extension and is never excluded.
-/

namespace Homonym

/-- Which files of a tree are surveyed. -/
structure Selection where
  /-- The extensions of the files to survey, without the dot. -/
  extensions : List Text
  /-- The names of the folders to stay out of. -/
  excluded : List Text
  deriving DecidableEq

namespace Selection

/-- The extensions surveyed unless others are given. -/
def defaultExtensions : List Text :=
  ["py".toList]

/-- The folders that never hold sources of a project. -/
def defaultExcluded : List Text :=
  [".git".toList, "node_modules".toList, "__pycache__".toList, ".venv".toList, "venv".toList]

/-- The selection made unless another one is given. -/
def standard : Selection :=
  ⟨defaultExtensions, defaultExcluded⟩

/-- The selection that stays out of the folders called `name`, too. -/
def exclude (s : Selection) (name : Text) : Selection :=
  if name ∈ s.excluded then s else { s with excluded := s.excluded ++ [name] }

/-- The selection that stays out of the folders with one of the names, too. -/
def excludeAll (s : Selection) (names : List Text) : Selection :=
  names.foldl exclude s

/-- Whether the folders called `name` are excluded. -/
def excludes (s : Selection) (name : Text) : Bool :=
  s.excluded.contains name

/-- Whether a file of this name is surveyed: the name ends in a dot and one of
    the extensions. A name that is only the dot and the extension counts. -/
def wants (s : Selection) (name : Bytes) : Bool :=
  (Utf8.decode? name).any fun t => s.extensions.any fun e => ('.' :: e).isSuffixOf t

/-- Whether a folder of this name is stayed out of. -/
def prunes (s : Selection) (name : Bytes) : Bool :=
  (Utf8.decode? name).any s.excludes

end Selection

end Homonym
