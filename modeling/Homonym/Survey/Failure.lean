import Homonym.Path.Basic

/-!
# Failures

What can go wrong around a survey. The survey itself never fails: a file that
cannot be read is recorded in it.
-/

namespace Homonym

/-- What can go wrong. -/
inductive Failure where
  /-- There is nothing at the root. -/
  | missingRoot (root : Path)
  /-- A file cannot be read. -/
  | unreadable (file : Path) (reason : Text)
  /-- A path is no text, so it cannot stand in a JSON document. -/
  | pathNotText
  deriving DecidableEq

namespace Failure

/-- The failure in words. -/
def message : Failure → Text
  | .missingRoot root => "Path does not exist: ".toList ++ root.shown
  | .unreadable file reason =>
    "Error reading file ".toList ++ file.shown ++ ": ".toList ++ reason
  | .pathNotText => "path contains invalid UTF-8 characters".toList

/-- The reason behind a failure, where another failure caused it. -/
def reason? : Failure → Option Text
  | .unreadable _ reason => some reason
  | _ => none

end Failure

end Homonym
