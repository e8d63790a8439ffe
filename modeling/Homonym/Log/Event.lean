import Homonym.Log.Filter
import Homonym.Survey.Findings
import Homonym.Survey.Failure

/-!
# Events of a survey

A survey logs how many files were discovered, and for each of them what was
found in it or why it could not be read. A filter decides which of these events
are kept.
-/

namespace Homonym

namespace Log

/-- What happens in a survey. -/
inductive Event where
  /-- The files below a root were discovered. -/
  | discovered (files : Nat) (root : Path)
  /-- A file was examined. -/
  | examined (findings : Findings)
  /-- A file could not be read. -/
  | unreadable (failure : Unreadable)
  deriving DecidableEq

namespace Event

/-- The level of an event. -/
def level : Event → Level
  | .discovered .. | .examined _ => .debug
  | .unreadable _ => .warn

/-- The part of the program that an event comes from. -/
def target : Event → Text
  | .discovered .. => "pydupes_rs::discovery".toList
  | .examined _ | .unreadable _ => "pydupes_rs::analyzer".toList

/-- The event in words. -/
def message : Event → Text
  | .discovered files root =>
    "Discovered ".toList ++ Text.ofNat files ++ " file(s) under ".toList ++ root.shown
  | .examined findings =>
    findings.file.shown ++ ": ".toList ++ Text.ofNat findings.definitions ++
      " function(s), ".toList ++ Text.ofNat findings.clashes.length ++
      " duplicate name(s)".toList
  | .unreadable failure => (Failure.unreadable failure.file failure.reason).message

/-- The fields of an event. -/
def fields (_ : Event) : List Text :=
  ["message".toList]

/-- A character as it stands in the log: those that could steer a terminal are
    written out. -/
def written (c : Char) : Text :=
  if c ∈ ['\x07', '\x08', '\x0c', '\x1b', '\x7f'] then
    ['\\', 'x', Nat.digitChar (c.toNat / 16), Nat.digitChar (c.toNat % 16)]
  else if 0x80 ≤ c.toNat ∧ c.toNat ≤ 0x9F then
    ['\\', 'u', '\x7b', Nat.digitChar (c.toNat / 16), Nat.digitChar (c.toNat % 16), '\x7d']
  else [c]

/-- The event as it stands in the log, with its level in front. -/
def entry (e : Event) : Text :=
  e.level.label ++ ' ' :: e.message.flatMap written

end Event

/-- The events that a filter lets through. -/
def Filter.keep (f : Filter) (events : List Event) : List Event :=
  events.filter fun e => f.admits e.target e.fields e.level

end Log

end Homonym
