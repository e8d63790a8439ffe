import Homonym.Text.Basic

/-!
# The environment of a run

Whether something is written in colour is decided by variables of the
environment, one of which forces it, one of which forbids it, and one of which
asks for it where the output is a terminal. A variable that is set to `0` does
not ask for anything. When one variable forces colour and another one forbids
it, the report is in colour, but help and complaints are not.
-/

namespace Homonym

namespace CommandLine

/-- What a run finds in its environment. -/
structure Environment where
  /-- The log filter that overrides the standard one. -/
  logFilter : Option Text
  /-- Whether the report is in colour. -/
  reportColour : Bool
  /-- Whether the help is in colour. -/
  helpColour : Bool
  /-- Whether complaints about the arguments are in colour. -/
  complaintColour : Bool
  deriving DecidableEq

/-- The variables that colour depends on. -/
structure ColourVariables where
  /-- Forces colour. -/
  force : Option Text
  /-- Forbids colour. -/
  forbid : Option Text
  /-- Asks for colour on a terminal. -/
  ask : Option Text
  /-- The kind of terminal. -/
  terminal : Option Text
  deriving DecidableEq

namespace ColourVariables

/-- Whether a variable that is set to `value` asks for something. -/
def asks (value : Text) : Bool :=
  value ≠ ['0']

/-- Whether a report is in colour, that goes to a terminal or not. -/
def forReport (v : ColourVariables) (toTerminal : Bool) : Bool :=
  if v.force.any asks then true
  else if v.forbid.isSome then false
  else v.ask.all asks && toTerminal

/-- Whether help and complaints are in colour, that go to a terminal or not. -/
def forUsage (v : ColourVariables) (toTerminal : Bool) : Bool :=
  if v.forbid.any (· ≠ []) then false
  else if v.force.any asks then true
  else if !v.ask.all asks then false
  else toTerminal && (v.ask.isSome || v.terminal.any (· ≠ "dumb".toList))

end ColourVariables

end CommandLine

end Homonym
