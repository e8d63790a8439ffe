import Homonym.Text.Basic

/-!
# Style sequences

A terminal changes the style of what follows when it meets an escape sequence
with the numbers of the style in it.
-/

namespace Homonym

namespace Terminal

/-- The escape sequence with the given parameters, which are numbers divided by
    semicolons. -/
def sequenceOf (parameters : Text) : Text :=
  '\x1b' :: '[' :: parameters ++ ['m']

/-- The escape sequence that turns all styles off. -/
def reset : Text :=
  sequenceOf ['0']

end Terminal

end Homonym
