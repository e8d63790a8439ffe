import Homonym.Text.Utf8

/-!
# What a terminal would print

Text that was written for a terminal holds control characters and escape
sequences. What is left of it without them is found by following the terminal
from byte to byte: most of the time it stands in the text, and an escape
character leads it into a sequence, whose first bytes say of which kind it is
and so where it ends.

The bytes are taken in turns of *skipping* and *printing*. While skipping, the
terminal is followed until it meets a byte to print: a character of the text, or
white space, which has its effect inside most sequences, too. From there on,
bytes are printed as if the terminal stood in the text, up to the first one
that is none to print there; only then the terminal is followed on, from where
it was left.

* `Terminal.next?`: where a byte leads the terminal;
* `Terminal.printable`: what is left of some bytes.
-/

namespace Homonym

namespace Terminal

/-- Where a terminal stands. -/
inductive State where
  /-- In the text. -/
  | text
  /-- In a character, with some bytes of it to come. -/
  | character (due : Nat)
  /-- After an escape character. -/
  | escape
  /-- In an escape sequence with intermediate bytes. -/
  | intermediate
  /-- In a control sequence. -/
  | control
  /-- At the start of a device control string. -/
  | deviceStart
  /-- In the parameters of a device control string. -/
  | deviceParameters
  /-- In the intermediate bytes of a device control string. -/
  | deviceIntermediate
  /-- In a string that only a terminator or an escape character ends. -/
  | string
  /-- In an operating system command. -/
  | command
  deriving DecidableEq

/-- Where a byte leads the terminal; `none` if it stays where it is. -/
def next? (s : State) (b : UInt8) : Option State :=
  let v := b.toNat
  if v = 0x18 ∨ v = 0x1A then some .text
  else if v = 0x1B then some .escape
  else
    match s with
    | .text =>
      if 0xC2 ≤ v ∧ v ≤ 0xDF then some (.character 1)
      else if 0xE0 ≤ v ∧ v ≤ 0xEF then some (.character 2)
      else if 0xF0 ≤ v ∧ v ≤ 0xF4 then some (.character 3)
      else none
    | .character due => if due ≤ 1 then some .text else some (.character (due - 1))
    | .escape =>
      if 0x20 ≤ v ∧ v ≤ 0x2F then some .intermediate
      else if v = 0x5B then some .control
      else if v = 0x5D then some .command
      else if v = 0x50 then some .deviceStart
      else if v = 0x58 ∨ v = 0x5E ∨ v = 0x5F then some .string
      else if 0x30 ≤ v ∧ v ≤ 0x7E then some .text
      else none
    | .intermediate => if 0x30 ≤ v ∧ v ≤ 0x7E then some .text else none
    | .control => if 0x40 ≤ v ∧ v ≤ 0x7E then some .text else none
    | .deviceStart =>
      if 0x20 ≤ v ∧ v ≤ 0x2F then some .deviceIntermediate
      else if 0x30 ≤ v ∧ v ≤ 0x3F then some .deviceParameters
      else if 0x40 ≤ v ∧ v ≤ 0x7E then some .string
      else none
    | .deviceParameters =>
      if 0x20 ≤ v ∧ v ≤ 0x2F then some .deviceIntermediate
      else if 0x3C ≤ v ∧ v ≤ 0x7E then some .string
      else none
    | .deviceIntermediate => if 0x30 ≤ v ∧ v ≤ 0x7E then some .string else none
    | .string => if v = 0x9C then some .text else none
    | .command => if v = 0x07 then some .text else none

/-- Where the terminal stands after a byte. -/
def after (s : State) (b : UInt8) : State :=
  (next? s b).getD s

/-- Whether control characters have their effect where the terminal stands. -/
def State.executes : State → Bool
  | .text | .escape | .intermediate | .control => true
  | _ => false

/-- Whether a byte is white space: a tab, a line feed, a form feed, a carriage
    return or a space. -/
def isBlank (b : UInt8) : Bool :=
  b = 0x09 || b = 0x0A || b = 0x0C || b = 0x0D || b = 0x20

/-- Whether a byte is one to print where the terminal stands. -/
def prints (s : State) (b : UInt8) : Bool :=
  (s = .text && ((0x20 ≤ b && b < 0x7F) || (0xC2 ≤ b && b ≤ 0xF4))) || (s.executes && isBlank b)

/-- How far the bytes are taken. -/
structure Progress where
  /-- What is left of them, the last byte first. -/
  kept : Bytes := []
  /-- Whether bytes are printed. -/
  printing : Bool := false
  /-- Where the terminal was left. -/
  state : State := .text
  deriving DecidableEq

namespace Progress

/-- Takes a byte while skipping. -/
def skip (p : Progress) (b : UInt8) : Progress :=
  if prints p.state b then
    { kept := b :: p.kept, printing := true, state := after p.state b }
  else
    { p with printing := false, state := after p.state b }

/-- Takes a byte. -/
def step (p : Progress) (b : UInt8) : Progress :=
  match p.printing, p.state with
  | true, .character due => { p with kept := b :: p.kept, state := after (.character due) b }
  | true, _ =>
    -- The byte is read as one of the text, wherever the terminal was left.
    let q := { p with state := (next? .text b).getD p.state }
    if prints .text b then { q with kept := b :: q.kept } else q.skip b
  | false, _ => p.skip b

end Progress

/-- What is left of some bytes without control characters and escape
    sequences. -/
def printable (bytes : Bytes) : Bytes :=
  (bytes.foldl Progress.step {}).kept.reverse

end Terminal

end Homonym
