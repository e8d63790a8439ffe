import Homonym.Text.Basic

/-!
# UTF-8

A byte sequence is read from left to right by a machine (`Utf8.step`) that is
either between two characters or still owes some bytes of one. The first byte
of a character says how many bytes follow and, for the second, in which range
it lies: this rules out overlong forms, surrogates and values above U+10FFFF at
the first byte that no character can have there. A byte that does not fit ends
an *ill-formed part*, and is then read as a first byte itself.

* `Utf8.encode`: the bytes of a text;
* `Utf8.decode?`: the text that some bytes encode, if they encode one;
* `Utf8.shown`: the text shown for any bytes, with U+FFFD in place of each
  ill-formed part.
-/

namespace Homonym

namespace Utf8

/-- A byte that continues a character, with the lowest six bits of `v`. -/
def trailing (v : Nat) : UInt8 :=
  UInt8.ofNat (0x80 + v % 0x40)

/-- The bytes of one character, from one for ASCII to four. -/
def encodeChar (c : Char) : Bytes :=
  let v := c.toNat
  if v < 0x80 then [UInt8.ofNat v]
  else if v < 0x800 then [UInt8.ofNat (0xC0 + v / 0x40), trailing v]
  else if v < 0x10000 then
    [UInt8.ofNat (0xE0 + v / 0x1000), trailing (v / 0x40), trailing v]
  else
    [UInt8.ofNat (0xF0 + v / 0x40000), trailing (v / 0x1000), trailing (v / 0x40), trailing v]

/-- The bytes of a text. -/
def encode (t : Text) : Bytes :=
  t.flatMap encodeChar

/-- A range of bytes, both ends included. -/
structure Range where
  lo : UInt8
  hi : UInt8
  deriving DecidableEq

/-- Whether `b` lies in the range. -/
def Range.holds (r : Range) (b : UInt8) : Bool :=
  r.lo ≤ b && b ≤ r.hi

/-- The bytes that may continue a character. -/
def Range.trailing : Range :=
  ⟨0x80, 0xBF⟩

/-- Where the reader stands between two bytes. -/
inductive State where
  /-- Between two characters. -/
  | idle
  /-- Inside a character: `bits` is the value read so far, the next byte lies
      in `next`, and the ones after it in the ranges `later`. -/
  | owing (bits : Nat) (next : Range) (later : List Range)
  deriving DecidableEq

/-- What the reader meets: a character, or (`none`) an ill-formed part. -/
abbrev Reading := List (Option Char)

/-- Reads the first byte of a character. -/
def first (b : UInt8) : Reading × State :=
  let v := b.toNat
  let t := Range.trailing
  if v < 0x80 then ([some (Char.ofNat v)], .idle)
  else if v < 0xC2 then ([none], .idle)
  else if v < 0xE0 then ([], .owing (v - 0xC0) t [])
  else if v = 0xE0 then ([], .owing 0 ⟨0xA0, 0xBF⟩ [t])
  else if v = 0xED then ([], .owing 0xD ⟨0x80, 0x9F⟩ [t])
  else if v < 0xF0 then ([], .owing (v - 0xE0) t [t])
  else if v = 0xF0 then ([], .owing 0 ⟨0x90, 0xBF⟩ [t, t])
  else if v < 0xF4 then ([], .owing (v - 0xF0) t [t, t])
  else if v = 0xF4 then ([], .owing 4 ⟨0x80, 0x8F⟩ [t, t])
  else ([none], .idle)

/-- Reads one byte. A byte out of the range that is due ends an ill-formed part
    and starts anew. -/
def step : State → UInt8 → Reading × State
  | .idle, b => first b
  | .owing bits next later, b =>
    if next.holds b then
      let bits := bits * 0x40 + (b.toNat - 0x80)
      match later with
      | [] => ([some (Char.ofNat bits)], .idle)
      | next :: later => ([], .owing bits next later)
    else
      (none :: (first b).1, (first b).2)

/-- What is met at the end of the bytes: a character cut short is ill-formed. -/
def finish : State → Reading
  | .idle => []
  | .owing .. => [none]

/-- One byte more on what was read before, the last thing read first. -/
def feed (s : Reading × State) (b : UInt8) : Reading × State :=
  ((step s.2 b).1.reverse ++ s.1, (step s.2 b).2)

/-- Everything that is met in the bytes, in order. -/
def read (bytes : Bytes) : Reading :=
  let s := bytes.foldl feed ([], .idle)
  (finish s.2 ++ s.1).reverse

/-- The text that the bytes encode; `none` if a part of them is ill-formed. -/
def decode? (bytes : Bytes) : Option Text :=
  (read bytes).mapM id

/-- What was met as a text, with U+FFFD in place of each ill-formed part. -/
def written (r : Reading) : Text :=
  r.map (·.getD '\uFFFD')

/-- The text shown for the bytes. -/
def shown (bytes : Bytes) : Text :=
  written (read bytes)

end Utf8

end Homonym
