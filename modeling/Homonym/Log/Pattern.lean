import Homonym.Text.Alphanumeric

/-!
# Patterns

The value that a log filter wants of a field is a number or a pattern. Here
patterns are only told from what is none: a parenthesis without its partner, a
repetition of nothing, a set that is not closed or runs backwards, an escape
that is unknown or stands for a border of words.

A value holds neither a comma nor a closing brace. So whatever needs one, such
as a repetition with a count, is never complete.
-/

namespace Homonym

namespace Log

namespace Pattern

/-- The value of a digit in base sixteen. -/
def hexValue? (c : Char) : Option Nat :=
  if c.isDigit then some (c.toNat - '0'.toNat)
  else if 'a' ≤ c.toLower ∧ c.toLower ≤ 'f' then some (c.toLower.toNat - 'a'.toNat + 10)
  else none

/-- What an escape stands for. -/
inductive Escape where
  /-- A character. -/
  | character (c : Char)
  /-- A set of characters. -/
  | set
  /-- The start or the end of the text. -/
  | anchor
  deriving DecidableEq

/-- Reads a character by its number, of `n` digits in base sixteen. -/
def numbered? (n : Nat) (t : Text) : Option (Escape × Text) := do
  if t.length < n then none
  else
    let digits ← (t.take n).mapM hexValue?
    let v := digits.foldl (fun v d => v * 16 + d) 0
    if v.isValidChar then some (.character (Char.ofNat v), t.drop n) else none

/-- Reads an escape, of which the backslash is read already. -/
def escape? : Text → Option (Escape × Text)
  | [] => none
  | c :: rest =>
    if c = 'x' then numbered? 2 rest
    else if c = 'u' then numbered? 4 rest
    else if c = 'U' then numbered? 8 rest
    else if c = 'p' ∨ c = 'P' then
      match rest with
      | category :: rest =>
        if category.toLower ∈ "clmnpsz".toList then some (.set, rest) else none
      | [] => none
    else if c ∈ "dswDSW".toList then some (.set, rest)
    else if c = 'A' ∨ c = 'z' then some (.anchor, rest)
    else if c = 'a' then some (.character '\x07', rest)
    else if c = 'f' then some (.character '\x0c', rest)
    else if c = 't' then some (.character '\t', rest)
    else if c = 'n' then some (.character '\n', rest)
    else if c = 'r' then some (.character '\r', rest)
    else if c = 'v' then some (.character '\x0b', rest)
    else if c.toNat < 0x80 ∧ !c.isAlphanum ∧ c ≠ '<' ∧ c ≠ '>' then some (.character c, rest)
    else none

/-- Reads a member of a set: a character, or an escape other than an anchor. -/
def member? : Text → Option (Escape × Text)
  | [] => none
  | '\\' :: rest => (escape? rest).filter fun m => m.1 ≠ .anchor
  | c :: rest => some (.character c, rest)

/-- What follows the opening bracket of a set, without the characters that stand
    for themselves only there: dashes, or else a closing bracket. -/
def openSet (t : Text) : Text :=
  let t := if t.head? = some '^' then t.tail else t
  if t.head? = some '-' then t.dropWhile (· = '-')
  else if t.head? = some ']' then t.tail
  else t

/-- The names of the sets of ASCII characters. -/
def asciiSets : List Text :=
  ["alnum", "alpha", "ascii", "blank", "cntrl", "digit", "graph", "lower", "print", "punct",
   "space", "upper", "word", "xdigit"].map String.toList

/-- Reads a set of ASCII characters, of which the opening bracket is read
    already. -/
def asciiSet? : Text → Option Text
  | ':' :: rest =>
    let rest := if rest.head? = some '^' then rest.tail else rest
    match rest.dropWhile (· ≠ ':') with
    | ':' :: ']' :: after =>
      if asciiSets.contains (rest.takeWhile (· ≠ ':')) then some after else none
    | _ => none
  | _ => none

/-- Reads the members of a set and of the `depth` sets around it, up to the
    bracket that closes the outermost one. No more than `fuel` members are
    read. -/
def members? (fuel depth : Nat) (t : Text) : Option Text :=
  match fuel with
  | 0 => none
  | fuel + 1 =>
    match t with
    | '[' :: rest =>
      match asciiSet? rest with
      | some after => members? fuel depth after
      | none => members? fuel (depth + 1) (openSet rest)
    | ']' :: rest => if depth = 0 then some rest else members? fuel (depth - 1) rest
    | '&' :: '&' :: rest | '-' :: '-' :: rest | '~' :: '~' :: rest => members? fuel depth rest
    | t => do
      let (first, rest) ← member? t
      match rest with
      | '-' :: ']' :: _ | '-' :: '-' :: _ => members? fuel depth rest
      | '-' :: rest =>
        match first, ← member? rest with
        | .character a, (.character b, rest) =>
          if a.toNat ≤ b.toNat then members? fuel depth rest else none
        | _, _ => none
      | rest => members? fuel depth rest

/-- Reads the name of a group, up to the bracket that ends it. -/
def groupName? (t : Text) : Option (Text × Text) :=
  let name := t.takeWhile (· ≠ '>')
  let proper := match name with
    | [] => false
    | c :: rest =>
      (c = '_' || (isAlphanumeric c && !c.isDigit)) &&
        rest.all fun c => isAlphanumeric c || c ∈ "_.[]".toList
  match t.dropWhile (· ≠ '>') with
  | _ :: rest => if proper then some (name, rest) else none
  | [] => none

/-- What a parenthesis opens. -/
inductive Opening where
  /-- A group. -/
  | group
  /-- A group with a name. -/
  | named (name : Text)
  /-- Nothing: it only sets flags. -/
  | flags
  deriving DecidableEq

/-- Whether these are flags: each one is known and given once, and a dash stands
    in front of another one. -/
def areFlags (t : Text) : Bool :=
  t.all (· ∈ "imsUuxR-".toList) && decide t.Nodup && t.getLast? ≠ some '-'

/-- Reads what follows an opening parenthesis. -/
def opening? : Text → Option (Opening × Text)
  | '?' :: 'P' :: '<' :: rest | '?' :: '<' :: rest =>
    (groupName? rest).map fun (name, rest) => (.named name, rest)
  | '?' :: rest =>
    let flags := rest.takeWhile fun c => c ≠ ':' && c ≠ ')'
    match rest.dropWhile fun c => c ≠ ':' && c ≠ ')' with
    | ':' :: rest => if areFlags flags then some (.group, rest) else none
    | ')' :: rest => if areFlags flags && flags ≠ [] then some (.flags, rest) else none
    | _ => none
  | t => some (.group, t)

/-- Whether the rest `t` of a pattern is one, where `depth` groups are open, the
    groups `names` have been named, and there is something to repeat right in
    front of it (`operand`). No more than `fuel` items are read. -/
def isRest (fuel depth : Nat) (names : List Text) (operand : Bool) (t : Text) : Bool :=
  match fuel with
  | 0 => false
  | fuel + 1 =>
    match t with
    | [] => depth = 0
    | '|' :: rest => isRest fuel depth names false rest
    | ')' :: rest => depth ≠ 0 && isRest fuel (depth - 1) names true rest
    | '*' :: rest | '+' :: rest | '?' :: rest => operand && isRest fuel depth names true rest
    | '\x7b' :: _ => false
    | '(' :: rest =>
      match opening? rest with
      | none => false
      | some (.group, rest) => isRest fuel (depth + 1) names false rest
      | some (.named name, rest) =>
        !names.contains name && isRest fuel (depth + 1) (name :: names) false rest
      | some (.flags, rest) => isRest fuel depth names false rest
    | '[' :: rest => (members? rest.length.succ 0 (openSet rest)).any (isRest fuel depth names true)
    | '\\' :: rest => (escape? rest).any fun m => isRest fuel depth names true m.2
    | _ :: rest => isRest fuel depth names true rest

/-- Whether `t` is a decimal number, without a sign: digits and perhaps a point,
    and perhaps an exponent. -/
def isDecimal (t : Text) : Bool :=
  let whole := t.takeWhile Char.isDigit
  let rest := t.dropWhile Char.isDigit
  let point := rest.head? = some '.'
  let places := if point then rest.tail.takeWhile Char.isDigit else []
  let exponent := if point then rest.tail.dropWhile Char.isDigit else rest
  (whole ≠ [] || places ≠ []) &&
    match exponent with
    | [] => true
    | e :: rest =>
      let digits := if rest.head?.any (· ∈ "+-".toList) then rest.tail else rest
      (e = 'e' || e = 'E') && digits ≠ [] && digits.all Char.isDigit

/-- Whether `t` is a number or stands for one. -/
def isNumber (t : Text) : Bool :=
  isDecimal t || (["inf", "infinity", "nan"].map String.toList).contains (t.map Char.toLower)

end Pattern

open Pattern in
/-- Whether a field may be wanted to have the value `t`: a number, with or
    without a sign, or a pattern. As a pattern, a number cannot start with a
    plus sign, but all other numbers are patterns as well. -/
def isFieldValue (t : Text) : Bool :=
  isRest t.length.succ 0 [] false t || (t.head? = some '+' && isNumber t.tail)

end Log

end Homonym
