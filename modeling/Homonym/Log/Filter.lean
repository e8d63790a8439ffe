import Homonym.Log.Pattern
import Homonym.Text.Space

/-!
# Log filters

Every event has a level, comes from a *target*, a part of the program, and has
some fields. A filter is a list of directives, each of which sets the most
detailed level that is logged for the targets that start with a given word; a
directive without a word is for all targets. A directive may be for events with
a certain field only. For an event, the directive with the longest word decides;
of several with the same word the one with a field, and of these the last one.
If there is none, the event is not logged. Directives for the events inside a
span, or for a field with a certain value, can be written, but no event is
concerned.

A filter is written as a list of directives with commas between them. A
directive is a level alone, or a target, or a target and a scope in brackets,
with `=level` behind them or not. A scope is the name of a span, or a field in
braces, or both, and a field may have its value behind an equals sign. The
target in front of a scope may be left out.

* `Directive.parse?`: reads a directive;
* `Filter.admits`: whether an event is logged.
-/

namespace Homonym

namespace Log

/-- The levels of events, from the most severe to the most detailed; no event
    has the level `off`. -/
inductive Level where
  | off
  | error
  | warn
  | info
  | debug
  | trace
  deriving DecidableEq

namespace Level

/-- How detailed a level is. -/
def detail : Level → Nat
  | .off => 0
  | .error => 1
  | .warn => 2
  | .info => 3
  | .debug => 4
  | .trace => 5

/-- All levels. -/
def all : List Level :=
  [.off, .error, .warn, .info, .debug, .trace]

/-- The name of a level. -/
def label : Level → Text
  | .off => "OFF".toList
  | .error => "ERROR".toList
  | .warn => "WARN".toList
  | .info => "INFO".toList
  | .debug => "DEBUG".toList
  | .trace => "TRACE".toList

/-- The number that a text is in decimal digits, perhaps after a plus sign. -/
def number? (t : Text) : Option Nat :=
  let digits := if t.head? = some '+' then t.tail else t
  if digits ≠ [] && digits.all Char.isDigit then
    some (digits.foldl (fun v c => v * 10 + (c.toNat - '0'.toNat)) 0)
  else none

/-- The level with this name, in any mixture of cases, or of this detail. -/
def ofText? (t : Text) : Option Level :=
  all.find? fun l => t.map Char.toUpper = l.label || number? t = some l.detail

/-- The level that is set by a text. The empty text sets the most detailed
    one. -/
def ofSetting? (t : Text) : Option Level :=
  if t = [] then some .trace else ofText? t

end Level

/-- A field that a directive asks for. -/
structure Field where
  name : Text
  /-- The value that the field is to have, if it is to have one. -/
  value : Option Text
  deriving DecidableEq

/-- Reads a field: a name, perhaps with an equals sign and a value behind it.
    A second equals sign ends the value. -/
def Field.parse? (t : Text) : Option Field :=
  match t.splitOn '=' with
  | name :: value :: _ => if isFieldValue value then some ⟨name, some value⟩ else none
  | name :: [] => some ⟨name, none⟩
  | [] => none

/-- The most detailed level that is logged for some events. -/
structure Directive where
  /-- What the targets of the events start with. -/
  target : Text
  /-- The span that the events are in, if they are to be in one. -/
  span : Option Text
  /-- The field that the events have, if they are to have one. -/
  field : Option Field
  /-- The most detailed level that is logged for them. -/
  ceiling : Level
  deriving DecidableEq

namespace Directive

/-- The directive for the events of all targets. -/
def general (ceiling : Level) : Directive :=
  ⟨[], none, none, ceiling⟩

/-- Whether a target may start with this character. -/
def startsTarget (c : Char) : Bool :=
  c = '-' || c = ':' || c = '_' || isAlphanumeric c

/-- The level of a directive in which only `rest` is left after `i` characters:
    nothing, or an equals sign and the level. -/
def levelAt? (t : Text) (i : Nat) (rest : Text) : Option Level :=
  match rest with
  | [] => some .trace
  | '=' :: _ => Level.ofSetting? (t.drop (i + 1))
  | _ => none

/-- Reads what is in brackets in the directive `t` and the level behind it. The
    opening bracket is the last of the first `i` characters, and `rest` is what
    follows it. -/
def scoped? (t : Text) (target : Text) (i : Nat) (rest : Text) : Option Directive :=
  let n := (rest.takeWhile fun c => c ≠ ']' && c ≠ '\x7b').length
  let span := (t.drop i).take n
  match rest.drop n with
  | ']' :: after => do
    let level ← levelAt? t (i + n + 1) after
    return ⟨target, some span, none, level⟩
  | '\x7b' :: inner =>
    let m := (inner.takeWhile (· ≠ '\x7d')).length
    match inner.drop m with
    | '\x7d' :: ']' :: after =>
      if m = 0 then none
      else do
        let field ← Field.parse? ((t.drop (i + n + 1)).take m)
        let level ← levelAt? t (i + n + m + 3) after
        return ⟨target, if n = 0 then none else some span, some field, level⟩
    | _ => none
  | _ => none

/-- Reads a directive. White space around it does not count when it is divided
    into its parts, but then the parts are taken out of it as it stands, by
    their places. So white space at the end belongs to a target or level that
    stands there, and white space in front moves everything behind it. -/
def parse? (t : Text) : Option Directive :=
  let trimmed := t.trim
  let n := (trimmed.takeWhile fun c => c ≠ '=' && c ≠ '[').length
  if n = 0 then
    match trimmed with
    | '[' :: rest => scoped? t [] 1 rest
    | _ => none
  else if !trimmed.head?.any startsTarget then none
  else
    match trimmed.drop n with
    | '[' :: rest => scoped? t (t.take n) (n + 1) rest
    | [] => some ((Level.ofText? t).elim ⟨t, none, none, .trace⟩ general)
    | rest => do return ⟨t.take n, none, none, ← levelAt? t n rest⟩

/-- Whether a directive is for the events of a target with the given fields. -/
def concerns (d : Directive) (target : Text) (fields : List Text) : Bool :=
  d.span.isNone && d.target.isPrefixOf target &&
    d.field.all fun f => f.value.isNone && fields.contains f.name

/-- How specific a directive is: by its target first, and then by whether it
    asks for a field. -/
def specificity (d : Directive) : Nat :=
  2 * d.target.length + if d.field.isSome then 1 else 0

end Directive

/-- A log filter. -/
abbrev Filter := List Directive

namespace Filter

/-- The filter used unless another one is given. -/
def standard (verbose : Bool) : Filter :=
  [.general (if verbose then .debug else .warn)]

/-- Reads a filter; `none` if one of its directives cannot be read. A filter
    without directives lets only errors through. -/
def parse? (t : Text) : Option Filter := do
  match ← ((t.splitOn ',').filter (· ≠ [])).mapM Directive.parse? with
  | [] => some [.general .error]
  | directives => some directives

/-- The filter that is written in `setting`, or the standard one if nothing is
    written there, or nothing that can be read. -/
def choose (setting : Option Text) (verbose : Bool) : Filter :=
  (setting.bind parse?).getD (standard verbose)

/-- The directive that decides for the events of a target with the given
    fields. -/
def deciding? (f : Filter) (target : Text) (fields : List Text) : Option Directive :=
  f.foldl
    (fun best d =>
      if d.concerns target fields && best.all (fun b => b.specificity ≤ d.specificity)
      then some d else best)
    none

/-- Whether events of this level are logged that come from this target and have
    the given fields. -/
def admits (f : Filter) (target : Text) (fields : List Text) (level : Level) : Bool :=
  (f.deciding? target fields).any fun d => level.detail ≤ d.ceiling.detail

end Filter

end Log

end Homonym
