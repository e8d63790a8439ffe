import Homonym.CommandLine.Usage
import Homonym.Path.Basic
import Homonym.Survey.Selection

/-!
# Reading the command line

The arguments are read from left to right, each one changing the request drafted
so far or putting an end to the reading. An option written out may have its
value in the same argument, after an equals sign; otherwise the next argument is
the value, unless it starts with a dash and goes on. After a dash, letters are
options one by one. After `--`, every argument is a path.

An argument is a byte sequence. Options are texts and so are the values of the
settings, but a path may be any bytes.

What is still open (a value to come, a value that may be no text, or a path that
may turn out to be empty) is *settled* only when the next option that exists is
reached, or the path, or the end. An argument that has no place at all is
reported at once, before anything that is still open.
-/

namespace Homonym

namespace CommandLine

/-- Which flags are given. -/
structure Flags where
  showSnippets : Bool := false
  failOnDuplicates : Bool := false
  json : Bool := false
  noColor : Bool := false
  verbose : Bool := false
  deriving DecidableEq

namespace Flags

/-- Whether a flag is given. -/
def has (fs : Flags) : Flag → Bool
  | .showSnippets => fs.showSnippets
  | .failOnDuplicates => fs.failOnDuplicates
  | .json => fs.json
  | .noColor => fs.noColor
  | .verbose => fs.verbose

/-- The flags with one more. -/
def give (fs : Flags) : Flag → Flags
  | .showSnippets => { fs with showSnippets := true }
  | .failOnDuplicates => { fs with failOnDuplicates := true }
  | .json => { fs with json := true }
  | .noColor => { fs with noColor := true }
  | .verbose => { fs with verbose := true }

end Flags

/-- What the command line asks for. -/
structure Request where
  /-- The root of the survey. -/
  root : Path
  /-- The extensions of the files to survey. -/
  extensions : List Text
  /-- The folders to stay out of, besides those always stayed out of. -/
  excludes : List Text
  /-- The flags given. -/
  flags : Flags
  deriving DecidableEq

/-- What puts an end to the reading. -/
inductive Halt where
  | help
  | version
  | misuse (m : Misuse)
  deriving DecidableEq

/-- The byte that options start with. -/
def dash : UInt8 := 0x2D

/-- The byte between an option and its value. -/
def equals : UInt8 := 0x3D

/-- An argument by its shape. -/
inductive Token where
  /-- The argument `--`. -/
  | divider
  /-- An option written out, with the value behind the equals sign, if there is
      one. -/
  | long (word : Bytes) (value : Option Bytes)
  /-- Options given by their letters. -/
  | letters (letters : Bytes)
  /-- A value or a path. -/
  | plain (argument : Bytes)
  deriving DecidableEq

/-- An option written out, without its dashes. -/
def Token.ofLong (bytes : Bytes) : Token :=
  .long (bytes.takeWhile (· ≠ equals)) (bytes.dropWhile (· ≠ equals)).tail?

/-- The shape of an argument. A single dash is plain. -/
def Token.ofArgument (argument : Bytes) : Token :=
  if argument = [dash, dash] then .divider
  else if [dash, dash].isPrefixOf argument then .ofLong (argument.drop 2)
  else if argument.head? = some dash ∧ argument ≠ [dash] then .letters (argument.drop 1)
  else .plain argument

/-- What is still open. -/
inductive Pending where
  | nothing
  /-- A setting that waits for its value. -/
  | value (s : Setting)
  /-- A value that is no text. -/
  | notText
  /-- The path, which was the last thing given. -/
  | path
  deriving DecidableEq

/-- The request drafted so far. -/
structure Draft where
  path : Option Path := none
  extensions : List Text := []
  excludes : List Text := []
  flags : Flags := {}
  /-- What is still open. -/
  pending : Pending := .nothing
  /-- Whether the divider has been passed. -/
  literal : Bool := false
  deriving DecidableEq

namespace Draft

/-- Settles what is still open. -/
def settle (d : Draft) : Except Halt Draft :=
  match d.pending with
  | .nothing => .ok d
  | .value s => .error (.misuse (.missingValue (.setting s)))
  | .notText => .error (.misuse .notText)
  | .path =>
    if d.path = some ⟨[]⟩ then .error (.misuse (.missingValue .path))
    else .ok { d with pending := .nothing }

/-- The draft with one more value of a setting. If the value is no text, that is
    still open. -/
def addValue (d : Draft) (s : Setting) (value : Bytes) : Draft :=
  match Utf8.decode? value, s with
  | none, _ => { d with pending := .notText }
  | some v, .extension => { d with extensions := d.extensions ++ [v], pending := .nothing }
  | some v, .exclude => { d with excludes := d.excludes ++ [v], pending := .nothing }

/-- Takes an option without a value. -/
def addKey (d : Draft) (k : Key) : Except Halt Draft := do
  let d ← d.settle
  match k with
  | .flag f =>
    if d.flags.has f then .error (.misuse (.repeated f))
    else .ok { d with flags := d.flags.give f }
  | .setting s => .ok { d with pending := .value s }
  | .help => .error .help
  | .version => .error .version

/-- Takes an option with the value in the same argument. -/
def addKeyValue (d : Draft) (k : Key) (value : Bytes) : Except Halt Draft :=
  match k with
  | .setting s => do ((← d.settle).addValue s value).settle
  | k => .error (.misuse (.unexpectedValue k (Utf8.shown value)))

/-- Takes an option given by its letter. -/
def addLetter (d : Draft) (letter : Char) : Except Halt Draft :=
  match Key.ofLetter? letter with
  | some k => d.addKey k
  | none => .error (.misuse (.unexpected ['-', letter]))

/-- Takes options given by their letters. From where they are no text on they are
    one argument that has no place. -/
def addLetters (d : Draft) : Utf8.Reading → Except Halt Draft
  | [] => .ok d
  | some letter :: rest => do (← d.addLetter letter).addLetters rest
  | none :: rest => .error (.misuse (.unexpected ('-' :: Utf8.written (none :: rest))))

/-- Takes the path. -/
def addPath (d : Draft) (p : Path) : Except Halt Draft :=
  if d.path.isSome then .error (.misuse (.unexpected p.shown))
  else do return { ← d.settle with path := some p, pending := .path }

/-- Takes an argument in front of the divider. -/
def addToken (d : Draft) : Token → Except Halt Draft
  | .divider => .ok { d with literal := true }
  | .long word value =>
    match (Utf8.decode? word).bind Key.ofWord?, value with
    | none, _ => .error (.misuse (.unexpected ('-' :: '-' :: Utf8.shown word)))
    | some k, none => d.addKey k
    | some k, some v => d.addKeyValue k v
  | .letters letters => d.addLetters (Utf8.read letters)
  | .plain argument =>
    match d.pending with
    | .value s => .ok (d.addValue s argument)
    | _ => d.addPath ⟨argument⟩

/-- Takes an argument. -/
def add (d : Draft) (argument : Bytes) : Except Halt Draft :=
  if d.literal then d.addPath ⟨argument⟩ else d.addToken (.ofArgument argument)

/-- The request, once all arguments are read. -/
def finish (d : Draft) : Except Halt Request := do
  let d ← d.settle
  match d.path with
  | none => .error (.misuse .missingPath)
  | some root =>
    return { root
             extensions := if d.extensions.isEmpty then Selection.defaultExtensions
               else d.extensions
             excludes := d.excludes
             flags := d.flags }

end Draft

/-- Reads the arguments. -/
def parse (arguments : List Bytes) : Except Halt Request := do
  (← arguments.foldlM Draft.add {}).finish

/-- The files that are asked for. -/
def Request.selection (r : Request) : Selection :=
  Selection.excludeAll { Selection.standard with extensions := r.extensions } r.excludes

end CommandLine

end Homonym
