import Homonym.CommandLine.Phrase

/-!
# The words of the command line

The command line takes a path, flags that are either given or not, settings
that take a value each time they are given, and the requests for help and for
the version, all in any order.
-/

namespace Homonym

namespace CommandLine

/-- What is either given or not, and at most once. -/
inductive Flag where
  | showSnippets
  | failOnDuplicates
  | json
  | noColor
  | verbose
  deriving DecidableEq

/-- What takes a value, and may be given more than once. -/
inductive Setting where
  | extension
  | exclude
  deriving DecidableEq

/-- What an option stands for. -/
inductive Key where
  | flag (f : Flag)
  | setting (s : Setting)
  | help
  | version
  deriving DecidableEq

namespace Key

/-- All options. -/
def all : List Key :=
  [.setting .extension, .setting .exclude, .flag .showSnippets, .flag .failOnDuplicates,
   .flag .json, .flag .noColor, .flag .verbose, .help, .version]

/-- The word of an option, which follows two dashes. -/
def word : Key → Text
  | .setting .extension => "ext".toList
  | .setting .exclude => "exclude".toList
  | .flag .showSnippets => "show-snippets".toList
  | .flag .failOnDuplicates => "fail-on-duplicates".toList
  | .flag .json => "json".toList
  | .flag .noColor => "no-color".toList
  | .flag .verbose => "verbose".toList
  | .help => "help".toList
  | .version => "version".toList

/-- The letter of an option, which follows one dash, if it has one. -/
def letter? : Key → Option Char
  | .flag .verbose => some 'v'
  | .help => some 'h'
  | .version => some 'V'
  | _ => none

/-- The option with this word. Words are not abbreviated. -/
def ofWord? (word : Text) : Option Key :=
  all.find? fun k => k.word = word

/-- The option with this letter. -/
def ofLetter? (letter : Char) : Option Key :=
  all.find? fun k => k.letter? = some letter

/-- The option as it is written out. -/
def long (k : Key) : Text :=
  '-' :: '-' :: k.word

end Key

/-- What the value of a setting is called. -/
def Setting.placeholder : Setting → Text
  | .extension => "<EXT>".toList
  | .exclude => "<DIR>".toList

/-- What takes a value. -/
inductive Slot where
  | path
  | setting (s : Setting)
  deriving DecidableEq

/-- The slot as it is written, with its placeholder. -/
def Slot.shown : Slot → Text
  | .path => "<PATH>".toList
  | .setting s => (Key.setting s).long ++ ' ' :: s.placeholder

/-- What can be wrong with the arguments. -/
inductive Misuse where
  /-- There is no such option, or no room for a second path. -/
  | unexpected (argument : Text)
  /-- The option takes no value. -/
  | unexpectedValue (key : Key) (value : Text)
  /-- The value is missing, or empty where it must not be. -/
  | missingValue (slot : Slot)
  /-- The flag is given twice. -/
  | repeated (flag : Flag)
  /-- A value of a setting is no text. -/
  | notText
  /-- There is no path. -/
  | missingPath
  deriving DecidableEq

/-- What is wrong, in words. -/
def Misuse.message : Misuse → List Phrase
  | .unexpected argument =>
    [.plain "unexpected argument '", ⟨.invalid, argument⟩, .plain "' found"]
  | .unexpectedValue key value =>
    [.plain "unexpected value '", ⟨.invalid, value⟩, .plain "' for '", ⟨.literal, key.long⟩,
     .plain "' found; no more were expected"]
  | .missingValue slot =>
    [.plain "a value is required for '", ⟨.literal, slot.shown⟩,
     .plain "' but none was supplied"]
  | .repeated flag =>
    [.plain "the argument '", ⟨.invalid, (Key.flag flag).long⟩,
     .plain "' cannot be used multiple times"]
  | .notText => [.plain "invalid UTF-8 was detected in one or more arguments"]
  | .missingPath => [.plain "the following required arguments were not provided:"]

/-- The complaint about the arguments. -/
def Misuse.complaint (m : Misuse) : List Phrase :=
  ⟨.alarm, "error:".toList⟩ :: .plain " " :: m.message

/-- The name of the program. -/
def programName : Text :=
  "pydupes-rs".toList

/-- The name and version of the program. -/
def versionText : Text :=
  programName ++ " 0.1.0\n".toList

/-- What an option is for. -/
def Key.purpose : Key → String
  | .setting .extension => "File extensions to scan, without the dot. Repeatable [default: py]"
  | .setting .exclude =>
    "Extra directory names to skip, on top of .git, node_modules, __pycache__, .venv and venv. " ++
      "Repeatable"
  | .flag .showSnippets => "Print the first lines of every duplicate definition"
  | .flag .failOnDuplicates => "Exit with status 1 when any duplicate is found"
  | .flag .json =>
    "Output raw JSON. This is useful for integrating with other tools or CI/CD pipelines"
  | .flag .noColor => "Disable coloured output"
  | .flag .verbose => "Log each scanned file to stderr. Overridden by RUST_LOG"
  | .help => "Print help"
  | .version => "Print version"

/-- The column that the purposes of the options start in. -/
def purposeColumn : Nat := 28

/-- The line of the help on an option. -/
def Key.helpLine (k : Key) : List Phrase :=
  let letter : List Phrase := match k.letter? with
    | some c => [.plain "  ", ⟨.literal, ['-', c]⟩, .plain ", "]
    | none => [.plain "      "]
  let value : List Phrase := match k with
    | .setting s => [⟨.plain, ' ' :: s.placeholder⟩]
    | _ => []
  let words := letter ++ ⟨.literal, k.long⟩ :: value
  let width := (words.flatMap Phrase.text).length
  words ++ [⟨.plain, List.replicate (purposeColumn - width) ' '⟩, .plain k.purpose, .plain "\n"]

/-- The help of the program. -/
def helpPhrases : List Phrase :=
  [.plain "Find functions defined more than once in the same Python file\n\n",
   ⟨.heading, "Usage:".toList⟩, .plain " ", ⟨.literal, programName⟩,
   .plain " [OPTIONS] <PATH>\n\n",
   ⟨.heading, "Arguments:".toList⟩, .plain "\n  <PATH>  Folder (or single file) to scan\n\n",
   ⟨.heading, "Options:".toList⟩, .plain "\n"] ++
    Key.all.flatMap Key.helpLine

end CommandLine

end Homonym
