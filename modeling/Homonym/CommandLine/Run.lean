import Homonym.CommandLine.Environment
import Homonym.CommandLine.Request
import Homonym.Log.Run
import Homonym.Report.Basic
import Homonym.Survey.Json

/-!
# Running the program

A run reads its arguments, surveys the root that they name and writes the survey
as a report or as a JSON document. What it sees of the world is its arguments,
its environment and what there is at the root; what it leaves behind is an exit
status, its output, its log and a complaint, if there is one.
-/

namespace Homonym

namespace CommandLine

/-- What a run leaves behind. -/
structure Result where
  /-- The exit status: 0, or 1 for a failure, or 2 for arguments that cannot be
      read. -/
  status : UInt8
  /-- The output. -/
  output : Text
  /-- The events logged. -/
  log : List Log.Event
  /-- What went wrong, in words. -/
  complaint : Option Text
  deriving DecidableEq

namespace Request

/-- How the report is written. -/
def reportOptions (r : Request) (env : Environment) : Report.Options :=
  { snippets := r.flags.showSnippets, colour := env.reportColour && !r.flags.noColor }

/-- The survey as it is written. -/
def output (r : Request) (env : Environment) (s : Survey) : Except Failure Text :=
  if r.flags.json then (· ++ ['\n']) <$> s.document
  else .ok (Report.text (r.reportOptions env) s)

/-- Does what is asked for, where there is `sight` at the root. -/
def carryOut (r : Request) (env : Environment) (sight : Sight) : Result :=
  let (survey, events) := ((Log.survey r.selection r.root sight).run []).run
  let log := (Log.Filter.choose env.logFilter r.flags.verbose).keep events
  match survey with
  | .error failure => ⟨1, [], log, some ("Error: ".toList ++ failure.message)⟩
  | .ok survey =>
    match r.output env survey with
    | .error failure => ⟨1, [], log, some ("Error: ".toList ++ failure.message)⟩
    | .ok output => ⟨if survey.fails r.flags.failOnDuplicates then 1 else 0, output, log, none⟩

end Request

/-- What a run leaves behind that ends with its arguments. -/
def Halt.result (env : Environment) : Halt → Result
  | .help => ⟨0, say env.helpColour helpPhrases, [], none⟩
  | .version => ⟨0, versionText, [], none⟩
  | .misuse m => ⟨2, [], [], some (say env.complaintColour m.complaint)⟩

/-- Runs the program in a world where `look` says what there is at a path. -/
def run (env : Environment) (look : Path → Sight) (arguments : List Bytes) : Result :=
  match parse arguments with
  | .error halt => halt.result env
  | .ok r => r.carryOut env (look r.root)

end CommandLine

end Homonym
