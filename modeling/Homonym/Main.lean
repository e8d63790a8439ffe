import Homonym.CommandLine.Run

/-!
# The program

The outer layer of the program: it reads the part of the disk that a request is
about into a file tree, and writes down what the run leaves behind. All
decisions are made elsewhere; here they only save reading what will not be
looked at.
-/

namespace Homonym

namespace Disk

/-- What a file holds. -/
def readFile (path : String) : IO Bytes := do
  return (← IO.FS.readBinFile path).toList

/-- What `read` gives, or `none` with a warning if it cannot be read. -/
def attempt {α : Type} (read : IO α) : IO (Option α) := do
  try
    return some (← read)
  catch e =>
    IO.eprintln s!"WARN Skipping unreadable entry: {e}"
    return none

mutual

/-- The entries of the folder at a path that can hold a file that is
    selected. -/
partial def readFolder (s : Selection) (path : String) : IO Entries := do
  let mut entries := []
  for entry in (← attempt (System.mkFilePath [path]).readDir).getD #[] do
    let name := Utf8.encode entry.fileName.toList
    if let some (some node) ← attempt (readEntry s entry.path.toString name) then
      entries := (name, node) :: entries
  return entries

/-- The entry of a folder at a path, if it can hold a file that is selected. -/
partial def readEntry (s : Selection) (path : String) (name : Name) : IO (Option Node) := do
  match (← (System.mkFilePath [path]).symlinkMetadata).type with
  | .file => if s.wants name then return some (.file (← readFile path)) else return none
  | .dir => if s.prunes name then return none else return some (.folder (← readFolder s path))
  | _ => return none

end

/-- What there is at the root of a survey. -/
def look (s : Selection) (root : Path) : IO Sight := do
  let path := String.ofList root.shown
  try
    match (← (System.mkFilePath [path]).symlinkMetadata).type with
    | .file =>
      if root.fileName?.any s.wants then return .file (← readFile path) else return .other
    | .dir => return .folder (← readFolder s path)
    | _ =>
      match (← (System.mkFilePath [path]).metadata).type with
      | .dir => return .folder (← readFolder s path)
      | _ => return .other
  catch _ => return .missing

end Disk

namespace CommandLine

/-- The value of a variable of the environment. -/
def envText? (name : String) : IO (Option Text) := do
  return (← IO.getEnv name).map String.toList

/-- The environment of the run. -/
def readEnvironment : IO Environment := do
  let colour : ColourVariables :=
    { force := ← envText? "CLICOLOR_FORCE", forbid := ← envText? "NO_COLOR",
      ask := ← envText? "CLICOLOR", terminal := ← envText? "TERM" }
  let output ← (← IO.getStdout).isTty
  let complaints ← (← IO.getStderr).isTty
  return {
    logFilter := ← envText? "RUST_LOG"
    reportColour := colour.forReport output
    helpColour := colour.forUsage output
    complaintColour := colour.forUsage complaints }

/-- Writes down what a run leaves behind, and gives its exit status. -/
def Result.deliver (r : Result) : IO UInt32 := do
  for event in r.log do
    IO.eprintln (String.ofList event.entry)
  IO.print (String.ofList r.output)
  if let some complaint := r.complaint then
    IO.eprintln (String.ofList complaint)
  return r.status.toUInt32

end CommandLine

end Homonym

open Homonym CommandLine in
/-- Runs the program. -/
def main (arguments : List String) : IO UInt32 := do
  let env ← readEnvironment
  match parse (arguments.map (Utf8.encode ·.toList)) with
  | .error halt => (halt.result env).deliver
  | .ok request =>
    let sight ← Disk.look request.selection request.root
    (request.carryOut env sight).deliver
