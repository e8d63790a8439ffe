import Homonym.Json.Basic
import Homonym.Survey.Basic
import Homonym.Survey.Failure

/-!
# The JSON form of a survey

A survey is written as a JSON document that holds all of it. A path stands in
it as the text that it spells, so there is no document if one of the paths is
not a text.
-/

namespace Homonym

/-- A JSON object with the given fields. -/
def Json.record (fields : List (String × Json)) : Json :=
  .object (fields.map fun f => (f.1.toList, f.2))

/-- The JSON form of a path. -/
def Path.toJson (p : Path) : Except Failure Json :=
  match p.text? with
  | some t => .ok (.string t)
  | none => .error .pathNotText

/-- The JSON form of a definition. -/
def Source.Definition.toJson (d : Source.Definition) : Json :=
  .record
    [("name", .string d.name), ("start_line", .number d.first), ("end_line", .number d.last),
     ("definition", .string d.excerpt)]

/-- The JSON form of a clash. -/
def Source.Clash.toJson (c : Source.Clash) : Json :=
  .record
    [("name", .string c.name), ("occurrences", .array (c.sites.map Source.Definition.toJson))]

/-- The JSON form of what was found in a file. -/
def Findings.toJson (f : Findings) : Except Failure Json := do
  let file ← f.file.toJson
  return .record
    [("file", file), ("functions", .number f.definitions),
     ("duplicates", .array (f.clashes.map Source.Clash.toJson))]

/-- The JSON form of a file that could not be read. -/
def Unreadable.toJson (u : Unreadable) : Except Failure Json := do
  let file ← u.file.toJson
  return .record [("file", file), ("message", .string u.reason)]

/-- The JSON form of the numbers that sum a survey up. -/
def Tally.toJson (t : Tally) : Json :=
  .record
    [("total_files", .number t.files), ("files_with_duplicates", .number t.clashing),
     ("duplicate_names", .number t.names), ("errors", .number t.unreadable)]

namespace Survey

/-- The JSON form of a survey. -/
def toJson (s : Survey) : Except Failure Json := do
  let root ← s.root.toJson
  let clashing ← s.clashing.mapM Findings.toJson
  let unreadable ← s.unreadable.mapM Unreadable.toJson
  return .record
    [("root", root), ("files_with_duplicates", .array clashing), ("errors", .array unreadable),
     ("analysis_summary", s.tally.toJson)]

/-- The JSON document that holds a survey. -/
def document (s : Survey) : Except Failure Text :=
  Json.document <$> s.toJson

end Survey

end Homonym
