import Homonym.Report.Basic
import Homonym.Text.Utf8

/-!
# Writing into a sink

A sink takes a limited number of bytes. What it is given it takes byte by byte
while it has room, and it fails when there is none left for the next byte. A
report is written row by row, in one loop inside the other: over the files, the
names in a file, the definitions of a name and the lines of an excerpt. The first
row that fails is the last one written.
-/

namespace Homonym

namespace Report

/-- A place to write to. -/
structure Sink where
  /-- The number of bytes that it still takes. -/
  room : Nat
  /-- The bytes that it has taken. -/
  held : Bytes
  deriving DecidableEq

/-- The failure of a sink that has no room left. -/
inductive Full where
  | full
  deriving DecidableEq

namespace Full

/-- The failure in words. -/
def message : Full → Text
  | .full => "failed to write whole buffer".toList

end Full

namespace Sink

/-- An empty sink that takes `limit` bytes. -/
def empty (limit : Nat) : Sink :=
  ⟨limit, []⟩

/-- Writes some bytes. -/
def write (bytes : Bytes) : EStateM Full Sink Unit := fun s =>
  let taken : Sink := ⟨s.room - bytes.length, s.held ++ bytes.take s.room⟩
  if bytes.length ≤ s.room then .ok () taken else .error .full taken

end Sink

/-- Writing that stops where the sink has no room left. -/
abbrev Writer := EStateM Full Sink Unit

/-- Writes a row. -/
def writeRow (o : Options) (row : Row) : Writer :=
  Sink.write (Utf8.encode (row.render o.colour))

/-- Writes the section of a file with clashes. -/
def writeFile (o : Options) (root : Path) (f : Findings) : Writer := do
  writeRow o (fileRow root f)
  f.clashes.forM fun c => do
    writeRow o (clashRow c)
    (c.sites.zipIdx 1).forM fun (d, i) => do
      writeRow o (siteRow i d)
      if o.snippets then
        (Text.lines d.excerpt).forM fun line => writeRow o (excerptRow line)
  writeRow o blank

/-- Writes the report of a survey. -/
def write (o : Options) (s : Survey) : Writer := do
  writeRow o (rootRow s.root)
  if s.tally.files = 0 then
    writeRow o emptyRow
    return
  (summaryRows s.tally).forM (writeRow o)
  if s.hasClash then
    writeRow o clashingTitle
    writeRow o blank
    s.clashing.forM (writeFile o s.root)
  if !s.unreadable.isEmpty then
    writeRow o unreadableTitle
    s.unreadable.forM fun u => writeRow o (unreadableRow s.root u)
    writeRow o blank
  writeRow o (verdict s)
  writeRow o ruler

end Report

end Homonym
