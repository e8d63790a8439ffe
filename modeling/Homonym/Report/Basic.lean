import Homonym.Path.Relative
import Homonym.Report.Style
import Homonym.Survey.Basic

/-!
# The text report of a survey

A report names the root and the number of files, sums the survey up, lists the
files with clashes, each with the lines of every definition, lists the files
that could not be read, and ends with a verdict. Lines are numbered from one
here. When no file was found there is nothing to sum up, and the report says
only that.

* `Report.fileRows`: the section of one file;
* `Report.rows`: the whole report, row by row;
* `Report.text`: the whole report as a text.
-/

namespace Homonym

namespace Report

/-- The row that divides the parts of a report. -/
def ruler : Row :=
  .plain (List.replicate 80 '=')

/-- A row with nothing in it. -/
def blank : Row :=
  .plain []

/-- The row of a definition, the `i`-th one of its name. -/
def siteRow (i : Nat) (d : Source.Definition) : Row :=
  .plain ("      ".toList ++ Text.ofNat i ++ ". Line ".toList ++ Text.ofNat (d.first + 1) ++
    '-' :: Text.ofNat (d.last + 1))

/-- The row of a line of an excerpt. -/
def excerptRow (line : Text) : Row :=
  [.plain "         ".toList, .styled .dim line]

/-- The rows of a definition, the `i`-th one of its name. -/
def siteRows (snippets : Bool) (i : Nat) (d : Source.Definition) : List Row :=
  siteRow i d :: if snippets then (Text.lines d.excerpt).map excerptRow else []

/-- The row of a name defined more than once. -/
def clashRow (c : Source.Clash) : Row :=
  [.plain "   ".toList,
   .styled .yellow ("Function '".toList ++ c.name ++ "' appears ".toList ++
     Text.ofNat c.sites.length ++ " times:".toList)]

/-- The rows of a name defined more than once. -/
def clashRows (snippets : Bool) (c : Source.Clash) : List Row :=
  clashRow c :: (c.sites.zipIdx 1).flatMap fun (d, i) => siteRows snippets i d

/-- The row of a file with clashes. -/
def fileRow (root : Path) (f : Findings) : Row :=
  .styled .bold (f.file.shownBelow root)

/-- The section of a file with clashes. -/
def fileRows (snippets : Bool) (root : Path) (f : Findings) : List Row :=
  fileRow root f :: f.clashes.flatMap (clashRows snippets) ++ [blank]

/-- The row of a file that could not be read. -/
def unreadableRow (root : Path) (u : Unreadable) : Row :=
  .plain ("   ".toList ++ u.file.shownBelow root ++ ": ".toList ++ u.reason)

/-- The title of the files with clashes. -/
def clashingTitle : Row :=
  .styled .bold "FILES WITH DUPLICATE FUNCTIONS:".toList

/-- The files with clashes, if there are any. -/
def clashingRows (snippets : Bool) (s : Survey) : List Row :=
  if s.hasClash then
    clashingTitle :: blank :: s.clashing.flatMap (fileRows snippets s.root)
  else []

/-- The title of the files that could not be read. -/
def unreadableTitle : Row :=
  .styled .boldRed "FILES THAT COULD NOT BE READ:".toList

/-- The files that could not be read, if there are any. -/
def unreadableRows (s : Survey) : List Row :=
  if s.unreadable.isEmpty then []
  else
    unreadableTitle :: s.unreadable.map (unreadableRow s.root) ++ [blank]

/-- The verdict that a report ends with. -/
def verdict (s : Survey) : Row :=
  if s.hasClash then
    .styled .red ("Found duplicates in ".toList ++ Text.ofNat s.tally.clashing ++
      " file(s) out of ".toList ++ Text.ofNat s.tally.files ++ ['.'])
  else .styled .green "No duplicate functions found in any files!".toList

/-- The rows that sum a survey up. -/
def summaryRows (t : Tally) : List Row :=
  [.plain ("Found ".toList ++ Text.ofNat t.files ++ " source file(s)".toList),
   blank,
   ruler,
   .styled .bold "SUMMARY".toList,
   ruler,
   .plain ("Total source files scanned: ".toList ++ Text.ofNat t.files),
   .plain ("Files with duplicates: ".toList ++ Text.ofNat t.clashing),
   blank]

/-- The row that names the root. -/
def rootRow (root : Path) : Row :=
  .plain ("Scanned folder: ".toList ++ root.shown)

/-- The row of a survey without files. -/
def emptyRow : Row :=
  .styled .yellow "No source files found in the selected folder.".toList

/-- The report of a survey, row by row. -/
def rows (snippets : Bool) (s : Survey) : List Row :=
  rootRow s.root ::
    if s.tally.files = 0 then [emptyRow]
    else summaryRows s.tally ++ clashingRows snippets s ++ unreadableRows s ++ [verdict s, ruler]

/-- How a report is written. -/
structure Options where
  /-- Whether the beginning of every definition is shown. -/
  snippets : Bool
  /-- Whether styles are shown. -/
  colour : Bool
  deriving DecidableEq

/-- The report of a survey. -/
def text (o : Options) (s : Survey) : Text :=
  (rows o.snippets s).flatMap (Row.render o.colour)

end Report

end Homonym
