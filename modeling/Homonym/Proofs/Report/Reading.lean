import Homonym.Proofs.Report.Rows
import Homonym.Proofs.Source.Layout
import Homonym.Proofs.Text.Cut

/-!
# A report can be read in one way only

A report shows paths, names and excerpts that may look like anything, even like
other rows of a report. All the same its text says what it reports, as long as
nothing in it breaks a row (`Legible`). The rows are told apart by their line
feeds. The summary says how many sections there are; a section starts with the
row of its file and ends with the first blank row after it, because all others
in between are indented; and how far they are indented tells a name from a
definition and a definition from a line of its excerpt.

* `siteLine_inj`, `clashLines_inj`, `fileLines_inj`: what is read from the lines
  of a definition, a name and a file;
* `forall₂_fileLines`: where the sections of the files end;
* `text_determines`: what two surveys with the same report have in common.
-/

namespace Homonym

namespace Report

/-! ### The lines of the rows -/

/-- The line of a definition, the `i`-th one of its name. -/
def siteLine (i : Nat) (d : Source.Definition) : Text :=
  "      ".toList ++ Text.ofNat i ++ ". Line ".toList ++ Text.ofNat (d.first + 1) ++
    '-' :: Text.ofNat (d.last + 1)

/-- A line of the excerpt of a definition. -/
def excerptLine (line : Text) : Text :=
  "         ".toList ++ line

/-- The lines of a definition. -/
def siteLines (snippets : Bool) (i : Nat) (d : Source.Definition) : List Text :=
  siteLine i d :: if snippets then (Text.lines d.excerpt).map excerptLine else []

/-- The line of a name defined more than once. -/
def nameLine (c : Source.Clash) : Text :=
  "   ".toList ++ ("Function '".toList ++ c.name ++ "' appears ".toList ++
    Text.ofNat c.sites.length ++ " times:".toList)

/-- The lines of a name defined more than once. -/
def clashLines (snippets : Bool) (c : Source.Clash) : List Text :=
  nameLine c :: (c.sites.zipIdx 1).flatMap fun (d, i) => siteLines snippets i d

/-- The lines of a file with clashes. -/
def fileLines (snippets : Bool) (root : Path) (f : Findings) : List Text :=
  f.file.shownBelow root :: f.clashes.flatMap (clashLines snippets) ++ [[]]

theorem map_words_siteRows (snippets : Bool) (i : Nat) (d : Source.Definition) :
    (siteRows snippets i d).map Row.words = siteLines snippets i d := by
  unfold siteRows siteRow siteLines siteLine
  rw [List.map_cons, Row.words_plain]
  congr 1
  cases snippets with
  | false => rfl
  | true =>
    rw [if_pos rfl, if_pos rfl, List.map_map]
    exact List.map_congr_left fun line _ => Row.words_indented _ _ line

theorem map_words_clashRows (snippets : Bool) (c : Source.Clash) :
    (clashRows snippets c).map Row.words = clashLines snippets c := by
  unfold clashRows clashRow clashLines nameLine
  rw [List.map_cons, Row.words_indented, List.map_flatMap]
  congr 2
  funext ⟨d, i⟩
  exact map_words_siteRows snippets i d

theorem map_words_fileRows (snippets : Bool) (root : Path) (f : Findings) :
    (fileRows snippets root f).map Row.words = fileLines snippets root f := by
  rw [fileRows, fileRow, fileLines, List.cons_append, List.map_cons, Row.words_styled,
    List.map_append, List.map_flatMap, funext (map_words_clashRows snippets)]
  rfl

/-! ### The lines of a definition -/

theorem ofNat_injective : Function.Injective Text.ofNat := by
  intro m n h
  rw [← Nat.ofDigitChars_ten_toDigits (n := m), ← Nat.ofDigitChars_ten_toDigits (n := n)]
  exact congrArg (Nat.ofDigitChars 10 · 0) h

/-- A number is read up to a character that is no digit. -/
theorem ofNat_append_inj {m n : Nat} {c : Char} (hc : c.isDigit = false) {rest rest' : Text}
    (h : Text.ofNat m ++ c :: rest = Text.ofNat n ++ c :: rest') : m = n ∧ rest = rest' := by
  have hdigits : ∀ n, ∀ c ∈ Text.ofNat n, (!c.isDigit) = false := fun n c hc => by
    rw [isDigit_of_mem_ofNat hc]
    rfl
  obtain ⟨hdigits, hrest⟩ := append_cons_cut (p := fun c => !c.isDigit) (by rw [hc]; rfl)
    (hdigits m) (hdigits n) h
  exact ⟨ofNat_injective hdigits, hrest⟩

theorem siteLine_inj {i i' : Nat} {d d' : Source.Definition} (h : siteLine i d = siteLine i' d') :
    (d.first, d.last) = (d'.first, d'.last) := by
  have hdot : ". Line ".toList = '.' :: " Line ".toList := by decide
  unfold siteLine at h
  rw [hdot] at h
  simp only [List.append_assoc, List.cons_append, List.append_cancel_left_eq] at h
  obtain ⟨-, hlines⟩ := ofNat_append_inj rfl h
  obtain ⟨hfirst, hlast⟩ := ofNat_append_inj rfl (List.append_cancel_left hlines)
  rw [Nat.succ.inj hfirst, Nat.succ.inj (ofNat_injective hlast)]

/-- Whether a line of a section that is indented for a definition is the line of
    one, and not of an excerpt. -/
def opensSite (l : Text) : Bool :=
  l[6]? != some ' '

theorem opensSite_siteLine (i : Nat) (d : Source.Definition) : opensSite (siteLine i d) = true := by
  obtain ⟨c, cs, hcs⟩ := List.exists_cons_of_ne_nil (Nat.toDigits_ne_nil (b := 10) (n := i))
  have hmem : c ∈ Text.ofNat i := by
    rw [Text.ofNat, hcs]
    exact List.mem_cons_self
  have hne : c ≠ ' ' := by
    rintro rfl
    exact absurd (isDigit_of_mem_ofNat hmem) (by decide)
  have hget : (siteLine i d)[6]? = some c := by
    unfold siteLine
    rw [Text.ofNat, hcs]
    rfl
  rw [opensSite, hget]
  simpa using hne

/-- No line of an excerpt looks like one that a definition starts with: it is
    indented further. -/
theorem opensSite_excerptLine (line : Text) : opensSite (excerptLine line) = false :=
  rfl

/-- The lines of a definition start with the only line among them that can start
    one. -/
theorem isBlock_siteLines (snippets : Bool) (i : Nat) (d : Source.Definition) :
    IsBlock opensSite (siteLines snippets i d) := by
  refine ⟨siteLine i d, _, rfl, opensSite_siteLine i d, fun l hl => ?_⟩
  cases snippets with
  | false => exact absurd hl List.not_mem_nil
  | true =>
    obtain ⟨line, -, rfl⟩ := List.mem_map.1 hl
    exact opensSite_excerptLine line

/-- The lines of a definition tell its place, and its excerpt if snippets are shown. -/
theorem siteLines_inj {snippets : Bool} {i i' : Nat} {d d' : Source.Definition}
    (h : siteLines snippets i d = siteLines snippets i' d') :
    (d.first, d.last) = (d'.first, d'.last) ∧
      (snippets = true → Text.lines d.excerpt = Text.lines d'.excerpt) := by
  obtain ⟨hsite, hexcerpt⟩ := List.cons.inj h
  refine ⟨siteLine_inj hsite, ?_⟩
  rintro rfl
  exact List.map_injective_iff.2 (fun _ _ => List.append_cancel_left) hexcerpt

/-! ### The lines of a name -/

/-- Whether an indented line of a section is the line of a name. -/
def opensClash (l : Text) : Bool :=
  l[3]? == some 'F'

/-- Below the line of a name there are lines of definitions and of excerpts. -/
theorem mem_siteLines {snippets : Bool} {c : Source.Clash} {l : Text}
    (h : l ∈ (c.sites.zipIdx 1).flatMap fun (d, i) => siteLines snippets i d) :
    (∃ i d, l = siteLine i d) ∨
      ∃ d : Source.Definition, ∃ line ∈ Text.lines d.excerpt, l = excerptLine line := by
  obtain ⟨⟨d, i⟩, -, hl⟩ := List.mem_flatMap.1 h
  rcases List.mem_cons.1 hl with rfl | hl
  · exact .inl ⟨i, d, rfl⟩
  · cases snippets with
    | false => exact absurd hl List.not_mem_nil
    | true =>
      obtain ⟨line, hline, rfl⟩ := List.mem_map.1 hl
      exact .inr ⟨d, line, hline, rfl⟩

theorem isBlock_clashLines (snippets : Bool) (c : Source.Clash) :
    IsBlock opensClash (clashLines snippets c) := by
  refine ⟨nameLine c, _, rfl, rfl, fun l hl => ?_⟩
  rcases mem_siteLines hl with ⟨i, d, rfl⟩ | ⟨d, line, -, rfl⟩
  · rfl
  · rfl

/-- The definitions of a name are read from its lines, one by one. -/
theorem forall₂_sites {snippets : Bool} {c c' : Source.Clash}
    (h : (c.sites.zipIdx 1).flatMap (fun (d, i) => siteLines snippets i d) =
      (c'.sites.zipIdx 1).flatMap (fun (d, i) => siteLines snippets i d)) :
    List.Forall₂ (fun d d' => (d.first, d.last) = (d'.first, d'.last) ∧
      (snippets = true → Text.lines d.excerpt = Text.lines d'.excerpt)) c.sites c'.sites := by
  have hblock : ∀ e : Source.Definition × Nat, IsBlock opensSite (siteLines snippets e.2 e.1) :=
    fun e => isBlock_siteLines snippets e.2 e.1
  have hblocks := forall₂_of_flatMap_eq hblock hblock h
  rw [← List.zipIdx_map_fst 1 c.sites, ← List.zipIdx_map_fst 1 c'.sites, List.forall₂_map_left_iff,
    List.forall₂_map_right_iff]
  exact hblocks.imp fun e e' => siteLines_inj

/-- A name and the lines of its definitions are read from its lines. -/
theorem clashLines_inj {snippets : Bool} {c c' : Source.Clash}
    (h : clashLines snippets c = clashLines snippets c') : c.outline = c'.outline ∧
      (snippets = true → c.sites.map (fun d => Text.lines d.excerpt) =
        c'.sites.map fun d => Text.lines d.excerpt) := by
  obtain ⟨hname, hsites⟩ := List.cons.inj h
  have hboth := forall₂_sites hsites
  have hlines := Source.map_eq_map_of_forall₂ (hboth.imp fun d d' h => h.1)
  -- The number of definitions is known by now, and the rest is the name.
  unfold nameLine at hname
  rw [hboth.length_eq] at hname
  simp only [List.append_assoc, List.append_cancel_left_eq, List.append_cancel_right_eq] at hname
  refine ⟨by rw [Source.Clash.outline, Source.Clash.outline, hname, hlines], fun hsnippets => ?_⟩
  exact Source.map_eq_map_of_forall₂ (hboth.imp fun d d' h => h.2 hsnippets)

/-! ### The lines of a file -/

/-- What a report shows of a file: its path, and for each name the first and the
    last lines of its definitions. -/
def shownFile (root : Path) (f : Findings) : Text × List (Text × List (Nat × Nat)) :=
  (f.file.shownBelow root, f.clashes.map Source.Clash.outline)

/-- The lines of the excerpts that a report shows of a file. -/
def shownExcerpts (f : Findings) : List (List (List Text)) :=
  f.clashes.map fun c => c.sites.map fun d => Text.lines d.excerpt

/-- The lines of a file tell all that is shown of it, and the excerpts if snippets
    are shown. -/
theorem fileLines_inj {snippets : Bool} {root root' : Path} {f f' : Findings}
    (h : fileLines snippets root f = fileLines snippets root' f') :
    shownFile root f = shownFile root' f' ∧
      (snippets = true → shownExcerpts f = shownExcerpts f') := by
  obtain ⟨hpath, hclashes⟩ := List.cons.inj h
  have hblocks := forall₂_of_flatMap_eq (isBlock_clashLines snippets) (isBlock_clashLines snippets)
    (List.append_cancel_right hclashes)
  have hboth := hblocks.imp fun c c' => clashLines_inj
  have houtlines := Source.map_eq_map_of_forall₂ (hboth.imp fun c c' h => h.1)
  refine ⟨by rw [shownFile, shownFile, hpath, houtlines], fun hsnippets => ?_⟩
  exact Source.map_eq_map_of_forall₂ (hboth.imp fun c c' h => h.2 hsnippets)

/-- Within a section there is no blank line. -/
theorem isEmpty_of_mem_clashLines {snippets : Bool} {f : Findings} {l : Text}
    (h : l ∈ f.clashes.flatMap (clashLines snippets)) : l.isEmpty = false := by
  obtain ⟨c, -, hl⟩ := List.mem_flatMap.1 h
  rcases List.mem_cons.1 hl with rfl | hl
  · rfl
  · rcases mem_siteLines hl with ⟨i, d, rfl⟩ | ⟨d, line, -, rfl⟩
    · rfl
    · rfl

/-- Sections are told apart if it is known how many there are. -/
theorem forall₂_fileLines {snippets : Bool} {root root' : Path} {fs fs' : List Findings}
    (hlen : fs.length = fs'.length) {rest rest' : List Text}
    (h : fs.flatMap (fileLines snippets root) ++ rest =
      fs'.flatMap (fileLines snippets root') ++ rest') :
    List.Forall₂ (fun f f' => fileLines snippets root f = fileLines snippets root' f') fs fs' ∧
      rest = rest' := by
  induction fs generalizing fs' with
  | nil =>
    obtain rfl := List.length_eq_zero_iff.1 hlen.symm
    exact ⟨.nil, h⟩
  | cons f fs ih =>
    obtain ⟨f', fs', rfl⟩ := List.exists_cons_of_length_eq_add_one hlen.symm
    simp only [List.flatMap_cons, fileLines, List.append_assoc, List.cons_append,
      List.nil_append] at h
    obtain ⟨hpath, htail⟩ := List.cons.inj h
    -- The blank line ends the section, wherever it comes after the path.
    obtain ⟨hbody, hrest⟩ := append_cons_cut (p := List.isEmpty) rfl
      (fun l hl => isEmpty_of_mem_clashLines hl) (fun l hl => isEmpty_of_mem_clashLines hl) htail
    obtain ⟨hfiles, hrests⟩ := ih (Nat.succ.inj hlen) hrest
    refine ⟨.cons ?_ hfiles, hrests⟩
    rw [fileLines, fileLines, hpath, hbody]

/-! ### The lines of a report -/

/-- The lines that sum a survey up. -/
def summaryLines (t : Tally) : List Text :=
  ["Found ".toList ++ Text.ofNat t.files ++ " source file(s)".toList,
   [],
   List.replicate 80 '=',
   "SUMMARY".toList,
   List.replicate 80 '=',
   "Total source files scanned: ".toList ++ Text.ofNat t.files,
   "Files with duplicates: ".toList ++ Text.ofNat t.clashing,
   []]

/-- The lines above the files with clashes, if there are any. -/
def clashingHeading (s : Survey) : List Text :=
  if s.hasClash then ["FILES WITH DUPLICATE FUNCTIONS:".toList, []] else []

/-- The lines of the files that could not be read, if there are any. -/
def unreadableLines (s : Survey) : List Text :=
  if s.unreadable.isEmpty then []
  else
    "FILES THAT COULD NOT BE READ:".toList ::
      (s.unreadable.map (failureLine s.root)).map ("   ".toList ++ ·) ++ [[]]

/-- The lines that a report ends with. -/
def verdictLines (s : Survey) : List Text :=
  [Row.words (verdict s), List.replicate 80 '=']

/-- The lines of a report on files. -/
def reportLines (snippets : Bool) (s : Survey) : List Text :=
  ("Scanned folder: ".toList ++ s.root.shown) ::
    (summaryLines s.tally ++ (clashingHeading s ++
      (s.clashing.flatMap (fileLines snippets s.root) ++ (unreadableLines s ++ verdictLines s))))

theorem map_words_summaryRows (t : Tally) : (summaryRows t).map Row.words = summaryLines t := by
  unfold summaryRows summaryLines ruler blank
  simp only [List.map_cons, List.map_nil, Row.words_plain, Row.words_styled]

theorem map_words_clashingRows (snippets : Bool) (s : Survey) :
    (clashingRows snippets s).map Row.words =
      clashingHeading s ++ s.clashing.flatMap (fileLines snippets s.root) := by
  unfold clashingRows clashingTitle clashingHeading
  split
  next =>
    rw [List.map_cons, List.map_cons, Row.words_styled, List.map_flatMap,
      funext (map_words_fileRows snippets s.root)]
    rfl
  next h =>
    have hnil : s.clashing = [] := by simpa [Survey.hasClash] using h
    rw [hnil]
    rfl

theorem map_words_unreadableRows (s : Survey) :
    (unreadableRows s).map Row.words = unreadableLines s := by
  unfold unreadableRows unreadableTitle unreadableLines
  split
  next => rfl
  next =>
    rw [List.cons_append, List.map_cons, Row.words_styled, List.map_append, List.map_map,
      List.map_map]
    refine congrArg _ (congrArg (· ++ [[]]) (List.map_congr_left fun u _ => ?_))
    rw [Function.comp_apply, unreadableRow_eq, Row.words_plain]
    rfl

/-- The words of the rows of a report are its lines. -/
theorem map_words_rows (snippets : Bool) {s : Survey} (h : 0 < s.tally.files) :
    (rows snippets s).map Row.words = reportLines snippets s := by
  unfold rows rootRow reportLines
  rw [if_neg (Nat.ne_of_gt h), List.map_cons, Row.words_plain, List.map_append, List.map_append,
    List.map_append, map_words_summaryRows, map_words_clashingRows, map_words_unreadableRows]
  simp only [List.append_assoc]
  rfl

/-- A report without colours is made of its lines, with a line feed behind each. -/
theorem text_eq_flatMap (snippets : Bool) (s : Survey) :
    text ⟨snippets, false⟩ s = ((rows snippets s).map Row.words).flatMap (· ++ ['\n']) := by
  rw [text, List.flatMap_map]
  rfl

/-- A survey with something to report, of which no part breaks a row of the
    report. -/
structure Legible (s : Survey) : Prop where
  /-- A file was found. -/
  files_pos : 0 < s.tally.files
  /-- The number of files with clashes is right. -/
  clashing_eq : s.tally.clashing = s.clashing.length
  root : '\n' ∉ s.root.shown
  files : ∀ f ∈ s.clashing, '\n' ∉ f.file.shownBelow s.root
  names : ∀ f ∈ s.clashing, ∀ c ∈ f.clashes, '\n' ∉ c.name
  failures : ∀ u ∈ s.unreadable, '\n' ∉ failureLine s.root u

/-- What a legible survey shows holds no line feed. -/
theorem Legible.shows {s : Survey} (h : Legible s) : Shows (· ≠ '\n') s where
  root := fun _ hc heq => h.root (heq ▸ hc)
  files := fun f hf _ hc heq => h.files f hf (heq ▸ hc)
  names := fun f hf g hg _ hc heq => h.names f hf g hg (heq ▸ hc)
  excerpts := fun _ _ _ _ _ _ _ hline _ hc heq => newline_not_mem_of_mem_lines hline (heq ▸ hc)
  failures := fun u hu _ hc heq => h.failures u hu (heq ▸ hc)

/-- No line of the report of a legible survey is broken. -/
theorem Legible.newline_not_mem {s : Survey} (h : Legible s) {snippets : Bool} {l : Text}
    (hl : l ∈ reportLines snippets s) : '\n' ∉ l := by
  have hprintable : ∀ c, Printable c → c ≠ '\n' := by
    rintro _ hc rfl
    exact absurd hc (by decide)
  rw [← map_words_rows snippets h.files_pos] at hl
  obtain ⟨r, hr, rfl⟩ := List.mem_map.1 hl
  exact fun hmem => (h.shows.rows hprintable snippets r hr).words hprintable _ hmem rfl

/-! ### What a report says -/

theorem summaryLines_inj {t t' : Tally} (h : summaryLines t = summaryLines t') :
    t.files = t'.files ∧ t.clashing = t'.clashing := by
  have hfiles : "Total source files scanned: ".toList ++ Text.ofNat t.files =
      "Total source files scanned: ".toList ++ Text.ofNat t'.files :=
    Option.some.inj (congrArg (·[5]?) h)
  have hclashing : "Files with duplicates: ".toList ++ Text.ofNat t.clashing =
      "Files with duplicates: ".toList ++ Text.ofNat t'.clashing :=
    Option.some.inj (congrArg (·[6]?) h)
  exact ⟨ofNat_injective (List.append_cancel_left hfiles),
    ofNat_injective (List.append_cancel_left hclashing)⟩

/-- Whether there is a heading is told by the number of the files below it. -/
theorem clashingHeading_congr {s s' : Survey} (h : s.clashing.length = s'.clashing.length) :
    clashingHeading s = clashingHeading s' := by
  have hempty : s.clashing.isEmpty = s'.clashing.isEmpty := by
    rw [Bool.eq_iff_iff, List.isEmpty_iff_length_eq_zero, List.isEmpty_iff_length_eq_zero, h]
  unfold clashingHeading Survey.hasClash
  rw [hempty]

theorem unreadableLines_inj {s s' : Survey} (h : unreadableLines s = unreadableLines s') :
    s.unreadable.map (failureLine s.root) = s'.unreadable.map (failureLine s'.root) := by
  unfold unreadableLines at h
  split at h <;> split at h
  next hs hs' => rw [List.isEmpty_iff.1 hs, List.isEmpty_iff.1 hs']; rfl
  next => cases h
  next => cases h
  next =>
    have hlines := List.append_cancel_right (List.cons.inj h).2
    exact List.map_injective_iff.2 (fun _ _ => List.append_cancel_left) hlines

/-- What is read from the report of a survey, without colour: the number of
    files, what is said of the files that could not be read, and of the files
    with clashes all that is shown of them. Two surveys with the same report
    have all this in common. -/
theorem text_determines {snippets : Bool} {s s' : Survey} (h : Legible s) (h' : Legible s')
    (heq : text ⟨snippets, false⟩ s = text ⟨snippets, false⟩ s') :
    s.tally.files = s'.tally.files ∧
    s.unreadable.map (failureLine s.root) = s'.unreadable.map (failureLine s'.root) ∧
    s.clashing.map (shownFile s.root) = s'.clashing.map (shownFile s'.root) ∧
    (snippets = true → s.clashing.map shownExcerpts = s'.clashing.map shownExcerpts) := by
  -- The report is cut into lines first, then into its parts.
  have hlines : reportLines snippets s = reportLines snippets s' := by
    rw [text_eq_flatMap, text_eq_flatMap, map_words_rows snippets h.files_pos,
      map_words_rows snippets h'.files_pos] at heq
    refine eq_of_flatMap_concat_eq (p := (· == '\n')) rfl ?_ ?_ heq
    · intro l hl a ha
      exact beq_eq_false_iff_ne.2 fun hnewline => h.newline_not_mem hl (hnewline ▸ ha)
    · intro l hl a ha
      exact beq_eq_false_iff_ne.2 fun hnewline => h'.newline_not_mem hl (hnewline ▸ ha)
  obtain ⟨hsummary, hrest⟩ := List.append_inj (List.cons.inj hlines).2 rfl
  obtain ⟨hfiles, hclashing⟩ := summaryLines_inj hsummary
  have hlen : s.clashing.length = s'.clashing.length := by
    rw [← h.clashing_eq, ← h'.clashing_eq, hclashing]
  rw [clashingHeading_congr hlen] at hrest
  obtain ⟨hsections, hend⟩ := forall₂_fileLines hlen (List.append_cancel_left hrest)
  obtain ⟨hunreadable, -⟩ := List.append_inj' hend rfl
  have hshown := hsections.imp fun f f' => fileLines_inj
  refine ⟨hfiles, unreadableLines_inj hunreadable, ?_, fun hsnippets => ?_⟩
  · exact Source.map_eq_map_of_forall₂ (hshown.imp fun f f' h => h.1)
  · exact Source.map_eq_map_of_forall₂ (hshown.imp fun f f' h => h.2 hsnippets)

/-- A survey of a root that is spelled with one byte, with a name defined twice
    in one file and another file that could not be read. -/
def oneByteSurvey (byte : UInt8) (definitions : Nat) : Survey where
  root := ⟨[byte]⟩
  clashing := [⟨⟨byte :: Path.slash :: Utf8.encode ['a']⟩, definitions,
    [⟨['f'], [⟨['f'], 0, 1, "def f():\n    pass".toList⟩, ⟨['f'], 2, 2, "def f():".toList⟩]⟩]⟩]
  unreadable := [⟨⟨byte :: Path.slash :: Utf8.encode ['b']⟩, Unreadable.notText⟩]
  tally := ⟨2, 1, 1, 1⟩

/-- Two surveys that differ in bytes that cannot be shown, and in a number that
    is not, have the same report. -/
theorem oneByteSurvey_shown : Legible (oneByteSurvey 0xFE 2) ∧ Legible (oneByteSurvey 0xFF 3) ∧
    text ⟨true, false⟩ (oneByteSurvey 0xFE 2) = text ⟨true, false⟩ (oneByteSurvey 0xFF 3) ∧
    (oneByteSurvey 0xFE 2).clashing.map (shownFile ⟨[0xFE]⟩) =
      (oneByteSurvey 0xFF 3).clashing.map (shownFile ⟨[0xFF]⟩) ∧
    (oneByteSurvey 0xFE 2).clashing.map shownExcerpts =
      (oneByteSurvey 0xFF 3).clashing.map shownExcerpts := by
  have h : Legible (oneByteSurvey 0xFE 2) :=
    ⟨by decide, rfl, by decide, by decide, by decide, by decide⟩
  have h' : Legible (oneByteSurvey 0xFF 3) :=
    ⟨by decide, rfl, by decide, by decide, by decide, by decide⟩
  have heq : text ⟨true, false⟩ (oneByteSurvey 0xFE 2) =
      text ⟨true, false⟩ (oneByteSurvey 0xFF 3) := by decide +kernel
  obtain ⟨-, -, hshown, hexcerpts⟩ := text_determines h h' heq
  exact ⟨h, h', heq, hshown, hexcerpts rfl⟩

end Report

end Homonym
