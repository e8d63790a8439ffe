import Homonym.Proofs.Source.Returns
import Homonym.Report.Basic
import Homonym.Text.Utf8

/-!
# Reports on texts with carriage returns

The excerpts of a text with carriage returns have carriage returns in them, but a
report does not show them: it shows an excerpt line by line, and takes one from
the end of each line. If the text has no other ones, then what it shows of a file
does not tell how the lines end there.

* `lines_crlf_of_not_mem`: the lines of an excerpt as they are shown;
* `clashRows_congr`: the rows of a name depend on what is shown of its
  definitions alone;
* `findings_crlf`: what is found in a text with carriage returns, and what is
  shown of it.
-/

namespace Homonym

/-! ### Lines as they are shown -/

theorem Text.dropReturn_concat (line : Text) : Text.dropReturn (line ++ ['\r']) = line := by
  rw [Text.dropReturn, List.getLast?_concat, if_pos rfl, List.dropLast_concat]

theorem Text.dropReturn_of_not_mem {line : Text} (h : '\r' ∉ line) :
    Text.dropReturn line = line := by
  rw [Text.dropReturn, if_neg fun hlast => h (List.mem_of_getLast? hlast)]

namespace Source

theorem dropLast_addReturns (ls : List Text) :
    (addReturns ls).dropLast = ls.dropLast.map (· ++ ['\r']) := by
  fun_induction addReturns ls with
  | case1 => rfl
  | case2 => rfl
  | case3 l l' ls ih =>
    obtain ⟨gap, -, heq⟩ := addReturns_cons l' ls
    rw [heq] at ih ⊢
    rw [List.dropLast_cons_cons, List.dropLast_cons_cons, List.map_cons, ih]

theorem getLast?_addReturns (ls : List Text) : (addReturns ls).getLast? = ls.getLast? := by
  fun_induction addReturns ls with
  | case1 => rfl
  | case2 => rfl
  | case3 l l' ls ih =>
    obtain ⟨gap, -, heq⟩ := addReturns_cons l' ls
    rw [heq] at ih ⊢
    rw [List.getLast?_cons_cons, List.getLast?_cons_cons, ih]

/-- A text is shown in the same lines with carriage returns as without, if it has
    none itself. -/
theorem lines_crlf_of_not_mem {t : Text} (h : '\r' ∉ t) : Text.lines t.crlf = Text.lines t := by
  have hpieces : ∀ piece ∈ (t.splitOn '\n').dropLast,
      Text.dropReturn (piece ++ ['\r']) = Text.dropReturn piece := by
    intro piece hpiece
    have hsub : piece ⊆ t := subset_of_mem_splitOn ((List.dropLast_sublist _).subset hpiece)
    rw [Text.dropReturn_concat, Text.dropReturn_of_not_mem fun hmem => h (hsub hmem)]
  rw [Text.lines, Text.lines, splitOn_crlf, dropLast_addReturns, getLast?_addReturns, List.map_map]
  congr 1
  exact List.map_congr_left hpieces

/-- The characters of an excerpt, line feeds apart, are characters of the text. -/
theorem mem_of_mem_excerpt {source : Text} {d : Definition} (hd : d ∈ definitions source) {c : Char}
    (hc : c ≠ '\n') (h : c ∈ d.excerpt) : c ∈ source := by
  obtain ⟨header, hfits⟩ := mem_definitions_iff.1 hd
  rw [hfits.excerpt_eq] at h
  rcases mem_of_mem_intercalate (Text.trim_subset _ h) with hnewline | ⟨raw, hraw, hmem⟩
  · exact absurd (List.mem_singleton.1 hnewline) hc
  · obtain ⟨l, hl, rfl⟩ := List.mem_map.1 hraw
    rw [List.extract_eq_take_drop] at hl
    obtain ⟨piece, hpiece, rfl⟩ := List.mem_map.1 (List.mem_of_mem_drop (List.mem_of_mem_take hl))
    exact (dropMark_isSuffix source).subset (subset_of_mem_splitOn hpiece hmem)

end Source

namespace Report

/-! ### Sections -/

/-- The text of the section of a file. -/
def fileText (o : Options) (root : Path) (f : Findings) : Text :=
  (fileRows o.snippets root f).flatMap (Row.render o.colour)

/-- A report shows the same of both definitions, whichever ones of their names
    they are. -/
def ShownAlike (d e : Source.Definition) : Prop :=
  d.name = e.name ∧ ∀ snippets i, siteRows snippets i d = siteRows snippets i e

/-- With carriage returns in front of its line feeds, an excerpt is shown alike. -/
theorem shownAlike_crlf {d : Source.Definition} (h : '\r' ∉ d.excerpt) : ShownAlike d d.crlf := by
  refine ⟨rfl, fun snippets i => ?_⟩
  rw [siteRows, siteRows, siteRow, siteRow, Source.Definition.crlf,
    Source.lines_crlf_of_not_mem h]

/-- Definitions that are shown alike have the same rows. -/
theorem flatMap_siteRows_congr {ds es : List Source.Definition} (h : List.Forall₂ ShownAlike ds es)
    (snippets : Bool) (n : Nat) :
    (ds.zipIdx n).flatMap (fun (d, i) => siteRows snippets i d) =
      (es.zipIdx n).flatMap fun (d, i) => siteRows snippets i d := by
  induction h generalizing n with
  | nil => rfl
  | cons hde _ ih =>
    rw [List.zipIdx_cons, List.zipIdx_cons, List.flatMap_cons, List.flatMap_cons, ih (n + 1)]
    exact congrArg (· ++ _) (hde.2 snippets n)

/-- The rows of a name depend only on what is shown of its definitions. -/
theorem clashRows_congr {g h : Source.Clash} (hgh : g.Corresponds ShownAlike h) (snippets : Bool) :
    clashRows snippets g = clashRows snippets h := by
  rw [clashRows, clashRows, clashRow, clashRow, hgh.name_eq, hgh.sites.length_eq,
    flatMap_siteRows_congr hgh.sites snippets 1]

/-- Files of one name whose clashes are shown alike have the same rows. -/
theorem fileRows_congr {f g : Findings} (hfile : f.file = g.file)
    (hclashes : List.Forall₂ (Source.Clash.Corresponds ShownAlike) f.clashes g.clashes)
    (snippets : Bool) (root : Path) : fileRows snippets root f = fileRows snippets root g := by
  have hrows : f.clashes.map (clashRows snippets) = g.clashes.map (clashRows snippets) :=
    Source.map_eq_map_of_forall₂ (hclashes.imp fun _ _ h => clashRows_congr h snippets)
  rw [fileRows, fileRows, fileRow, fileRow, hfile, List.flatMap_def, List.flatMap_def, hrows]

/-- A text with carriage returns has the definitions of the text, in the same
    lines and with carriage returns in their excerpts. If the text has none of its
    own, then the section of the file in a report is the same to the byte. -/
theorem findings_crlf (source : Text) :
    Source.definitions source.crlf = (Source.definitions source).map (fun d =>
      { name := d.name, first := d.first, last := d.last, excerpt := d.excerpt.crlf }) ∧
    ('\r' ∉ source → ∀ (o : Options) (root file : Path),
      Utf8.encode (fileText o root (.ofText file source.crlf)) =
        Utf8.encode (fileText o root (.ofText file source))) := by
  refine ⟨Source.definitions_crlf source, fun hreturn o root file => ?_⟩
  have halike : List.Forall₂ ShownAlike (Source.definitions source)
      (Source.definitions source.crlf) := by
    rw [Source.definitions_crlf, List.forall₂_map_right_iff, List.forall₂_same]
    intro d hd
    exact shownAlike_crlf fun hmem => hreturn (Source.mem_of_mem_excerpt hd (by decide) hmem)
  have hclashes := Source.clashesAmong_corresponds (fun d e h => h.1) halike
  rw [fileText, fileText]
  rw [fileRows_congr (f := .ofText file source) (g := .ofText file source.crlf) rfl hclashes]

/-- A text with a name defined twice, each time in two lines. -/
def definedTwice : Text :=
  "def f():\n x\ndef f():\n y".toList

/-- With carriage returns, both definitions are found again, and a report with
    excerpts is the same. -/
theorem findings_crlf_definedTwice : '\r' ∉ definedTwice ∧
    Source.definitions definedTwice.crlf = [⟨['f'], 0, 1, "def f():\r\n x".toList⟩,
      ⟨['f'], 2, 3, "def f():\r\n y".toList⟩] ∧
    Utf8.encode (fileText ⟨true, true⟩ ⟨[]⟩ (.ofText ⟨[0x61]⟩ definedTwice.crlf)) =
      Utf8.encode (fileText ⟨true, true⟩ ⟨[]⟩ (.ofText ⟨[0x61]⟩ definedTwice)) := by
  have hreturn : '\r' ∉ definedTwice := by decide
  have hfound : Source.definitions definedTwice = [⟨['f'], 0, 1, "def f():\n x".toList⟩,
    ⟨['f'], 2, 3, "def f():\n y".toList⟩] := by decide
  obtain ⟨hdefinitions, hsection⟩ := findings_crlf definedTwice
  refine ⟨hreturn, ?_, hsection hreturn _ _ _⟩
  rw [hdefinitions, hfound]
  rfl

end Report

end Homonym
