import Homonym.Report.Basic
import Mathlib.Data.List.Basic

/-!
# What the rows of a report are written with

A report is made of fixed words and numbers, which are printable ASCII, and of
what it shows: paths, names, lines of excerpts, and the reasons why files could
not be read. So what holds of every printable character and of all that is shown
holds of every character in the rows, such as that it is no line feed, or no
escape character. And the rows have few shapes: a row is in one style or in
none, but for an indentation in front (`Row.Written`).

* `Shows.rows`: how the rows of any report are written.
-/

namespace Homonym

namespace Report

/-! ### Rows without styles -/

/-- The text of a row without its styles and its line feed. -/
def Row.words (r : Row) : Text :=
  r.flatMap Span.text

theorem Row.render_false (r : Row) : Row.render false r = r.words ++ ['\n'] :=
  rfl

theorem Row.words_plain (t : Text) : Row.words (.plain t) = t :=
  List.append_nil t

theorem Row.words_styled (s : Style) (t : Text) : Row.words (.styled s t) = t :=
  List.append_nil t

/-- The words of an indented row are those of its style, behind the indentation. -/
theorem Row.words_indented (s : Style) (indent t : Text) :
    Row.words [.plain indent, .styled s t] = indent ++ t :=
  congrArg (indent ++ ·) (List.append_nil t)

/-- What is said of a file that could not be read. -/
def failureLine (root : Path) (u : Unreadable) : Text :=
  u.file.shownBelow root ++ ": ".toList ++ u.reason

/-- The row of a file that could not be read is an indentation and what is said of
    the file. -/
theorem unreadableRow_eq (root : Path) (u : Unreadable) :
    unreadableRow root u = .plain ("   ".toList ++ failureLine root u) := by
  rw [unreadableRow, failureLine, List.append_assoc, List.append_assoc, List.append_assoc]

/-! ### Characters of a report -/

/-- A printable character of ASCII. -/
def Printable (c : Char) : Prop :=
  ' ' ≤ c ∧ c ≤ '~'

instance : DecidablePred Printable := fun c =>
  inferInstanceAs (Decidable (' ' ≤ c ∧ c ≤ '~'))

theorem forall_printable {t : Text} (h : t.all Printable = true) : ∀ c ∈ t, Printable c :=
  fun c hc => of_decide_eq_true (List.all_eq_true.1 h c hc)

theorem isDigit_of_mem_ofNat {n : Nat} {c : Char} (h : c ∈ Text.ofNat n) : c.isDigit = true :=
  Nat.isDigit_of_mem_toDigits (by decide) (by decide) h

theorem printable_of_isDigit {c : Char} (h : c.isDigit = true) : Printable c := by
  rw [Char.isDigit, Bool.and_eq_true, decide_eq_true_iff, decide_eq_true_iff] at h
  exact ⟨Nat.le_trans (by decide) h.1, Nat.le_trans h.2 (by decide)⟩

/-- All that a survey shows in its report is written with characters that have
    the property `p`. -/
structure Shows (p : Char → Prop) (s : Survey) : Prop where
  root : ∀ c ∈ s.root.shown, p c
  files : ∀ f ∈ s.clashing, ∀ c ∈ f.file.shownBelow s.root, p c
  names : ∀ f ∈ s.clashing, ∀ g ∈ f.clashes, ∀ c ∈ g.name, p c
  excerpts : ∀ f ∈ s.clashing, ∀ g ∈ f.clashes, ∀ d ∈ g.sites, ∀ line ∈ Text.lines d.excerpt,
    ∀ c ∈ line, p c
  failures : ∀ u ∈ s.unreadable, ∀ c ∈ failureLine s.root u, p c

/-- A row as a report has them, written with characters that have the property
    `p`. -/
inductive Row.Written (p : Char → Prop) : Row → Prop where
  | plain {t : Text} (h : ∀ c ∈ t, p c) : Written p (.plain t)
  | styled (s : Style) {t : Text} (h : ∀ c ∈ t, p c) : Written p (.styled s t)
  /-- In front of the style there is an indentation. -/
  | indented {indent : Text} (hindent : ∀ c ∈ indent, Printable c) (s : Style) {t : Text}
      (h : ∀ c ∈ t, p c) : Written p [.plain indent, .styled s t]

section

variable {p : Char → Prop} (hp : ∀ c, Printable c → p c)
include hp

/-- What holds of the printable characters holds of the characters of any printable
    text. -/
theorem forall_of_printable {t : Text} (h : ∀ c ∈ t, Printable c) : ∀ c ∈ t, p c :=
  fun c hc => hp c (h c hc)

/-- What holds of the printable characters holds of the characters of a fixed
    word. -/
theorem forall_mem_word {t : Text} (h : t.all Printable = true) : ∀ c ∈ t, p c :=
  forall_of_printable hp (forall_printable h)

/-- The words of a row have the property that the row is written with. -/
theorem Row.Written.words {r : Row} (h : r.Written p) : ∀ c ∈ r.words, p c := by
  cases h with
  | plain h => rwa [Row.words_plain]
  | styled s h => rwa [Row.words_styled]
  | indented hindent s h =>
    rw [Row.words_indented, List.forall_mem_append]
    exact ⟨forall_of_printable hp hindent, h⟩

/-- What holds of the printable characters holds of the digits of a number. -/
theorem forall_mem_ofNat (n : Nat) : ∀ c ∈ Text.ofNat n, p c :=
  forall_of_printable hp fun _ hc => printable_of_isDigit (isDigit_of_mem_ofNat hc)

theorem written_ruler : ruler.Written p :=
  .plain (forall_mem_word hp (by decide))

omit hp in
theorem written_blank : blank.Written p :=
  .plain fun _ hc => absurd hc List.not_mem_nil

/-- The rows of a definition: numbers between fixed words, and below them, if
    snippets are shown, the lines of the excerpt behind an indentation. -/
theorem written_siteRows {d : Source.Definition}
    (hlines : ∀ line ∈ Text.lines d.excerpt, ∀ c ∈ line, p c) (snippets : Bool) (i : Nat) :
    ∀ r ∈ siteRows snippets i d, r.Written p := by
  rw [siteRows, List.forall_mem_cons]
  refine ⟨.plain ?_, fun r hr => ?_⟩
  · simp only [List.forall_mem_append, List.forall_mem_cons]
    exact ⟨⟨⟨⟨forall_mem_word hp (by decide), forall_mem_ofNat hp _⟩,
      forall_mem_word hp (by decide)⟩, forall_mem_ofNat hp _⟩, hp _ (by decide),
      forall_mem_ofNat hp _⟩
  · split at hr
    · obtain ⟨line, hline, rfl⟩ := List.mem_map.1 hr
      exact .indented (forall_printable (by decide)) _ (hlines line hline)
    · exact absurd hr List.not_mem_nil

/-- The rows of a clash: its name and the number of its definitions, and below them
    the rows of each. -/
theorem written_clashRows {g : Source.Clash} (hname : ∀ c ∈ g.name, p c)
    (hlines : ∀ d ∈ g.sites, ∀ line ∈ Text.lines d.excerpt, ∀ c ∈ line, p c) (snippets : Bool) :
    ∀ r ∈ clashRows snippets g, r.Written p := by
  rw [clashRows, List.forall_mem_cons]
  refine ⟨.indented (forall_printable (by decide)) _ ?_, fun r hr => ?_⟩
  · simp only [List.forall_mem_append]
    exact ⟨⟨⟨⟨forall_mem_word hp (by decide), hname⟩, forall_mem_word hp (by decide)⟩,
      forall_mem_ofNat hp _⟩, forall_mem_word hp (by decide)⟩
  · obtain ⟨⟨d, i⟩, hd, hr⟩ := List.mem_flatMap.1 hr
    exact written_siteRows hp (hlines d (List.fst_mem_of_mem_zipIdx hd)) snippets i r hr

/-- The rows of the summary: fixed words and numbers. -/
theorem written_summaryRows (t : Tally) : ∀ r ∈ summaryRows t, r.Written p := by
  simp only [summaryRows, List.forall_mem_cons]
  refine ⟨.plain ?_, written_blank, written_ruler hp, .styled _ (forall_mem_word hp (by decide)),
    written_ruler hp, .plain ?_, .plain ?_, written_blank, fun _ hr => absurd hr List.not_mem_nil⟩
  · simp only [List.forall_mem_append]
    exact ⟨⟨forall_mem_word hp (by decide), forall_mem_ofNat hp _⟩,
      forall_mem_word hp (by decide)⟩
  · rw [List.forall_mem_append]
    exact ⟨forall_mem_word hp (by decide), forall_mem_ofNat hp _⟩
  · rw [List.forall_mem_append]
    exact ⟨forall_mem_word hp (by decide), forall_mem_ofNat hp _⟩

/-- The row of the verdict: fixed words, and numbers if there are clashes. -/
theorem written_verdict (s : Survey) : (verdict s).Written p := by
  rw [verdict]
  split
  · refine .styled _ ?_
    simp only [List.forall_mem_append]
    exact ⟨⟨⟨⟨forall_mem_word hp (by decide), forall_mem_ofNat hp _⟩,
      forall_mem_word hp (by decide)⟩, forall_mem_ofNat hp _⟩,
      forall_mem_word hp (by decide)⟩
  · exact .styled _ (forall_mem_word hp (by decide))

variable {s : Survey} (h : Shows p s)
include h

/-- The rows of a file with clashes: its path, the rows of each clash, and a blank
    one. -/
theorem Shows.fileRows {f : Findings} (hf : f ∈ s.clashing) (snippets : Bool) :
    ∀ r ∈ Report.fileRows snippets s.root f, r.Written p := by
  rw [Report.fileRows, List.cons_append, List.forall_mem_cons, List.forall_mem_append,
    List.forall_mem_singleton]
  refine ⟨.styled _ (h.files f hf), fun r hr => ?_, written_blank⟩
  obtain ⟨g, hg, hr⟩ := List.mem_flatMap.1 hr
  exact written_clashRows hp (h.names f hf g hg) (h.excerpts f hf g hg) snippets r hr

/-- The rows of the files with clashes: a title and the rows of each file, or none
    at all. -/
theorem Shows.clashingRows (snippets : Bool) :
    ∀ r ∈ Report.clashingRows snippets s, r.Written p := by
  rw [Report.clashingRows]
  split
  · rw [List.forall_mem_cons, List.forall_mem_cons]
    refine ⟨.styled _ (forall_mem_word hp (by decide)), written_blank, fun r hr => ?_⟩
    obtain ⟨f, hf, hr⟩ := List.mem_flatMap.1 hr
    exact h.fileRows hp hf snippets r hr
  · exact fun _ hr => absurd hr List.not_mem_nil

/-- The rows of the files that could not be read: a title, a row for each of them
    and a blank one, or none at all. -/
theorem Shows.unreadableRows : ∀ r ∈ Report.unreadableRows s, r.Written p := by
  rw [Report.unreadableRows]
  split
  · exact fun _ hr => absurd hr List.not_mem_nil
  · rw [List.cons_append, List.forall_mem_cons, List.forall_mem_append, List.forall_mem_singleton]
    refine ⟨.styled _ (forall_mem_word hp (by decide)), fun r hr => ?_, written_blank⟩
    obtain ⟨u, hu, rfl⟩ := List.mem_map.1 hr
    rw [unreadableRow_eq]
    refine .plain ?_
    rw [List.forall_mem_append]
    exact ⟨forall_mem_word hp (by decide), h.failures u hu⟩

/-- How the rows of a report are written: what holds of the printable characters
    and of those that are shown holds of all characters in them. -/
theorem Shows.rows (snippets : Bool) : ∀ r ∈ Report.rows snippets s, r.Written p := by
  rw [Report.rows, List.forall_mem_cons]
  refine ⟨.plain ?_, ?_⟩
  · rw [List.forall_mem_append]
    exact ⟨forall_mem_word hp (by decide), h.root⟩
  · split
    · rw [List.forall_mem_singleton]
      exact .styled _ (forall_mem_word hp (by decide))
    · simp only [List.forall_mem_append, List.forall_mem_cons]
      exact ⟨⟨⟨written_summaryRows hp _, h.clashingRows hp snippets⟩, h.unreadableRows hp⟩,
        written_verdict hp s, written_ruler hp, fun _ hr => absurd hr List.not_mem_nil⟩

end

end Report

end Homonym
