import Homonym.Proofs.Path.Relative
import Homonym.Proofs.Report.Rows
import Homonym.Proofs.Terminal.Unstyled

/-!
# Colour changes only the styles of a report

Taking the style sequences out of a report in colour leaves the same as taking
them out of the report without colour, even if paths, names and excerpts hold
sequences of their own, or parts of some.

The sequences that colour adds stand in front of a span, behind it, and behind
each reset in it. Each of them starts with an escape character, so it is taken
out whatever stands before it. What might go wrong is that text on the two sides
of it makes up a sequence once they come together. But behind a reset nothing is
left open, behind a styled span the row ends, and in front of one there is at
most an indentation: only the last span of a row can leave something open
(`Row.Steady`).

* `unstyled_append_reopen`: the styles turned on again behind resets;
* `Row.Steady.unstyled_spans`: the spans of a row;
* `unstyled_text`: a whole report.
-/

namespace Homonym

namespace Report

open Terminal

/-! ### Spans -/

theorem isParameter_of_mem_parameters (s : Style) :
    ∀ c ∈ s.parameters, isParameter c = true :=
  List.all_eq_true.1 (by cases s <;> decide)

theorem unstyled_opening_append (s : Style) (t : Text) :
    unstyled (s.opening ++ t) = unstyled t :=
  unstyled_sequenceOf_append (isParameter_of_mem_parameters s) t

/-- A sequence that closes a style parts a text into two that are unstyled apart. -/
theorem unstyled_append_reset (t u : Text) :
    unstyled (t ++ (reset ++ u)) = unstyled t ++ unstyled u :=
  unstyled_append_sequence t (List.all_eq_true.1 (by decide)) u

/-- Turning a style on again behind each reset in a text adds nothing to what is
    left of it. -/
theorem unstyled_append_reopen (s : Style) (t u : Text) :
    unstyled (t ++ reopen s.opening u) = unstyled (t ++ u) := by
  fun_induction reopen s.opening u generalizing t with
  | case1 rest ih =>
    -- What is read anew behind the reset is the rest alone.
    have hrest := ih []
    rw [List.nil_append, List.nil_append] at hrest
    calc unstyled (t ++ (reset ++ s.opening ++ reopen s.opening rest))
        = unstyled t ++ unstyled (reopen s.opening rest) := by
          rw [List.append_assoc, unstyled_append_reset, unstyled_opening_append]
      _ = unstyled (t ++ (reset ++ rest)) := by rw [hrest, unstyled_append_reset]
  | case2 c rest _ ih =>
    have hrest := ih (t ++ [c])
    rwa [List.append_assoc, List.append_assoc] at hrest
  | case3 => rfl

/-- What is left of a span does not depend on colour, and not on what follows it
    either, if the span holds no escape character or nothing follows. -/
theorem unstyled_render_append (colour : Bool) (s : Span) {u : Text}
    (h : '\x1b' ∉ s.text ∨ u = []) :
    unstyled (s.render colour ++ u) = unstyled s.text ++ unstyled u := by
  have hplain : unstyled (s.text ++ u) = unstyled s.text ++ unstyled u := by
    rcases h with h | rfl
    · rw [unstyled_append_of_not_mem h, unstyled_of_not_mem h]
    · rw [List.append_nil, unstyled_nil, List.append_nil]
  unfold Span.render
  split
  next style hstyle =>
    have hinner := unstyled_append_reopen style [] s.text
    rw [List.nil_append, List.nil_append] at hinner
    rw [List.append_assoc, unstyled_append_reset, unstyled_opening_append, hinner]
  next => exact hplain

/-! ### Rows -/

/-- No span but the last one holds an escape character. -/
def Row.Steady (r : Row) : Prop :=
  ∀ s ∈ r.dropLast, '\x1b' ∉ s.text

/-- A row as a report has them is steady, whatever it is written with. -/
theorem Row.Written.steady {p : Char → Prop} {r : Row} (h : r.Written p) : r.Steady := by
  intro s hs
  cases h with
  | plain => exact absurd hs List.not_mem_nil
  | styled => exact absurd hs List.not_mem_nil
  | indented hindent =>
    rw [List.mem_singleton.1 hs]
    exact fun hmem => absurd (hindent _ hmem) (by decide)

/-- What is left of the spans of a row does not depend on colour. -/
theorem Row.Steady.unstyled_spans {r : Row} (h : r.Steady) (colour : Bool) :
    unstyled (r.flatMap (Span.render colour)) = unstyled r.words := by
  induction r with
  | nil => rfl
  | cons s r ih =>
    have hwords : Row.words (s :: r) = s.render false ++ Row.words r := rfl
    cases r with
    | nil =>
      have hlast : ∀ colour, unstyled (s.render colour ++ []) = unstyled s.text ++ unstyled [] :=
        fun colour => unstyled_render_append colour s (.inr rfl)
      exact (hlast colour).trans (hlast false).symm
    | cons s' r =>
      have hs : '\x1b' ∉ s.text := h s List.mem_cons_self
      have hrest := ih fun span hspan => h span (List.mem_cons_of_mem _ hspan)
      rw [List.flatMap_cons, hwords, unstyled_render_append colour s (.inl hs),
        unstyled_render_append false s (.inl hs), hrest]

/-- What is left of steady rows is left row by row. -/
theorem unstyled_flatMap_render {rs : List Row} (h : ∀ r ∈ rs, Row.Steady r) (colour : Bool) :
    unstyled (rs.flatMap (Row.render colour)) =
      rs.flatMap fun r => unstyled r.words ++ ['\n'] := by
  induction rs with
  | nil => exact unstyled_nil
  | cons r rs ih =>
    obtain ⟨hr, hrs⟩ := List.forall_mem_cons.1 h
    -- A line feed is no part of a sequence.
    rw [List.flatMap_cons, List.flatMap_cons, Row.render, List.append_assoc,
      List.singleton_append, unstyled_append_cons rfl, unstyled_cons_of_ne (by decide),
      hr.unstyled_spans colour, ih hrs, List.append_assoc, List.singleton_append]

theorem steady_of_mem_rows {snippets : Bool} {s : Survey} {r : Row} (h : r ∈ rows snippets s) :
    r.Steady := by
  have hany : Shows (fun _ => True) s :=
    ⟨fun _ _ => trivial, fun _ _ _ _ => trivial, fun _ _ _ _ _ _ => trivial,
      fun _ _ _ _ _ _ _ _ _ _ => trivial, fun _ _ _ _ => trivial⟩
  exact (hany.rows (fun _ _ => trivial) snippets r h).steady

/-! ### Reports -/

/-- No text in a survey holds an escape character. -/
structure EscapeFree (s : Survey) : Prop where
  root : 0x1B ∉ s.root.spelling
  files : ∀ f ∈ s.clashing, 0x1B ∉ f.file.spelling
  names : ∀ f ∈ s.clashing, ∀ g ∈ f.clashes, '\x1b' ∉ g.name
  excerpts : ∀ f ∈ s.clashing, ∀ g ∈ f.clashes, ∀ d ∈ g.sites, '\x1b' ∉ d.excerpt
  unreadable : ∀ u ∈ s.unreadable, 0x1B ∉ u.file.spelling
  reasons : ∀ u ∈ s.unreadable, '\x1b' ∉ u.reason

/-- If there is no escape character in the spelling of a path, there is none in what
    is shown of it. -/
theorem escape_not_mem_shownBelow {file : Path} (h : 0x1B ∉ file.spelling) (root : Path) :
    '\x1b' ∉ file.shownBelow root := by
  intro hmem
  rcases Path.mem_spelling_of_mem_shownBelow (by decide) (by decide) hmem with heq | heq | hfile
  · exact absurd heq (by decide)
  · exact absurd heq (by decide)
  · exact h hfile

/-- What an escape-free survey shows holds no escape character. -/
theorem EscapeFree.shows {s : Survey} (h : EscapeFree s) : Shows (· ≠ '\x1b') s where
  root := by
    rintro _ hc rfl
    exact h.root (Utf8.mem_of_mem_shown (by decide) (by decide) hc)
  files := by
    rintro f hf _ hc rfl
    exact escape_not_mem_shownBelow (h.files f hf) _ hc
  names := by
    rintro f hf g hg _ hc rfl
    exact h.names f hf g hg hc
  excerpts := by
    rintro f hf g hg d hd line hline _ hc rfl
    exact h.excerpts f hf g hg d hd (subset_of_mem_lines hline hc)
  failures := by
    rintro u hu _ hc rfl
    rw [failureLine, List.mem_append, List.mem_append] at hc
    rcases hc with (hc | hc) | hc
    · exact escape_not_mem_shownBelow (h.unreadable u hu) _ hc
    · exact absurd hc (by decide)
    · exact h.reasons u hu hc

theorem EscapeFree.escape_not_mem_text {s : Survey} (h : EscapeFree s) (snippets : Bool) :
    '\x1b' ∉ text ⟨snippets, false⟩ s := by
  have hprintable : ∀ c, Printable c → c ≠ '\x1b' := by
    rintro _ hc rfl
    exact absurd hc (by decide)
  intro hmem
  obtain ⟨r, hr, hmem⟩ := List.mem_flatMap.1 hmem
  rw [Row.render_false, List.mem_append, List.mem_singleton] at hmem
  rcases hmem with hmem | heq
  · exact (h.shows.rows hprintable snippets r hr).words hprintable _ hmem rfl
  · exact absurd heq (by decide)

/-- Colour changes only the styles of a report: without its style sequences, the
    report in colour is the same as the report without colour, without its own.

    If no text in the survey holds an escape character, then there is nothing to
    take out of the latter, and it is what is left of the report in colour. -/
theorem unstyled_text (snippets : Bool) (s : Survey) :
    unstyled (text ⟨snippets, true⟩ s) = unstyled (text ⟨snippets, false⟩ s) ∧
    (EscapeFree s → unstyled (text ⟨snippets, true⟩ s) = text ⟨snippets, false⟩ s) := by
  have hrows : ∀ colour, unstyled (text ⟨snippets, colour⟩ s) =
      (rows snippets s).flatMap fun r => unstyled r.words ++ ['\n'] := fun colour =>
    unstyled_flatMap_render (fun _ hr => steady_of_mem_rows hr) colour
  have hsame : unstyled (text ⟨snippets, true⟩ s) = unstyled (text ⟨snippets, false⟩ s) := by
    rw [hrows true, hrows false]
  exact ⟨hsame, fun h => hsame.trans (unstyled_of_not_mem (h.escape_not_mem_text snippets))⟩

/-- A survey with a name that is defined twice in a file. -/
def twiceNamed (name : Text) : Survey where
  root := .ofText ['p']
  clashing := [⟨.ofText "p/a".toList, 2, [⟨name, [⟨name, 0, 0, name⟩, ⟨name, 1, 1, name⟩]⟩]⟩]
  unreadable := []
  tally := ⟨1, 1, 1, 0⟩

/-- A name that holds a reset and the beginning of another sequence, and a name
    without escape characters. -/
theorem unstyled_twiceNamed :
    unstyled (text ⟨true, true⟩ (twiceNamed "\x1b[0m\x1b[3".toList)) =
      unstyled (text ⟨true, false⟩ (twiceNamed "\x1b[0m\x1b[3".toList)) ∧
    EscapeFree (twiceNamed ['f']) ∧
    unstyled (text ⟨true, true⟩ (twiceNamed ['f'])) = text ⟨true, false⟩ (twiceNamed ['f']) := by
  have hfree : EscapeFree (twiceNamed ['f']) :=
    ⟨by decide, by decide, by decide, by decide, by decide, by decide⟩
  exact ⟨(unstyled_text true _).1, hfree, (unstyled_text true _).2 hfree⟩

end Report

end Homonym
