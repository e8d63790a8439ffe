import Homonym.Proofs.Source.Insertion
import Homonym.Proofs.Source.Nesting

/-!
# An excerpt is a source text

The excerpt of a definition is a text of its own, and what is found in it is the
definition it was taken from: the same name, in as many lines as there are, with
the same excerpt. Trimming takes the header to the left edge and cuts off the
blank lines at the end, while the lines in between stay as they are
(`splitOn_trim`). None of them closes the definition at the edge, because a line
that did would have closed it where it stood, further right.

* `splitOn_trim`: the lines of a trimmed text;
* `definitions_excerpt`: the definitions in an excerpt.
-/

namespace Homonym

namespace Source

/-! ### Lines of a trimmed text -/

/-- Something blank behind a text is white space behind its last line, and
    perhaps more lines. -/
theorem splitOn_append_of_isBlank {gap : Text} (hgap : gap.IsBlank) (t : Text) :
    ∃ ls more, (t ++ gap).splitOn '\n' = ls ++ more ∧
      List.Forall₂ (fun l m => Line.Padded ⟨l⟩ ⟨m⟩) (t.splitOn '\n') ls := by
  induction t with
  | nil =>
    obtain ⟨first, pieces, hpieces⟩ := List.exists_cons_of_ne_nil (List.splitOn_ne_nil '\n' gap)
    have hsub : first ⊆ gap := subset_of_mem_splitOn (hpieces ▸ List.mem_cons_self)
    exact ⟨[first], pieces, hpieces, .cons ⟨first, fun c hc => hgap c (hsub hc), rfl⟩ .nil⟩
  | cons c t ih =>
    obtain ⟨ls, more, hsplit, hpadded⟩ := ih
    by_cases hc : c = '\n'
    · -- The first line ends right here.
      rw [hc, List.cons_append, splitOn_cons_self, splitOn_cons_self, hsplit]
      exact ⟨[] :: ls, more, rfl, .cons ⟨[], fun _ hd => absurd hd List.not_mem_nil, rfl⟩ hpadded⟩
    · obtain ⟨first, pieces, hpieces⟩ := List.exists_cons_of_ne_nil (List.splitOn_ne_nil '\n' t)
      rw [hpieces] at hpadded
      obtain ⟨m, ms, ⟨pad, hpad, hm⟩, hms, rfl⟩ := List.forall₂_cons_left_iff.1 hpadded
      rw [splitOn_cons_of_ne hc hpieces]
      exact ⟨(c :: m) :: ms, more, splitOn_cons_of_ne hc hsplit,
        .cons ⟨pad, hpad, congrArg (c :: ·) hm⟩ hms⟩

/-- The lines of a trimmed text: the first one without its indentation, and of
    the others those up to the last one that is not blank. White space at the end
    of the text is gone, too. -/
theorem splitOn_trim {left : Text} (hleft : left.IsBlank) {c : Char} (hc : isSpace c = false)
    {rest : Text} {ls : List Text} (hfree : ∀ l ∈ (left ++ c :: rest) :: ls, '\n' ∉ l) :
    ∃ first pieces gap kept more,
      (Text.trim (List.intercalate ['\n'] ((left ++ c :: rest) :: ls))).splitOn '\n' =
        (c :: first) :: pieces ∧
      gap.IsBlank ∧ rest = first ++ gap ∧ ls = kept ++ more ∧
      List.Forall₂ (fun l m => Line.Padded ⟨l⟩ ⟨m⟩) pieces kept := by
  set whole := List.intercalate ['\n'] ((left ++ c :: rest) :: ls) with hwhole
  have hlines : whole.splitOn '\n' = (left ++ c :: rest) :: ls :=
    List.splitOn_intercalate _ hfree (List.cons_ne_nil _ _)
  obtain ⟨tail, htail⟩ : ∃ tail, whole = left ++ c :: tail := by
    cases ls with
    | nil => exact ⟨rest, by rw [hwhole, List.intercalate_singleton]⟩
    | cons l ls =>
      refine ⟨rest ++ (['\n'] ++ List.intercalate ['\n'] (l :: ls)), ?_⟩
      rw [hwhole, List.intercalate_cons_cons, List.append_assoc, List.append_assoc,
        List.cons_append]
  -- What is blank behind the trimmed text is white space behind its last line.
  obtain ⟨right, hright, heq⟩ := Text.exists_trimRight tail
  obtain ⟨ms, more, hsplit, hpadded⟩ := splitOn_append_of_isBlank hright (Text.trimRight tail)
  obtain ⟨first, pieces, hpieces⟩ :=
    List.exists_cons_of_ne_nil (List.splitOn_ne_nil '\n' (Text.trimRight tail))
  rw [hpieces] at hpadded
  obtain ⟨m, kept, ⟨gap, hgap, rfl⟩, hkept, rfl⟩ := List.forall₂_cons_left_iff.1 hpadded
  rw [← heq, List.cons_append] at hsplit
  -- The indentation and the character behind it are on the first line.
  have hheader : '\n' ∉ left ++ c :: rest := hfree _ List.mem_cons_self
  rw [List.mem_append, not_or, List.mem_cons, not_or] at hheader
  have hagain :=
    splitOn_append_of_not_mem hheader.1 (splitOn_cons_of_ne (Ne.symm hheader.2.1) hsplit)
  rw [← htail, hlines] at hagain
  obtain ⟨hfirst, hls⟩ := List.cons.inj hagain
  refine ⟨first, pieces, gap, kept, more, ?_, hgap, ?_, hls, hkept⟩
  · rw [htail, Text.trim_append_left hleft, Text.trim_cons hc]
    exact splitOn_cons_of_ne (Ne.symm hheader.2.1) hpieces
  · exact (List.cons.inj (List.append_cancel_left hfirst)).2

/-! ### The definition in an excerpt -/

/-- No line of a body closes it. -/
theorem closes_eq_false_of_mem_body {header l : Line} {following : List Line}
    (h : l ∈ body header following) : l.closes header.indent = false := by
  simpa using List.mem_takeWhile_imp h

/-- A line that closes no definition at an indentation closes none further
    left. -/
theorem Line.closes_mono {l : Line} {m n : Nat} (hmn : m ≤ n) (h : l.closes n = false) :
    l.closes m = false := by
  rw [Bool.eq_false_iff, Ne, Line.closes_iff] at h ⊢
  exact fun hbound => h (hbound.mono hmn)

/-- If no line closes a definition with white space behind it, then none does
    without. -/
theorem closes_eq_false_of_padded {indent : Nat} {ls ms : List Line}
    (h : List.Forall₂ Line.Padded ls ms) (hms : ∀ m ∈ ms, m.closes indent = false) :
    ∀ l ∈ ls, l.closes indent = false := by
  induction h with
  | nil => exact fun _ hl => absurd hl List.not_mem_nil
  | cons hlm _ ih =>
    rw [List.forall_mem_cons] at hms ⊢
    exact ⟨hlm.closes_eq indent ▸ hms.1, ih hms.2⟩

theorem isTrimmed_excerpt (header : Line) (following : List Line) :
    (excerpt header following).IsTrimmed :=
  Text.isTrimmed_trim _

/-- The lines of a text that does not start with a byte order mark. -/
theorem lines_of_splitOn {c : Char} (hc : c ≠ '\uFEFF') {t first : Text} {pieces : List Text}
    (h : t.splitOn '\n' = (c :: first) :: pieces) :
    lines t = ((c :: first) :: pieces).map Line.mk := by
  have hmark : t.head? ≠ some '\uFEFF' := by
    have ht : List.intercalate ['\n'] ((c :: first) :: pieces) = t := by
      rw [← h, List.intercalate_splitOn]
    rw [← ht, Ne, head?_intercalate_cons (by decide)]
    exact fun heq => hc (Option.some.inj heq)
  rw [lines, dropMark_of_head?_ne hmark, h]

/-- The excerpt of a definition of at most five lines shows all of it. -/
theorem excerpt_of_body_eq_self {header : Line} {following : List Line}
    (hbody : body header following = following) (hlength : following.length ≤ 4) :
    excerpt header following =
      Text.trim (List.intercalate ['\n'] ((header :: following).map Line.raw)) := by
  rw [excerpt, hbody, List.take_of_length_le (Nat.succ_le_succ hlength)]

section

variable {header : Line} {following : List Line} {name : Text}
  (hname : headerName? header.code = some name)
  (hfree : ∀ l ∈ header :: following, '\n' ∉ l.raw)
include hname hfree

/-- The lines of an excerpt: the header without the white space around it, and at
    most four more, none of which closes the definition. -/
theorem splitOn_excerpt : ∃ first pieces,
    (excerpt header following).splitOn '\n' = ('d' :: first) :: pieces ∧
    (Line.mk ('d' :: first)).code = header.code ∧ pieces.length ≤ 4 ∧
    ∀ l ∈ pieces.map Line.mk, l.closes header.indent = false := by
  obtain ⟨raw⟩ := header
  obtain ⟨_, _, hcode, -⟩ := exists_code_of_headerName? hname
  rw [Line.code] at hcode
  -- The first character behind the indentation is the first one of the code.
  obtain ⟨left, c, rest, hleft, hc, rfl⟩ :=
    Text.exists_of_trim_ne_nil (hcode ▸ List.cons_ne_nil _ _)
  rw [Text.trim_append_left hleft, Text.trim_cons hc] at hcode
  obtain ⟨rfl, -⟩ := List.cons.inj hcode
  set header : Line := ⟨left ++ 'd' :: rest⟩
  have hshown : ∀ l ∈ header.raw :: ((body header following).take 4).map Line.raw, '\n' ∉ l := by
    rw [List.forall_mem_cons, List.forall_mem_map]
    refine ⟨hfree header List.mem_cons_self, fun l hl => hfree l (List.mem_cons_of_mem _ ?_)⟩
    exact (body_isPrefix header following).subset (List.mem_of_mem_take hl)
  obtain ⟨first, pieces, gap, kept, more, hlines, hgap, rfl, hkept, hpadded⟩ :=
    splitOn_trim hleft hc hshown
  obtain ⟨kept, more, hinner, rfl, rfl⟩ := List.map_eq_append_iff.1 hkept
  rw [List.forall₂_map_right_iff] at hpadded
  refine ⟨first, pieces, hlines, ?_, ?_, ?_⟩
  · rw [Line.code, Line.code, Text.trim_append_left hleft, ← List.cons_append,
      Text.trim_append hgap]
  · calc pieces.length = kept.length := hpadded.length_eq
      _ ≤ (kept ++ more).length := by rw [List.length_append]; exact Nat.le_add_right _ _
      _ ≤ 4 := by rw [← hinner]; exact List.length_take_le _ _
  · refine closes_eq_false_of_padded (List.forall₂_map_left_iff.2 hpadded) fun m hm => ?_
    have hmem : m ∈ (body header following).take 4 := hinner ▸ List.mem_append_left _ hm
    exact closes_eq_false_of_mem_body (List.mem_of_mem_take hmem)

/-- An excerpt starts with the definition it was taken from, at the left edge and
    down to its last line. -/
theorem head?_definitions_excerpt :
    (excerpt header following).count '\n' ≤ 4 ∧
      (definitions (excerpt header following)).head? =
        some ⟨name, 0, (excerpt header following).count '\n', excerpt header following⟩ := by
  obtain ⟨first, pieces, hsplit, hcode, hlength, hopen⟩ := splitOn_excerpt hname hfree
  have htrimmed := isTrimmed_excerpt header following
  generalize excerpt header following = e at hsplit htrimmed ⊢
  have hcount : e.count '\n' = pieces.length := by
    have hlen := length_splitOn '\n' e
    rw [hsplit, List.length_cons] at hlen
    exact (Nat.succ.inj hlen).symm
  -- At the left edge, fewer lines close the definition than where it stood.
  have hbody : body ⟨'d' :: first⟩ (pieces.map Line.mk) = pieces.map Line.mk := by
    have hedge : (Line.mk ('d' :: first)).indent = 0 := rfl
    rw [body, hedge, List.takeWhile_eq_self_iff]
    intro l hl
    rw [Line.closes_mono (Nat.zero_le _) (hopen l hl)]
    rfl
  have hexcerpt : excerpt ⟨'d' :: first⟩ (pieces.map Line.mk) = e := by
    rw [excerpt_of_body_eq_self hbody (by rwa [List.length_map]), ← List.map_cons, List.map_map,
      ← hsplit, Function.comp_def, List.map_id', List.intercalate_splitOn, htrimmed.trim_eq]
  refine ⟨hcount ▸ hlength, ?_⟩
  rw [definitions, lines_of_splitOn (by decide) hsplit, List.map_cons,
    definitionsFrom_cons_some (hcode ▸ hname), List.head?_cons, Definition.ofHeader, hbody,
    hexcerpt, hcount, List.length_map, Nat.zero_add]

end

/-- The excerpt of a definition is a faithful source text: it has no white space
    around it and at most four line feeds, and the first definition found in it is
    the one it was taken from, from the first line of the excerpt to the last and
    with the excerpt itself as its own. -/
theorem definitions_excerpt {source : Text} {d : Definition} (hd : d ∈ definitions source) :
    d.excerpt.IsTrimmed ∧ d.excerpt.count '\n' ≤ 4 ∧
      (definitions d.excerpt).head? =
        some { name := d.name, first := 0, last := d.excerpt.count '\n',
               excerpt := d.excerpt } := by
  obtain ⟨i, header, name, hheader, hname, rfl⟩ := mem_definitionsFrom_iff.1 hd
  -- The header and the lines that follow it are lines of the source.
  have hfree : ∀ l ∈ header :: (lines source).drop (i + 1), '\n' ∉ l.raw := by
    rw [List.forall_mem_cons]
    exact ⟨newline_not_mem_raw (List.mem_of_getElem? hheader),
      fun l hl => newline_not_mem_raw (List.mem_of_mem_drop hl)⟩
  simp only [Definition.ofHeader]
  exact ⟨isTrimmed_excerpt _ _, head?_definitions_excerpt hname hfree⟩

/-- A text with an indented definition of five lines, the second and the last of
    which are blank and the third of which starts another definition. -/
def indentedText : Text :=
  " def f():\n\n  def g():\n x \n \ndef h():".toList

/-- The excerpt of that definition, four lines long, has the definition in it. -/
theorem definitions_excerpt_indented :
    ∃ d ∈ definitions indentedText, d.last = 4 ∧ d.excerpt.IsTrimmed ∧
      d.excerpt.count '\n' = 3 ∧
      (definitions d.excerpt).head? = some ⟨['f'], 0, 3, d.excerpt⟩ := by
  have hd : ⟨['f'], 0, 4, "def f():\n\n  def g():\n x".toList⟩ ∈ definitions indentedText := by
    decide
  obtain ⟨htrimmed, -, hhead⟩ := definitions_excerpt hd
  exact ⟨_, hd, rfl, htrimmed, by decide, hhead⟩

end Source

end Homonym
