import Homonym.Source.Definition
import Mathlib.Tactic.Common

/-!
# How far a definition reaches

A definition is found by going through the lines from its header on. Here it is
described instead, by what holds of the lines it covers: a definition *extends*
from its header to a line `e` if no line after the header up to `e` bounds it,
and `e` is the last line of all or the next line bounds it (`IsExtent`). There
is exactly one such line, which is the last line of the definition.

* `mem_definitions_iff`: the definitions of a text are all that fit its lines;
* `definitions_pairwise`: they come in the order of their headers;
* `definitions_exact`: which lines start a definition, where it ends and what
  its excerpt is.
-/

namespace Homonym

namespace Source

/-- A line that bounds a definition with the indentation `indent`: one with code
    at or left of it that starts with the word `def` or `class` and a space. -/
def Line.IsBoundary (indent : Nat) (l : Line) : Prop :=
  l.isIdle = false ∧ l.indent ≤ indent ∧
    ("def ".toList <+: l.code ∨ "class ".toList <+: l.code)

theorem Line.closes_iff {indent : Nat} {l : Line} :
    l.closes indent = true ↔ l.IsBoundary indent := by
  simp [Line.closes, Line.IsBoundary, and_assoc]

/-- The name of the function whose header the line `i` is, if it is one. -/
def headerAt? (ls : List Line) (i : Nat) : Option Text :=
  ls[i]?.bind fun l => headerName? l.code

theorem headerAt?_eq_some_iff {ls : List Line} {i : Nat} {name : Text} :
    headerAt? ls i = some name ↔ ∃ l, ls[i]? = some l ∧ headerName? l.code = some name := by
  rw [headerAt?, Option.bind_eq_some_iff]

/-- A header is the word `def` and white space, whatever follows. -/
theorem exists_code_of_headerName? {code name : Text} (h : headerName? code = some name) :
    ∃ c rest, code = 'd' :: 'e' :: 'f' :: c :: rest ∧ isSpace c = true := by
  unfold headerName? at h
  split at h
  next rest =>
    cases rest with
    | nil => cases h
    | cons c rest =>
      by_cases hc : isSpace c = true
      · exact ⟨c, rest, rfl, hc⟩
      · rw [List.head?_cons, Option.any_some, if_neg hc] at h
        cases h
  next => cases h

/-- A header is neither blank nor a comment. -/
theorem Line.isIdle_of_headerName? {l : Line} {name : Text} (h : headerName? l.code = some name) :
    l.isIdle = false := by
  obtain ⟨c, rest, hcode, -⟩ := exists_code_of_headerName? h
  rw [Line.isIdle, hcode]
  rfl

/-- A definition with its header in line `first`, at the indentation `indent`,
    extends to the line `last`. -/
structure IsExtent (ls : List Line) (indent first last : Nat) : Prop where
  /-- It does not end before its header. -/
  first_le : first ≤ last
  /-- It ends in a line of the text. -/
  last_lt : last < ls.length
  /-- No line bounds it up to its end. -/
  inside : ∀ i l, first < i → i ≤ last → ls[i]? = some l → ¬l.IsBoundary indent
  /-- It goes on to the last line, or as far as to the next boundary. -/
  stop : last + 1 = ls.length ∨ ∃ l, ls[last + 1]? = some l ∧ l.IsBoundary indent

/-- A definition does not extend beyond another end of it: there it would meet
    a boundary, or the end of the text. -/
theorem IsExtent.le {ls : List Line} {indent first e e' : Nat}
    (h : IsExtent ls indent first e) (h' : IsExtent ls indent first e') : e' ≤ e := by
  by_contra hlt
  rw [Nat.not_le] at hlt
  rcases h.stop with hend | ⟨l, hl, hb⟩
  · have := h'.last_lt
    omega
  · exact h'.inside (e + 1) l (Nat.lt_succ_of_le h.first_le) hlt hl hb

theorem IsExtent.unique {ls : List Line} {indent first e e' : Nat}
    (h : IsExtent ls indent first e) (h' : IsExtent ls indent first e') : e = e' :=
  Nat.le_antisymm (h'.le h) (h.le h')

/-! ### The definition of a header -/

/-- The body of a definition is what stands before the first line that closes
    it. -/
theorem body_eq_take (header : Line) (following : List Line) :
    body header following = following.take (following.findIdx (Line.closes header.indent)) := by
  simp [body, List.takeWhile_eq_take_findIdx_not]

/-- A body is as long as it takes to find a line that closes it. -/
theorem length_body (header : Line) (following : List Line) :
    (body header following).length = following.findIdx (Line.closes header.indent) := by
  rw [body_eq_take, List.length_take, Nat.min_eq_left List.findIdx_le_length]

/-- The body of a header reaches as far as the definition extends. -/
theorem isExtent_body {ls : List Line} {i : Nat} {header : Line} (hi : ls[i]? = some header) :
    IsExtent ls header.indent i (i + (body header (ls.drop (i + 1))).length) := by
  obtain ⟨hlt, rfl⟩ := List.getElem?_eq_some_iff.1 hi
  rw [length_body]
  set following := ls.drop (i + 1) with hf
  have hle : following.findIdx (Line.closes ls[i].indent) ≤ following.length :=
    List.findIdx_le_length
  have hlen : following.length = ls.length - (i + 1) := by rw [hf, List.length_drop]
  have hget : ∀ k, following[k]? = ls[i + 1 + k]? := fun k => by rw [hf, List.getElem?_drop]
  refine ⟨Nat.le_add_right _ _, by omega, fun j l hij hj hl hb => ?_, ?_⟩
  · -- A line of the body stands before the first one that closes it.
    obtain ⟨k, rfl⟩ : ∃ k, j = i + 1 + k := ⟨j - (i + 1), by omega⟩
    have hk : k < following.findIdx (Line.closes ls[i].indent) := by omega
    obtain ⟨_, rfl⟩ := List.getElem?_eq_some_iff.1 ((hget k).trans hl)
    exact absurd (Line.closes_iff.2 hb) (by simp [List.not_of_lt_findIdx hk])
  · -- The search stopped at a line that closes the body, or found none.
    rcases Nat.lt_or_eq_of_le hle with hk | hk
    · refine .inr ⟨following[following.findIdx (Line.closes ls[i].indent)], ?_, ?_⟩
      · rw [← List.getElem?_eq_getElem hk, hget]
        congr 1
        omega
      · exact Line.closes_iff.1 (List.findIdx_getElem (w := hk))
    · exact .inl (by omega)

/-- The first lines of a definition, as a section of all the lines. -/
theorem excerpt_eq_extract {ls : List Line} {i : Nat} {header : Line} (hi : ls[i]? = some header) :
    excerpt header (ls.drop (i + 1)) =
      Text.trim (List.intercalate ['\n'] ((ls.extract i
        (min (i + 5) (i + (body header (ls.drop (i + 1))).length + 1))).map Line.raw)) := by
  obtain ⟨hlt, rfl⟩ := List.getElem?_eq_some_iff.1 hi
  -- The header and its body are a section, so their first five lines are, too.
  have hsection : (ls[i] :: body ls[i] (ls.drop (i + 1))).take excerptLines =
      ls.extract i (min (i + 5) (i + (body ls[i] (ls.drop (i + 1))).length + 1)) := by
    rw [List.extract_eq_take_drop, List.drop_eq_getElem_cons hlt, length_body, body_eq_take,
      ← List.take_succ_cons, List.take_take, excerptLines]
    congr 1
    omega
  rw [excerpt, hsection]

/-- The definition that a header in line `n` starts, given the name in it and
    the lines that follow it. -/
def Definition.ofHeader (n : Nat) (name : Text) (header : Line) (following : List Line) :
    Definition :=
  { name, first := n, last := n + (body header following).length,
    excerpt := Source.excerpt header following }

theorem definitionsFrom_cons_none {n : Nat} {header : Line} {following : List Line}
    (h : headerName? header.code = none) :
    definitionsFrom n (header :: following) = definitionsFrom (n + 1) following := by
  simp only [definitionsFrom, h]

theorem definitionsFrom_cons_some {n : Nat} {name : Text} {header : Line} {following : List Line}
    (h : headerName? header.code = some name) :
    definitionsFrom n (header :: following) =
      .ofHeader n name header following :: definitionsFrom (n + 1) following := by
  simp only [definitionsFrom, h, Definition.ofHeader]

/-- Going through the lines finds the definition of every header, and no
    other. -/
theorem mem_definitionsFrom_iff {n : Nat} {ls : List Line} {d : Definition} :
    d ∈ definitionsFrom n ls ↔ ∃ i header name, ls[i]? = some header ∧
      headerName? header.code = some name ∧
      d = .ofHeader (n + i) name header (ls.drop (i + 1)) := by
  induction ls generalizing n with
  | nil => simp [definitionsFrom]
  | cons header following ih =>
    -- A header is the first of the lines or one of those that follow it.
    have hsplit : (∃ i l name, (header :: following)[i]? = some l ∧
          headerName? l.code = some name ∧
          d = .ofHeader (n + i) name l ((header :: following).drop (i + 1))) ↔
        (∃ name, headerName? header.code = some name ∧ d = .ofHeader n name header following) ∨
          d ∈ definitionsFrom (n + 1) following := by
      rw [ih]
      constructor
      · rintro ⟨i, l, name, hl, hname, rfl⟩
        cases i with
        | zero =>
          obtain rfl : header = l := by simpa using hl
          exact .inl ⟨name, hname, rfl⟩
        | succ i =>
          refine .inr ⟨i, l, name, by simpa using hl, hname, ?_⟩
          rw [List.drop_succ_cons, Nat.add_right_comm, Nat.add_assoc n i 1]
      · rintro (⟨name, hname, rfl⟩ | ⟨i, l, name, hl, hname, rfl⟩)
        · exact ⟨0, header, name, rfl, hname, rfl⟩
        · refine ⟨i + 1, l, name, by simpa using hl, hname, ?_⟩
          rw [List.drop_succ_cons, Nat.add_right_comm, Nat.add_assoc n i 1]
    rw [hsplit]
    cases hname : headerName? header.code with
    | none => simp [definitionsFrom_cons_none hname]
    | some name => simp [definitionsFrom_cons_some hname]

/-- A definition among some lines starts in one of them. -/
theorem le_first_of_mem_definitionsFrom {n : Nat} {ls : List Line} {d : Definition}
    (hd : d ∈ definitionsFrom n ls) : n ≤ d.first := by
  obtain ⟨i, header, name, -, -, rfl⟩ := mem_definitionsFrom_iff.1 hd
  exact Nat.le_add_right n i

/-- The definitions are in the order of the lines that they start in. -/
theorem definitionsFrom_pairwise (n : Nat) (ls : List Line) :
    (definitionsFrom n ls).Pairwise fun a b => a.first < b.first := by
  induction ls generalizing n with
  | nil => exact .nil
  | cons header following ih =>
    cases hname : headerName? header.code with
    | none =>
      rw [definitionsFrom_cons_none hname]
      exact ih (n + 1)
    | some name =>
      rw [definitionsFrom_cons_some hname, List.pairwise_cons]
      exact ⟨fun d hd => le_first_of_mem_definitionsFrom hd, ih (n + 1)⟩

/-! ### The definitions of a text -/

/-- A definition fits the lines of a text, as the one with the given header: it
    has the name in the header, covers the lines that it extends over and shows
    at most five of them. -/
structure Definition.Fits (ls : List Line) (header : Line) (d : Definition) : Prop where
  /-- It starts with the header. -/
  header_eq : ls[d.first]? = some header
  /-- Its name is the one in the header. -/
  name_eq : headerName? header.code = some d.name
  /-- It ends where it extends to. -/
  extent : IsExtent ls header.indent d.first d.last
  /-- Its excerpt is taken from its first lines. -/
  excerpt_eq : d.excerpt = Text.trim (List.intercalate ['\n']
    ((ls.extract d.first (min (d.first + 5) (d.last + 1))).map Line.raw))

/-- The definition that is read off a header fits the lines. -/
theorem Definition.Fits.ofHeader {ls : List Line} {i : Nat} {header : Line} {name : Text}
    (hi : ls[i]? = some header) (hname : headerName? header.code = some name) :
    (Definition.ofHeader i name header (ls.drop (i + 1))).Fits ls header :=
  ⟨hi, hname, isExtent_body hi, excerpt_eq_extract hi⟩

/-- Only one definition with a given first line fits the lines of a text. -/
theorem Definition.Fits.unique {ls : List Line} {header header' : Line} {d d' : Definition}
    (h : d.Fits ls header) (h' : d'.Fits ls header') (hfirst : d.first = d'.first) : d = d' := by
  have hheader : header = header' :=
    Option.some.inj (h.header_eq.symm.trans (hfirst ▸ h'.header_eq))
  subst hheader
  have hname : d.name = d'.name := Option.some.inj (h.name_eq.symm.trans h'.name_eq)
  have hlast : d.last = d'.last := h.extent.unique (hfirst ▸ h'.extent)
  have hexcerpt : d.excerpt = d'.excerpt := by
    rw [h.excerpt_eq, h'.excerpt_eq, hfirst, hlast]
  cases d
  cases d'
  simp_all

/-- The definitions of a text are all that fit its lines. -/
theorem mem_definitions_iff {source : Text} {d : Definition} :
    d ∈ definitions source ↔ ∃ header, d.Fits (lines source) header := by
  rw [definitions, mem_definitionsFrom_iff]
  constructor
  · rintro ⟨i, header, name, hi, hname, rfl⟩
    rw [Nat.zero_add]
    exact ⟨header, .ofHeader hi hname⟩
  · rintro ⟨header, h⟩
    refine ⟨d.first, header, d.name, h.header_eq, h.name_eq, ?_⟩
    rw [Nat.zero_add]
    exact h.unique (.ofHeader h.header_eq h.name_eq) rfl

theorem definitions_pairwise (source : Text) :
    (definitions source).Pairwise fun a b => a.first < b.first :=
  definitionsFrom_pairwise 0 (lines source)

/-- A line starts a definition of a name if and only if it is a header with that
    name. -/
theorem exists_definition_iff {source : Text} {i : Nat} {name : Text} :
    (∃ d ∈ definitions source, d.first = i ∧ d.name = name) ↔
      headerAt? (lines source) i = some name := by
  rw [headerAt?_eq_some_iff]
  constructor
  · rintro ⟨d, hd, rfl, rfl⟩
    obtain ⟨header, h⟩ := mem_definitions_iff.1 hd
    exact ⟨header, h.header_eq, h.name_eq⟩
  · rintro ⟨header, hi, hname⟩
    exact ⟨.ofHeader i name header ((lines source).drop (i + 1)),
      mem_definitions_iff.2 ⟨header, .ofHeader hi hname⟩, rfl, rfl⟩

/-- The definitions of a text, exactly: they start in the lines that are headers,
    in increasing order and under the names there; each ends in the only line
    that it extends to; and its excerpt is what its first five lines, or all of
    them if there are fewer, say without the white space around them. -/
theorem definitions_exact (source : Text) :
    ((definitions source).map Definition.first).Pairwise (· < ·) ∧
    (∀ i name, (∃ d ∈ definitions source, d.first = i ∧ d.name = name) ↔
      ∃ l, (lines source)[i]? = some l ∧ headerName? l.code = some name) ∧
    ∀ d ∈ definitions source, ∃ header, (lines source)[d.first]? = some header ∧
      headerName? header.code = some d.name ∧
      (∀ e, IsExtent (lines source) header.indent d.first e ↔ e = d.last) ∧
      d.excerpt = Text.trim (List.intercalate ['\n']
        (((lines source).extract d.first (min (d.first + 5) (d.last + 1))).map Line.raw)) := by
  refine ⟨List.pairwise_map.2 (definitions_pairwise source), fun i name => ?_, fun d hd => ?_⟩
  · rw [exists_definition_iff, headerAt?_eq_some_iff]
  · obtain ⟨header, h⟩ := mem_definitions_iff.1 hd
    refine ⟨header, h.header_eq, h.name_eq, fun e => ⟨fun he => he.unique h.extent, ?_⟩,
      h.excerpt_eq⟩
    rintro rfl
    exact h.extent

end Source

end Homonym
