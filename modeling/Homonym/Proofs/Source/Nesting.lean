import Homonym.Proofs.Source.Extent

/-!
# Definitions inside one another

Two definitions of a text, the first of which starts above the other, are one
after the other, or one inside the other, or else they *cross*: the second
starts inside the first and ends below it. Indentation would rule crossings
out if every header bounded the definitions at its indentation or further
right. But the word `def` bounds only with a space after it, while any white
space makes it a header. So a header with a tab, say, goes unnoticed by the
definitions above it, and only there can definitions cross.

* `ends_before_header_iff`: when a definition ends above a header that stands at
  or left of its own;
* `nested_unless_tabbed`: how two definitions can lie to each other.
-/

namespace Homonym

namespace Source

/-- A line that bounds a definition bounds those further right, too. -/
theorem Line.IsBoundary.mono {l : Line} {m n : Nat} (h : l.IsBoundary m) (hmn : m ≤ n) :
    l.IsBoundary n :=
  ⟨h.1, Nat.le_trans h.2.1 hmn, h.2.2⟩

/-- A header bounds the definitions at its indentation or further right if a
    space follows the word `def`, and otherwise none. -/
theorem Line.isBoundary_iff_of_headerName? {l : Line} {name : Text} {indent : Nat}
    (h : headerName? l.code = some name) :
    l.IsBoundary indent ↔ l.indent ≤ indent ∧ "def ".toList <+: l.code := by
  refine ⟨fun ⟨_, hindent, hcode⟩ => ⟨hindent, hcode.resolve_right fun hclass => ?_⟩,
    fun ⟨hindent, hdef⟩ => ⟨Line.isIdle_of_headerName? h, hindent, .inl hdef⟩⟩
  obtain ⟨c, rest, hcode, -⟩ := exists_code_of_headerName? h
  rw [hcode] at hclass
  simp at hclass

/-- A header without a space after the word `def` has other white space
    there. -/
theorem exists_gap_of_not_isPrefix {code name : Text} (h : headerName? code = some name)
    (hdef : ¬"def ".toList <+: code) :
    ∃ c rest, code = "def".toList ++ c :: rest ∧ isSpace c = true ∧ c ≠ ' ' := by
  obtain ⟨c, rest, rfl, hc⟩ := exists_code_of_headerName? h
  refine ⟨c, rest, rfl, hc, ?_⟩
  rintro rfl
  exact hdef ⟨rest, rfl⟩

/-! ### Extents -/

/-- A definition ends above a line if and only if something bounds it after its
    header, in that line or above. -/
theorem IsExtent.last_lt_iff {ls : List Line} {indent first last j : Nat}
    (h : IsExtent ls indent first last) (hj : j < ls.length) :
    last < j ↔ ∃ i l, first < i ∧ i ≤ j ∧ ls[i]? = some l ∧ l.IsBoundary indent := by
  constructor
  · intro hlast
    rcases h.stop with hend | ⟨l, hl, hb⟩
    · omega
    · exact ⟨last + 1, l, Nat.lt_succ_of_le h.first_le, hlast, hl, hb⟩
  · rintro ⟨i, l, hi, hij, hl, hb⟩
    by_contra hlast
    exact h.inside i l hi (by omega) hl hb

/-- Where two extents cross, the one that starts inside the other is of a header
    further left: what stops the other one does not stop it. -/
theorem IsExtent.lt_of_crossing {ls : List Line} {m n i j e e' : Nat} (h : IsExtent ls m i e)
    (h' : IsExtent ls n j e') (hje : j ≤ e) (he : e < e') : n < m := by
  by_contra hmn
  rw [Nat.not_lt] at hmn
  have hlt := h'.last_lt
  rcases h.stop with hend | ⟨l, hl, hb⟩
  · omega
  · exact h'.inside (e + 1) l (Nat.lt_succ_of_le hje) he hl (hb.mono hmn)

/-! ### Definitions -/

/-- The definition that starts with a header fits the lines with it. -/
theorem fits_of_mem_definitions {source : Text} {d : Definition} {header : Line}
    (hd : d ∈ definitions source) (hheader : (lines source)[d.first]? = some header) :
    d.Fits (lines source) header := by
  obtain ⟨header', h⟩ := mem_definitions_iff.1 hd
  obtain rfl : header' = header := Option.some.inj (h.header_eq.symm.trans hheader)
  exact h

/-- The definition `b` starts inside `a` and ends below it. -/
def Definition.Crosses (a b : Definition) : Prop :=
  a.first < b.first ∧ b.first ≤ a.last ∧ a.last < b.last

instance (a b : Definition) : Decidable (a.Crosses b) :=
  inferInstanceAs (Decidable (_ ∧ _))

/-- A text with a tab in its second header. The first definition goes on over
    that line, to the third header, which the second definition contains. -/
def tabbed : Text :=
  "    def a():\ndef\tb():\n    def c():".toList

/-- The lines of the text. -/
theorem lines_tabbed : lines tabbed =
    [⟨"    def a():".toList⟩, ⟨"def\tb():".toList⟩, ⟨"    def c():".toList⟩] := by
  decide

/-- The definitions of the text: the second one starts in the last line of the first
    one and goes beyond it. -/
theorem definitions_tabbed : definitions tabbed =
    [⟨"a".toList, 0, 1, "def a():\ndef\tb():".toList⟩,
     ⟨"b".toList, 1, 2, "def\tb():\n    def c():".toList⟩,
     ⟨"c".toList, 2, 2, "def c():".toList⟩] := by
  rw [definitions, lines_tabbed]
  decide

section

variable {source : Text} {a b : Definition} {header header' : Line}

/-- A definition that starts inside another one, at its indentation or further
    left, has no space after the word `def`. -/
theorem not_isPrefix_of_inside (ha : a.Fits (lines source) header)
    (hb : b.Fits (lines source) header') (hfirst : a.first < b.first) (hinside : b.first ≤ a.last)
    (hindent : header'.indent ≤ header.indent) : ¬"def ".toList <+: header'.code := fun hdef =>
  ha.extent.inside b.first header' hfirst hinside hb.header_eq
    ((Line.isBoundary_iff_of_headerName? hb.name_eq).2 ⟨hindent, hdef⟩)

/-- Of two definitions, where the header of the second stands at the indentation
    of the first or further left, the first ends above the second if and only if
    a space follows the word `def` in that header, or another line between the
    two headers already bounds the first. -/
theorem ends_before_header_iff (ha : a ∈ definitions source) (hb : b ∈ definitions source)
    (hfirst : a.first < b.first) (hheader : (lines source)[a.first]? = some header)
    (hheader' : (lines source)[b.first]? = some header') (hindent : header'.indent ≤ header.indent) :
    a.last < b.first ↔ "def ".toList <+: header'.code ∨
      ∃ i l, a.first < i ∧ i < b.first ∧ (lines source)[i]? = some l ∧
        l.IsBoundary header.indent := by
  have ha := fits_of_mem_definitions ha hheader
  have hb := fits_of_mem_definitions hb hheader'
  have hlt : b.first < (lines source).length := (List.getElem?_eq_some_iff.1 hheader').1
  rw [ha.extent.last_lt_iff hlt]
  constructor
  · rintro ⟨i, l, hi, hij, hl, hbound⟩
    -- What bounds the first definition is the second header or stands above it.
    rcases Nat.lt_or_eq_of_le hij with hij | rfl
    · exact .inr ⟨i, l, hi, hij, hl, hbound⟩
    · obtain rfl : header' = l := Option.some.inj (hheader'.symm.trans hl)
      exact .inl ((Line.isBoundary_iff_of_headerName? hb.name_eq).1 hbound).2
  · rintro (hdef | ⟨i, l, hi, hij, hl, hbound⟩)
    · exact ⟨b.first, header', hfirst, Nat.le_refl _, hheader',
        (Line.isBoundary_iff_of_headerName? hb.name_eq).2 ⟨hindent, hdef⟩⟩
    · exact ⟨i, l, hi, Nat.le_of_lt hij, hl, hbound⟩

/-- The third header has a space, so the first definition ends above it. -/
theorem tabbed_ends_before_space : ∃ a ∈ definitions tabbed, ∃ b ∈ definitions tabbed,
    ∃ header header', a.first < b.first ∧ (lines tabbed)[a.first]? = some header ∧
      (lines tabbed)[b.first]? = some header' ∧ header'.indent ≤ header.indent ∧
      "def ".toList <+: header'.code ∧ a.last < b.first := by
  have ha : (⟨"a".toList, 0, 1, "def a():\ndef\tb():".toList⟩ : Definition) ∈
      definitions tabbed := by
    simp [definitions_tabbed]
  have hb : (⟨"c".toList, 2, 2, "def c():".toList⟩ : Definition) ∈ definitions tabbed := by
    simp [definitions_tabbed]
  have hheader : (lines tabbed)[0]? = some ⟨"    def a():".toList⟩ := by
    simp [lines_tabbed]
  have hheader' : (lines tabbed)[2]? = some ⟨"    def c():".toList⟩ := by
    simp [lines_tabbed]
  have hdef : "def ".toList <+: (Line.mk "    def c():".toList).code := by decide
  exact ⟨_, ha, _, hb, _, _, by decide, hheader, hheader', by decide, hdef,
    (ends_before_header_iff ha hb (by decide) hheader hheader' (by decide)).2 (.inl hdef)⟩

/-- Not every header ends the definitions at its indentation or further right:
    the second one of `tabbed` does not. -/
theorem not_ends_before_every_header :
    ¬∀ (source : Text) (a b : Definition) (header header' : Line),
      a ∈ definitions source → b ∈ definitions source → a.first < b.first →
      (lines source)[a.first]? = some header → (lines source)[b.first]? = some header' →
      header'.indent ≤ header.indent → a.last < b.first := by
  intro h
  have hlast := h tabbed ⟨"a".toList, 0, 1, "def a():\ndef\tb():".toList⟩
    ⟨"b".toList, 1, 2, "def\tb():\n    def c():".toList⟩ ⟨"    def a():".toList⟩
    ⟨"def\tb():".toList⟩
    (by simp [definitions_tabbed]) (by simp [definitions_tabbed]) (by decide)
    (by simp [lines_tabbed]) (by simp [lines_tabbed]) (by decide)
  exact absurd hlast (by decide)

/-- Two definitions, the first of which starts above the second, are one after
    the other, or the second is inside the first, or they cross. They cross only
    where the second header stands further left and has white space other than a
    space after the word `def`; and a second header with a space there that is
    inside the first definition stands further right. -/
theorem nested_unless_tabbed (ha : a ∈ definitions source) (hb : b ∈ definitions source)
    (hfirst : a.first < b.first) (hheader : (lines source)[a.first]? = some header)
    (hheader' : (lines source)[b.first]? = some header') :
    (a.last < b.first ∨ b.last ≤ a.last ∨ a.Crosses b) ∧
    (a.Crosses b → header'.indent < header.indent ∧
      ∃ c rest, header'.code = "def".toList ++ c :: rest ∧ isSpace c = true ∧ c ≠ ' ') ∧
    (b.first ≤ a.last → "def ".toList <+: header'.code → header.indent < header'.indent) := by
  have ha := fits_of_mem_definitions ha hheader
  have hb := fits_of_mem_definitions hb hheader'
  refine ⟨?_, ?_, ?_⟩
  · by_cases hinside : b.first ≤ a.last
    · rcases Nat.lt_or_ge a.last b.last with hlast | hlast
      · exact .inr (.inr ⟨hfirst, hinside, hlast⟩)
      · exact .inr (.inl hlast)
    · exact .inl (Nat.lt_of_not_le hinside)
  · rintro ⟨-, hinside, hlast⟩
    have hindent := ha.extent.lt_of_crossing hb.extent hinside hlast
    exact ⟨hindent, exists_gap_of_not_isPrefix hb.name_eq
      (not_isPrefix_of_inside ha hb hfirst hinside (Nat.le_of_lt hindent))⟩
  · intro hinside hdef
    by_contra hindent
    exact not_isPrefix_of_inside ha hb hfirst hinside (Nat.le_of_not_lt hindent) hdef

/-- The first two definitions of `tabbed` cross. -/
theorem tabbed_crosses : ∃ a ∈ definitions tabbed, ∃ b ∈ definitions tabbed,
    ∃ header header', a.first < b.first ∧ (lines tabbed)[a.first]? = some header ∧
      (lines tabbed)[b.first]? = some header' ∧ a.Crosses b ∧ header'.indent < header.indent ∧
      ∃ c rest, header'.code = "def".toList ++ c :: rest ∧ isSpace c = true ∧ c ≠ ' ' := by
  have ha : (⟨"a".toList, 0, 1, "def a():\ndef\tb():".toList⟩ : Definition) ∈
      definitions tabbed := by
    simp [definitions_tabbed]
  have hb : (⟨"b".toList, 1, 2, "def\tb():\n    def c():".toList⟩ : Definition) ∈
      definitions tabbed := by simp [definitions_tabbed]
  have hheader : (lines tabbed)[0]? = some ⟨"    def a():".toList⟩ := by
    simp [lines_tabbed]
  have hheader' : (lines tabbed)[1]? = some ⟨"def\tb():".toList⟩ := by
    simp [lines_tabbed]
  exact ⟨_, ha, _, hb, _, _, by decide, hheader, hheader', by decide,
    (nested_unless_tabbed ha hb (by decide) hheader hheader').2.1 (by decide)⟩

end

end Source

end Homonym
