import Homonym.Proofs.Text.Trim
import Homonym.Source.Line
import Mathlib.Data.List.Infix

/-!
# What the lines of a text are

Cutting a text into lines loses nothing: joined by line feeds again, the lines
are the text, without the byte order mark it may start with. And taking a line
apart loses nothing: it is its code with white space on either side
(`Line.ConsistsOf`), where the white space in front is as long as the
indentation. Only in a line without code there is no telling the two sides
apart; there all of the line is indentation.

* `dropMark_cases`: the text with and without its byte order mark;
* `length_lines`: there is one line more than line feeds;
* `lines_exact`: what the lines of a text are, and what each of them consists of.
-/

namespace Homonym

namespace Source

/-! ### The byte order mark -/

/-- Either the text starts with a byte order mark, and that is all that is
    dropped, or it does not, and nothing is. -/
theorem dropMark_cases (source : Text) : source = '\uFEFF' :: dropMark source ∨
    source.head? ≠ some '\uFEFF' ∧ source = dropMark source := by
  cases source with
  | nil => exact .inr ⟨by simp, rfl⟩
  | cons c rest =>
    rw [dropMark]
    split
    next hc => exact .inl (by rw [hc])
    next hc => exact .inr ⟨fun hhead => hc (Option.some.inj hhead), rfl⟩

theorem dropMark_of_head?_ne {t : Text} (h : t.head? ≠ some '\uFEFF') : dropMark t = t := by
  rcases dropMark_cases t with hmark | ⟨-, heq⟩
  · rw [hmark] at h
    exact absurd rfl h
  · exact heq.symm

theorem dropMark_isSuffix (source : Text) : dropMark source <:+ source := by
  rcases dropMark_cases source with hmark | ⟨-, heq⟩
  · exact ⟨['\uFEFF'], hmark.symm⟩
  · exact heq ▸ List.suffix_rfl

theorem count_newline_dropMark (s : Text) : (dropMark s).count '\n' = s.count '\n' := by
  rcases dropMark_cases s with hmark | ⟨-, heq⟩
  · rw [hmark, List.count_cons_of_ne (by decide), ← hmark]
  · rw [← heq]

/-! ### Lines -/

theorem length_splitOn (a : Char) (t : Text) : (t.splitOn a).length = t.count a + 1 := by
  induction t with
  | nil => rfl
  | cons c t ih =>
    rw [List.splitOn_cons_eq_if_modifyHead, List.count_cons]
    split
    · rw [List.length_cons, ih]
    · rw [List.length_modifyHead, ih]

/-- There is one line more than line feeds. -/
theorem length_lines (source : Text) : (lines source).length = source.count '\n' + 1 := by
  rw [lines, List.length_map, length_splitOn, count_newline_dropMark]

theorem length_lines_le (source : Text) : (lines source).length ≤ source.length + 1 := by
  rw [length_lines]
  exact Nat.succ_le_succ List.count_le_length

theorem map_raw_mk (ls : List Text) : (ls.map Line.mk).map Line.raw = ls := by
  rw [List.map_map]
  exact List.map_id ls

/-- The lines of a text, put together again. -/
theorem intercalate_lines (source : Text) :
    List.intercalate ['\n'] ((lines source).map Line.raw) = dropMark source := by
  rw [lines, map_raw_mk, List.intercalate_splitOn]

theorem newline_not_mem_raw {source : Text} {l : Line} (h : l ∈ lines source) : '\n' ∉ l.raw := by
  obtain ⟨piece, hpiece, rfl⟩ := List.mem_map.1 h
  exact not_mem_of_mem_splitOn hpiece

/-- No line is longer than the text. -/
theorem length_raw_le {source : Text} {l : Line} (h : l ∈ lines source) :
    l.raw.length ≤ source.length := by
  have hpiece : [l.raw] <:+: (lines source).map Line.raw :=
    (List.singleton_infix_iff _ _).2 (List.mem_map_of_mem h)
  have hraw : List.intercalate ['\n'] [l.raw] <:+: dropMark source :=
    intercalate_lines source ▸ intercalate_isInfix hpiece
  rw [List.intercalate_singleton] at hraw
  exact (hraw.trans (dropMark_isSuffix source).isInfix).length_le

/-! ### The parts of a line -/

theorem Line.indent_le (l : Line) : l.indent ≤ l.raw.length :=
  (List.takeWhile_prefix isSpace).length_le

/-- A line consists of its code, something blank in front of it and something
    blank behind it. -/
structure Line.ConsistsOf (l : Line) (left right : Text) : Prop where
  /-- The line is these three parts put together. -/
  raw_eq : l.raw = left ++ (l.code ++ right)
  /-- There is only white space in front of the code. -/
  left_isBlank : left.IsBlank
  /-- There is only white space behind the code. -/
  right_isBlank : right.IsBlank
  /-- The code neither starts nor ends with white space. -/
  code_isTrimmed : l.code.IsTrimmed
  /-- The indentation is what is in front of the code, or all of a line without
      code. -/
  indent_eq : l.indent = if l.code = [] then l.raw.length else left.length

/-- Every line consists of its code and white space around it. -/
theorem Line.exists_consistsOf (l : Line) : ∃ left right, l.ConsistsOf left right := by
  obtain ⟨right, hright, hraw⟩ := Text.exists_trim l.raw
  refine ⟨l.raw.takeWhile isSpace, right, hraw, Text.isBlank_takeWhile _, hright,
    Text.isTrimmed_trim _, ?_⟩
  split
  next hcode => exact Text.indent_of_trim_eq_nil hcode
  next => rfl

/-- The lines of a text, exactly: joined by line feeds they are the text without
    the byte order mark it may start with; none of them has a line feed in it;
    there is one more of them than line feeds; and each consists of its code with
    white space on either side, of which that in front is its indentation. -/
theorem lines_exact (source : Text) :
    (source = '\uFEFF' :: List.intercalate ['\n'] ((lines source).map Line.raw) ∨
      source.head? ≠ some '\uFEFF' ∧
        source = List.intercalate ['\n'] ((lines source).map Line.raw)) ∧
    (∀ l ∈ lines source, '\n' ∉ l.raw) ∧
    (lines source).length = source.count '\n' + 1 ∧
    ∀ l ∈ lines source, ∃ left right, l.ConsistsOf left right := by
  rw [intercalate_lines]
  exact ⟨dropMark_cases source, fun l hl => newline_not_mem_raw hl, length_lines source,
    fun l _ => l.exists_consistsOf⟩

/-- Only the first byte order mark is dropped, and a carriage return stays. -/
example : (lines "\uFEFF\uFEFFa\r\n\n \u3000".toList).map Line.raw =
    ["\uFEFFa\r".toList, [], " \u3000".toList] := by decide

end Source

end Homonym
