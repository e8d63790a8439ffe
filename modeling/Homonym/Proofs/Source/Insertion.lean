import Homonym.Proofs.Source.Concatenation
import Homonym.Proofs.Source.Layout
import Homonym.Proofs.Text.Cut
import Mathlib.Data.List.InsertIdx

/-!
# A blank line or a comment put in

A blank line or a comment put into a text starts no definition and ends none. So
the definitions stay the same, and only their line numbers move: a definition
that starts at or below the new line moves down with it, and one that the new
line falls into, or stands right behind, becomes one line longer
(`Definition.Moved`). The place right behind a definition matters: there the new
line belongs to the definition, one place further down it does not.

* `lines_insertLine`: the lines of a text with a line put in;
* `definitionsFrom_insertIdx`: what becomes of the definitions in some lines;
* `definitions_insertLine`: the definitions and clashes of a text with a blank
  line or a comment put in.
-/

namespace Homonym

namespace Source

/-- The text `source` with `c` put in as line `p`. -/
def insertLine (p : Nat) (c source : Text) : Text :=
  List.intercalate ['\n'] ((source.splitOn '\n').insertIdx p c)

/-! ### Lines -/

/-- A text starts with the character, other than a line feed, that its first line
    starts with. -/
theorem head?_intercalate_cons {a : Char} (ha : a ≠ '\n') (l : Text) (ls : List Text) :
    (List.intercalate ['\n'] (l :: ls)).head? = some a ↔ l.head? = some a := by
  cases ls with
  | nil => rw [List.intercalate_singleton]
  | cons l' ls =>
    rw [List.intercalate_cons_cons, List.append_assoc]
    cases l with
    | nil => simp [ha.symm]
    | cons => rfl

/-- A blank line or a comment does not start with a byte order mark, which is no
    white space. -/
theorem head?_ne_mark_of_isIdle {c : Text} (h : (Line.mk c).isIdle = true) :
    c.head? ≠ some '\uFEFF' := by
  intro hmark
  obtain ⟨rest, rfl⟩ := List.head?_eq_some_iff.1 hmark
  rw [Line.isIdle, Line.code, Text.trim_cons (by decide)] at h
  simp at h

/-- The lines of a text without a byte order mark, with a line put in that has
    none, either. -/
theorem lines_insertLine {source c : Text} (p : Nat) (hmark : source.head? ≠ some '\uFEFF')
    (hc : '\n' ∉ c) (hcmark : c.head? ≠ some '\uFEFF') :
    lines (insertLine p c source) = (lines source).insertIdx p ⟨c⟩ := by
  obtain ⟨first, pieces, hpieces⟩ := List.exists_cons_of_ne_nil (List.splitOn_ne_nil '\n' source)
  have hfirst : first.head? ≠ some '\uFEFF' := by
    rw [Ne, ← head?_intercalate_cons (by decide) first pieces, ← hpieces, List.intercalate_splitOn]
    exact hmark
  have hfree : ∀ l ∈ (source.splitOn '\n').insertIdx p c, '\n' ∉ l := by
    intro l hl
    rcases List.eq_or_mem_of_mem_insertIdx hl with rfl | hl
    · exact hc
    · exact not_mem_of_mem_splitOn hl
  -- The first line is the new one or the old one, and neither starts with a mark.
  obtain ⟨first', pieces', hpieces', hfirst'⟩ : ∃ first' pieces',
      (source.splitOn '\n').insertIdx p c = first' :: pieces' ∧ first'.head? ≠ some '\uFEFF' := by
    rw [hpieces]
    cases p with
    | zero => exact ⟨c, first :: pieces, List.insertIdx_zero, hcmark⟩
    | succ p => exact ⟨first, pieces.insertIdx p c, List.insertIdx_succ_cons, hfirst⟩
  have hnomark : (insertLine p c source).head? ≠ some '\uFEFF' := by
    rw [insertLine, hpieces', Ne, head?_intercalate_cons (by decide)]
    exact hfirst'
  rw [lines, lines, dropMark_of_head?_ne hnomark, dropMark_of_head?_ne hmark, insertLine,
    List.splitOn_intercalate _ hfree (by rw [hpieces']; exact List.cons_ne_nil _ _),
    List.map_insertIdx]

/-! ### Definitions -/

/-- What becomes of a definition when a blank line or a comment is put in as
    line `p`. -/
structure Definition.Moved (p : Nat) (d d' : Definition) : Prop where
  /-- It has the same name. -/
  name_eq : d'.name = d.name
  /-- It starts one line further down if it started in line `p` or below. -/
  first_eq : d'.first = if p ≤ d.first then d.first + 1 else d.first
  /-- It ends one line further down if line `p` was in it, above it or right
      behind it. -/
  last_eq : d'.last = if p ≤ d.last + 1 then d.last + 1 else d.last

/-- A search goes on past a line that it is not for. -/
theorem findIdx_insertIdx {f : Line → Bool} {l : Line} (hl : f l = false) (p : Nat)
    (ls : List Line) : (ls.insertIdx p l).findIdx f =
      if p ≤ ls.findIdx f then ls.findIdx f + 1 else ls.findIdx f := by
  induction ls generalizing p with
  | nil =>
    cases p with
    | zero => simp [List.findIdx_cons, hl]
    | succ p => simp
  | cons m ls ih =>
    cases p with
    | zero => simp [List.findIdx_cons, hl]
    | succ p =>
      rw [List.insertIdx_succ_cons, List.findIdx_cons, List.findIdx_cons, ih]
      cases f m with
      | true => simp
      | false => simp only [cond_false, Nat.add_le_add_iff_right]; split <;> rfl

theorem Line.closes_of_isIdle {l : Line} (h : l.isIdle = true) (indent : Nat) :
    l.closes indent = false := by
  rw [Line.closes, h]
  rfl

/-- What becomes of the definition of a header when a blank line or a comment is
    put in below it. -/
theorem Definition.moved_ofHeader {l : Line} (hl : l.isIdle = true) (n p : Nat) (name : Text)
    (header : Line) (following : List Line) :
    (Definition.ofHeader n name header following).Moved (n + 1 + p)
      (.ofHeader n name header (following.insertIdx p l)) := by
  refine ⟨rfl, ?_, ?_⟩
  · rw [if_neg (by simp only [Definition.ofHeader]; omega)]
    rfl
  · have hsearch := findIdx_insertIdx (Line.closes_of_isIdle hl header.indent) p following
    rw [← length_body, ← length_body] at hsearch
    rw [Definition.last_ofHeader, Definition.last_ofHeader, hsearch]
    split <;> split <;> omega

/-- A blank line or a comment put into some lines, of which the first has the
    number `n`, moves the definitions in them. -/
theorem definitionsFrom_insertIdx {l : Line} (hl : l.isIdle = true) (n : Nat) {p : Nat}
    {ls : List Line} (hp : p ≤ ls.length) :
    List.Forall₂ (Definition.Moved (n + p)) (definitionsFrom n ls)
      (definitionsFrom n (ls.insertIdx p l)) := by
  induction p generalizing n ls with
  | zero =>
    -- All definitions start below the new line, so they all move down.
    rw [List.insertIdx_zero, definitionsFrom_cons_none (Line.headerName?_of_isIdle hl),
      definitionsFrom_add, List.forall₂_map_right_iff, List.forall₂_same]
    intro d hd
    obtain ⟨i, header, name, -, -, rfl⟩ := mem_definitionsFrom_iff.1 hd
    refine ⟨rfl, (if_pos (Nat.le_add_right n i)).symm, (if_pos ?_).symm⟩
    rw [Definition.last_ofHeader]
    omega
  | succ p ih =>
    obtain ⟨header, following, rfl⟩ := List.exists_cons_of_length_pos (Nat.zero_lt_of_lt hp)
    have hfollowing : p ≤ following.length := Nat.le_of_succ_le_succ hp
    have hrest := ih (n + 1) hfollowing
    rw [Nat.add_assoc, Nat.add_comm 1 p] at hrest
    rw [List.insertIdx_succ_cons]
    cases hname : headerName? header.code with
    | none =>
      rw [definitionsFrom_cons_none hname, definitionsFrom_cons_none hname]
      exact hrest
    | some name =>
      rw [definitionsFrom_cons_some hname, definitionsFrom_cons_some hname]
      refine .cons ?_ hrest
      have hmoved := Definition.moved_ofHeader hl n p name header following
      rwa [Nat.add_assoc, Nat.add_comm 1 p] at hmoved

/-- A blank line or a comment put in as line `p` of a text leaves the definitions
    as they are, except that their lines move, and the clashes between them. -/
theorem definitions_insertLine {source c : Text} {p : Nat} (hmark : source.head? ≠ some '\uFEFF')
    (hp : p ≤ (lines source).length) (hc : '\n' ∉ c) (hidle : (Line.mk c).isIdle = true) :
    lines (insertLine p c source) = (lines source).insertIdx p ⟨c⟩ ∧
    List.Forall₂ (Definition.Moved p) (definitions source)
      (definitions (insertLine p c source)) ∧
    List.Forall₂ (Clash.Corresponds (Definition.Moved p)) (clashes source)
      (clashes (insertLine p c source)) := by
  have hlines := lines_insertLine p hmark hc (head?_ne_mark_of_isIdle hidle)
  have hmoved : List.Forall₂ (Definition.Moved p) (definitions source)
      (definitions (insertLine p c source)) := by
    have hfrom := definitionsFrom_insertIdx hidle 0 hp
    rwa [Nat.zero_add, ← hlines] at hfrom
  exact ⟨hlines, hmoved, clashesAmong_corresponds (fun d d' h => h.name_eq.symm) hmoved⟩

/-- A text with two definitions, the first of two lines and the second of one. -/
def uncommented : Text :=
  "def a():\n    pass\ndef a():".toList

/-- A comment right behind the first definition makes it longer and moves the
    second one down. -/
theorem uncommented_moves : uncommented.head? ≠ some '\uFEFF' ∧
    2 ≤ (lines uncommented).length ∧ '\n' ∉ "# b".toList ∧
    (Line.mk "# b".toList).isIdle = true ∧
    (definitions uncommented).map (fun d => (d.first, d.last)) = [(0, 1), (2, 2)] ∧
    (definitions (insertLine 2 "# b".toList uncommented)).map (fun d => (d.first, d.last)) =
      [(0, 2), (3, 3)] := by
  have hmark : uncommented.head? ≠ some '\uFEFF' := by decide
  have hlines : 2 ≤ (lines uncommented).length := by decide
  have hc : '\n' ∉ "# b".toList := by decide
  have hidle : (Line.mk "# b".toList).isIdle = true := by decide
  have hold : definitions uncommented = [⟨"a".toList, 0, 1, "def a():\n    pass".toList⟩,
    ⟨"a".toList, 2, 2, "def a():".toList⟩] := by decide
  obtain ⟨-, hmoved, -⟩ := definitions_insertLine hmark hlines hc hidle
  rw [hold] at hmoved
  obtain ⟨d, ds, hd, hrest, hds⟩ := List.forall₂_cons_left_iff.1 hmoved
  obtain ⟨d', ds', hd', hnil, rfl⟩ := List.forall₂_cons_left_iff.1 hrest
  obtain rfl := List.forall₂_nil_left_iff.1 hnil
  refine ⟨hmark, hlines, hc, hidle, by rw [hold]; rfl, ?_⟩
  rw [hds, List.map_cons, List.map_singleton, hd.first_eq, hd.last_eq, hd'.first_eq, hd'.last_eq]
  rfl

end Source

end Homonym
