import Homonym.Proofs.Source.Extent
import Homonym.Proofs.Source.Lines
import Mathlib.Data.List.Forall2

/-!
# Texts put together

Two texts joined by a line feed have the lines of the first one followed by the
lines of the second one, unless a byte order mark at the beginning of the second
ends up in the middle. The definitions of the second text are the same below,
moved down by the lines of the first. A definition of the first text is the same,
too, if something bounds it there. Otherwise it *runs on*: it reaches the last
line of the first text, and it goes on to the first line of the second that
closes it, which depends on its own indentation alone (`Definition.RunsOn`).

* `lines_append_newline`: the lines of two texts joined by a line feed;
* `definitionsFrom_append`: what is found in lines that follow one another;
* `definitions_append_newline`: the definitions of two texts joined by a line
  feed.
-/

namespace Homonym

namespace Source

/-! ### Lines -/

/-- The mark in front of a text that goes on behind a line feed is that of the first
    part. -/
theorem dropMark_append_newline (s t : Text) :
    dropMark (s ++ '\n' :: t) = dropMark s ++ '\n' :: t := by
  cases s with
  | nil => rfl
  | cons c s =>
    rw [List.cons_append, dropMark, dropMark]
    split <;> rfl

/-- The lines of two texts joined by a line feed, where the second has no byte
    order mark. -/
theorem lines_append_newline {s t : Text} (ht : t.head? ≠ some '\uFEFF') :
    lines (s ++ '\n' :: t) = lines s ++ lines t := by
  rw [lines, dropMark_append_newline, List.splitOn_append_cons_self, List.map_append, lines, lines,
    dropMark_of_head?_ne ht]

/-! ### Definitions moved down -/

/-- A definition moved down by `n` lines. -/
def Definition.shift (n : Nat) (d : Definition) : Definition :=
  { d with first := d.first + n, last := d.last + n }

/-- A definition further down is the same definition, with its lines shifted. -/
theorem Definition.shift_ofHeader (m n : Nat) (name : Text) (header : Line)
    (following : List Line) :
    (Definition.ofHeader m name header following).shift n =
      .ofHeader (m + n) name header following := by
  simp only [Definition.shift, Definition.ofHeader, Nat.add_right_comm]

/-- The same lines, numbered from a line further down, have the same
    definitions, moved down. -/
theorem definitionsFrom_add (m n : Nat) (ls : List Line) :
    definitionsFrom (m + n) ls = (definitionsFrom m ls).map (Definition.shift n) := by
  induction ls generalizing m with
  | nil => rfl
  | cons header following ih =>
    cases hname : headerName? header.code with
    | none =>
      rw [definitionsFrom_cons_none hname, definitionsFrom_cons_none hname, Nat.add_right_comm, ih]
    | some name =>
      rw [definitionsFrom_cons_some hname, definitionsFrom_cons_some hname, List.map_cons,
        Definition.shift_ofHeader, Nat.add_right_comm, ih]

/-! ### Definitions that run on -/

/-- What becomes of a definition `d` with the given header, found in lines of
    which the last has the number `n - 1`, when the lines `ms` follow them. -/
structure Definition.RunsOn (n : Nat) (header : Line) (ms : List Line) (d d' : Definition) :
    Prop where
  /-- It has the same name. -/
  name_eq : d'.name = d.name
  /-- It starts in the same line. -/
  first_eq : d'.first = d.first
  /-- It ended in one of the lines. -/
  last_lt : d.last < n
  /-- If that was not the last of them, nothing changes. -/
  eq_of_bounded : d.last + 1 < n → d' = d
  /-- Otherwise it takes in the lines that follow, up to the first that closes
      it. -/
  last_eq : d.last + 1 = n → d'.last = d.last + ms.findIdx (Line.closes header.indent)
  /-- If the very first of them does, nothing changes. -/
  eq_of_closed : d.last + 1 = n → ms.findIdx (Line.closes header.indent) = 0 → d' = d

/-- The definition of a header depends on the lines that follow only through its
    body. -/
theorem Definition.ofHeader_congr (n : Nat) (name : Text) {header : Line}
    {following following' : List Line} (h : body header following = body header following') :
    Definition.ofHeader n name header following = .ofHeader n name header following' := by
  rw [Definition.ofHeader, Definition.ofHeader, Source.excerpt, Source.excerpt, h]

theorem Definition.last_ofHeader (n : Nat) (name : Text) (header : Line) (following : List Line) :
    (Definition.ofHeader n name header following).last = n + (body header following).length :=
  rfl

/-- The body of a header goes on into more lines only if it takes in all that
    came before them. -/
theorem body_append (header : Line) (following ms : List Line) :
    body header (following ++ ms) =
      if (body header following).length = following.length then following ++ body header ms
      else body header following :=
  List.takeWhile_append

/-- A body is a first part of the lines below its header. -/
theorem body_isPrefix (header : Line) (following : List Line) :
    body header following <+: following :=
  List.takeWhile_prefix _

/-- What becomes of the definition of a header when more lines follow. -/
theorem Definition.runsOn_ofHeader (n : Nat) (name : Text) (header : Line)
    (following ms : List Line) :
    (Definition.ofHeader n name header following).RunsOn (n + 1 + following.length) header ms
      (.ofHeader n name header (following ++ ms)) := by
  have hle := (body_isPrefix header following).length_le
  have happend := body_append header following ms
  refine ⟨rfl, rfl, ?_, ?_, ?_, ?_⟩ <;> rw [Definition.last_ofHeader]
  · omega
  · -- Something bounds the body, and it is the same with more lines behind.
    intro hlast
    rw [if_neg (by omega)] at happend
    exact Definition.ofHeader_congr n name happend
  · intro hlast
    rw [if_pos (by omega)] at happend
    rw [Definition.last_ofHeader, happend, List.length_append, ← length_body]
    omega
  · -- The body takes in all lines so far, and the first of the new ones closes it.
    intro hlast hclosed
    have hall : body header following = following :=
      (body_isPrefix header following).eq_of_length (by omega)
    have hnone : body header ms = [] := by
      rw [← List.length_eq_zero_iff, length_body, hclosed]
    rw [if_pos (by omega), hnone, List.append_nil] at happend
    exact Definition.ofHeader_congr n name (happend.trans hall.symm)

/-- What is found in lines that follow one another: what is found in the first
    of them, running on into the second, and what is found in the second. -/
theorem definitionsFrom_append (n : Nat) (ls ms : List Line) :
    ∃ ds, definitionsFrom n (ls ++ ms) = ds ++ definitionsFrom (n + ls.length) ms ∧
      List.Forall₂ (fun d d' => ∃ i header, d.first = n + i ∧ ls[i]? = some header ∧
        d.RunsOn (n + ls.length) header ms d') (definitionsFrom n ls) ds := by
  induction ls generalizing n with
  | nil => exact ⟨[], rfl, .nil⟩
  | cons header following ih =>
    obtain ⟨ds, hds, hruns⟩ := ih (n + 1)
    have hlen : n + 1 + following.length = n + (header :: following).length := by
      rw [List.length_cons]
      omega
    rw [hlen] at hds hruns
    have hruns' : List.Forall₂ (fun d d' => ∃ i header', d.first = n + i ∧
        (header :: following)[i]? = some header' ∧
        d.RunsOn (n + (header :: following).length) header' ms d')
        (definitionsFrom (n + 1) following) ds := by
      refine hruns.imp ?_
      rintro d d' ⟨i, header', hfirst, hi, hrun⟩
      exact ⟨i + 1, header', by omega, hi, hrun⟩
    cases hname : headerName? header.code with
    | none =>
      refine ⟨ds, ?_, ?_⟩
      · rw [List.cons_append, definitionsFrom_cons_none hname, hds]
      · rw [definitionsFrom_cons_none hname]
        exact hruns'
    | some name =>
      refine ⟨.ofHeader n name header (following ++ ms) :: ds, ?_, ?_⟩
      · rw [List.cons_append, definitionsFrom_cons_some hname, hds, List.cons_append]
      · rw [definitionsFrom_cons_some hname]
        refine .cons ⟨0, header, rfl, rfl, ?_⟩ hruns'
        rw [← hlen]
        exact Definition.runsOn_ofHeader n name header following ms

/-- The definitions of two texts joined by a line feed, where the second has no
    byte order mark: those of the first one, each running on into the second if
    it reaches the end of the first, and then those of the second one, moved
    down by as many lines as the first has. -/
theorem definitions_append_newline {s t : Text} (ht : t.head? ≠ some '\uFEFF') :
    (lines s).length = s.count '\n' + 1 ∧
    ∃ ds, definitions (s ++ '\n' :: t) =
        ds ++ (definitions t).map (Definition.shift (lines s).length) ∧
      List.Forall₂ (fun d d' => ∃ header, (lines s)[d.first]? = some header ∧
        d.RunsOn (lines s).length header (lines t) d') (definitions s) ds := by
  obtain ⟨ds, hds, hruns⟩ := definitionsFrom_append 0 (lines s) (lines t)
  refine ⟨length_lines s, ds, ?_, ?_⟩
  · rw [definitions, lines_append_newline ht, hds, definitionsFrom_add, definitions]
  · refine hruns.imp ?_
    rintro d d' ⟨i, header, hfirst, hi, hrun⟩
    rw [Nat.zero_add] at hfirst hrun
    exact ⟨header, hfirst ▸ hi, hrun⟩

/-- A text with one definition inside another, both of which reach its end. -/
def upperPart : Text :=
  "def a():\n    def b():".toList

/-- A text whose second line closes the inner definition of `upperPart` and
    whose third line closes the outer one. -/
def lowerPart : Text :=
  "    pass\n    def c():\nclass D:".toList

/-- The outer definition runs on over two lines and the inner one over one. -/
theorem parts_run_on : lowerPart.head? ≠ some '\uFEFF' ∧
    (definitions upperPart).map Definition.last = [1, 1] ∧
    ∃ ds, definitions (upperPart ++ '\n' :: lowerPart) =
        ds ++ (definitions lowerPart).map (Definition.shift 2) ∧
      ds.map Definition.last = [3, 2] := by
  have hmark : lowerPart.head? ≠ some '\uFEFF' := by decide
  have hupper : definitions upperPart = [⟨"a".toList, 0, 1, "def a():\n    def b():".toList⟩,
    ⟨"b".toList, 1, 1, "def b():".toList⟩] := by decide
  obtain ⟨-, ds, hds, hruns⟩ := definitions_append_newline (s := upperPart) hmark
  refine ⟨hmark, by rw [hupper]; rfl, ds, hds, ?_⟩
  rw [hupper] at hruns
  obtain ⟨a, as, ⟨header, hheader, ha⟩, hrest, rfl⟩ := List.forall₂_cons_left_iff.1 hruns
  obtain ⟨b, bs, ⟨header', hheader', hb⟩, hnil, rfl⟩ := List.forall₂_cons_left_iff.1 hrest
  obtain rfl := List.forall₂_nil_left_iff.1 hnil
  obtain rfl : ⟨"def a():".toList⟩ = header := Option.some.inj hheader
  obtain rfl : ⟨"    def b():".toList⟩ = header' := Option.some.inj hheader'
  have hlast : a.last = 3 := ha.last_eq (by decide)
  have hlast' : b.last = 2 := hb.last_eq (by decide)
  rw [List.map_cons, List.map_cons, List.map_nil, hlast, hlast']

end Source

end Homonym
