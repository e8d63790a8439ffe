import Homonym.Proofs.Source.Excerpt

/-!
# Carriage returns at the ends of lines

A text may end its lines in a line feed alone or in a carriage return and a line
feed (`Text.crlf`). Lines are cut at line feeds, so the carriage return stays on
the line: white space behind it, which changes neither its code nor, unless it
is blank, its indentation. The definitions are therefore the same, and so are
their excerpts, except that these have the carriage returns in them, too. The one
behind the last line of an excerpt, if that is not the last line of the text, is
trimmed away.

* `lines_crlf`: the lines of a text with carriage returns;
* `excerpt_addReturns`: an excerpt taken from them;
* `definitions_crlf`: the definitions of a text with carriage returns.
-/

namespace Homonym

/-- A text with a carriage return in front of every line feed. -/
def Text.crlf (t : Text) : Text :=
  t.flatMap fun c => if c = '\n' then ['\r', '\n'] else [c]

namespace Text

theorem crlf_append (s t : Text) : crlf (s ++ t) = s.crlf ++ t.crlf :=
  List.flatMap_append

theorem crlf_cons_of_ne {c : Char} (h : c ≠ '\n') (t : Text) : crlf (c :: t) = c :: t.crlf := by
  rw [crlf, List.flatMap_cons, if_neg h]
  rfl

/-- A text of one line stays as it is. -/
theorem crlf_of_not_mem {t : Text} (h : '\n' ∉ t) : t.crlf = t := by
  induction t with
  | nil => rfl
  | cons c t ih =>
    rw [List.mem_cons, not_or] at h
    rw [crlf_cons_of_ne (Ne.symm h.1), ih h.2]

/-- A carriage return is put in the white space around a text, or inside it, but
    not between the two. -/
theorem trim_crlf (t : Text) : t.crlf.trim = t.trim.crlf := by
  refine trim_flatMap (fun c hc => ?_) (fun c hc => ?_) t
  · split
    · decide
    · exact List.forall_mem_singleton.2 hc
  · rw [if_neg]
    rintro rfl
    cases hc

end Text

namespace Source

/-! ### Lines -/

/-- The lines with a carriage return behind each of them but the last. -/
def addReturns : List Text → List Text
  | [] => []
  | [l] => [l]
  | l :: l' :: ls => (l ++ ['\r']) :: addReturns (l' :: ls)

/-- A line has a carriage return behind it, or nothing if it is the last. -/
theorem addReturns_cons (l : Text) (ls : List Text) :
    ∃ gap : Text, gap.IsBlank ∧ addReturns (l :: ls) = (l ++ gap) :: addReturns ls := by
  cases ls with
  | nil => exact ⟨[], by decide, by rw [addReturns, List.append_nil, addReturns]⟩
  | cons l' ls => exact ⟨['\r'], by decide, by rw [addReturns]⟩

/-- A carriage return at the end of a line is white space behind it. -/
theorem forall₂_padded_addReturns (ls : List Text) :
    List.Forall₂ Line.Padded (ls.map Line.mk) ((addReturns ls).map Line.mk) := by
  induction ls with
  | nil => exact .nil
  | cons l ls ih =>
    obtain ⟨gap, hgap, heq⟩ := addReturns_cons l ls
    rw [heq]
    exact .cons ⟨gap, hgap, rfl⟩ ih

/-- The first lines with carriage returns, put together, are the first lines put
    together, with carriage returns; and one more at the end, unless these are
    all the lines. -/
theorem intercalate_take_addReturns {ls : List Text} (hls : ∀ l ∈ ls, '\n' ∉ l) (m : Nat) :
    List.intercalate ['\n'] ((addReturns ls).take (m + 1)) =
      Text.crlf (List.intercalate ['\n'] (ls.take (m + 1))) ++
        if m + 1 < ls.length then ['\r'] else [] := by
  fun_induction addReturns ls generalizing m with
  | case1 => rfl
  | case2 l =>
    rw [List.forall_mem_singleton] at hls
    rw [List.take_succ_cons, List.take_nil, List.intercalate_singleton, Text.crlf_of_not_mem hls,
      if_neg (by simp), List.append_nil]
  | case3 l l' ls ih =>
    rw [List.forall_mem_cons] at hls
    rw [List.take_succ_cons, List.take_succ_cons]
    cases m with
    | zero =>
      rw [List.take_zero, List.take_zero, List.intercalate_singleton, List.intercalate_singleton,
        Text.crlf_of_not_mem hls.1, if_pos (by simp)]
    | succ m =>
      obtain ⟨gap, -, heq⟩ := addReturns_cons l' ls
      have hne : (addReturns (l' :: ls)).take (m + 1) ≠ [] := by
        rw [heq, List.take_succ_cons]
        exact List.cons_ne_nil _ _
      have hne' : (l' :: ls).take (m + 1) ≠ [] := List.cons_ne_nil _ _
      rw [List.intercalate_cons_of_ne_nil hne, List.intercalate_cons_of_ne_nil hne', ih hls.2 m,
        Text.crlf_append, Text.crlf_append, Text.crlf_of_not_mem hls.1]
      simp only [List.length_cons, Nat.add_lt_add_iff_right, List.append_assoc]
      rfl

/-- A text with carriage returns is cut into lines with carriage returns. -/
theorem splitOn_crlf (t : Text) : t.crlf.splitOn '\n' = addReturns (t.splitOn '\n') := by
  induction t with
  | nil => rfl
  | cons c t ih =>
    obtain ⟨first, pieces, hpieces⟩ := List.exists_cons_of_ne_nil (List.splitOn_ne_nil '\n' t)
    by_cases hc : c = '\n'
    · have hcrlf : Text.crlf ('\n' :: t) = '\r' :: '\n' :: Text.crlf t := rfl
      rw [hc, hcrlf, splitOn_cons_of_ne (by decide) (splitOn_cons_self '\n' (Text.crlf t)),
        splitOn_cons_self, ih, hpieces]
      rfl
    · rw [Text.crlf_cons_of_ne hc, splitOn_cons_of_ne hc hpieces]
      rw [hpieces] at ih
      cases pieces with
      | nil => exact splitOn_cons_of_ne hc ih
      | cons l ls => exact splitOn_cons_of_ne hc ih

theorem dropMark_crlf (source : Text) : dropMark source.crlf = (dropMark source).crlf := by
  cases source with
  | nil => rfl
  | cons c rest =>
    by_cases hc : c = '\n'
    · rw [hc]
      rfl
    · rw [Text.crlf_cons_of_ne hc, dropMark, dropMark]
      split
      next => rfl
      next => rw [Text.crlf_cons_of_ne hc]

/-- The lines of the text with carriage returns are those of the text, each but the
    last with one behind it. -/
theorem lines_crlf (source : Text) :
    lines source.crlf = (addReturns ((dropMark source).splitOn '\n')).map Line.mk := by
  rw [lines, dropMark_crlf, splitOn_crlf]

/-! ### Definitions -/

/-- A definition with carriage returns in its excerpt. -/
def Definition.crlf (d : Definition) : Definition :=
  { d with excerpt := d.excerpt.crlf }

/-- An excerpt is taken from the first lines of what follows, header included. -/
theorem excerpt_eq_take (header : Line) (following : List Line) :
    excerpt header following = Text.trim (List.intercalate ['\n']
      (((header :: following).map Line.raw).take (min 4 (body header following).length + 1))) := by
  have hbody := List.prefix_iff_eq_take.1 (body_isPrefix header following)
  rw [excerpt, hbody, excerptLines, List.take_succ_cons, List.take_take, ← List.take_succ_cons,
    List.map_take, ← hbody]

section

variable {l gap : Text} {ls : List Text}

/-- Carriage returns leave the length of a body as it is. -/
theorem length_body_addReturns (hl : (Line.mk l).isIdle = false) (hgap : gap.IsBlank) :
    (body ⟨l ++ gap⟩ ((addReturns ls).map Line.mk)).length =
      (body ⟨l⟩ (ls.map Line.mk)).length := by
  have hpadded : (Line.mk l).Padded ⟨l ++ gap⟩ := ⟨gap, hgap, rfl⟩
  rw [length_body, length_body, hpadded.indent_eq hl]
  exact (findIdx_eq_of_forall₂ ((forall₂_padded_addReturns ls).imp fun m n hmn =>
    (hmn.closes_eq _).symm)).symm

/-- The excerpt taken from lines with carriage returns is the one taken from the
    lines, with carriage returns. -/
theorem excerpt_addReturns (hl : (Line.mk l).isIdle = false) (hgap : gap.IsBlank)
    (heq : addReturns (l :: ls) = (l ++ gap) :: addReturns ls) (hfree : ∀ m ∈ l :: ls, '\n' ∉ m) :
    excerpt ⟨l ++ gap⟩ ((addReturns ls).map Line.mk) = (excerpt ⟨l⟩ (ls.map Line.mk)).crlf := by
  have hreturn : Text.IsBlank (if min 4 (body ⟨l⟩ (ls.map Line.mk)).length + 1 < (l :: ls).length
      then ['\r'] else []) := by
    split <;> decide
  rw [excerpt_eq_take, excerpt_eq_take, length_body_addReturns hl hgap, List.map_cons,
    List.map_cons, map_raw_mk, map_raw_mk, ← heq, intercalate_take_addReturns hfree,
    Text.trim_append hreturn, Text.trim_crlf]

end

/-- What is found in lines with carriage returns. -/
theorem definitionsFrom_addReturns {ls : List Text} (hfree : ∀ l ∈ ls, '\n' ∉ l) (n : Nat) :
    definitionsFrom n ((addReturns ls).map Line.mk) =
      (definitionsFrom n (ls.map Line.mk)).map Definition.crlf := by
  induction ls generalizing n with
  | nil => rfl
  | cons l ls ih =>
    obtain ⟨gap, hgap, heq⟩ := addReturns_cons l ls
    have hcode : (Line.mk (l ++ gap)).code = (Line.mk l).code :=
      Line.Padded.code_eq ⟨gap, hgap, rfl⟩
    have hrest := ih (fun m hm => hfree m (List.mem_cons_of_mem _ hm)) (n + 1)
    rw [heq, List.map_cons, List.map_cons]
    cases hname : headerName? (Line.mk l).code with
    | none =>
      rw [definitionsFrom_cons_none hname, definitionsFrom_cons_none (hcode ▸ hname), hrest]
    | some name =>
      have hl := Line.isIdle_of_headerName? hname
      rw [definitionsFrom_cons_some hname, definitionsFrom_cons_some (hcode ▸ hname), List.map_cons,
        hrest, Definition.ofHeader, length_body_addReturns hl hgap,
        excerpt_addReturns hl hgap heq hfree]
      rfl

/-- The definitions of a text with carriage returns are those of the text, with
    carriage returns in their excerpts. -/
theorem definitions_crlf (source : Text) :
    definitions source.crlf = (definitions source).map Definition.crlf := by
  rw [definitions, lines_crlf, definitionsFrom_addReturns fun _ => not_mem_of_mem_splitOn]
  rfl

end Source

end Homonym
