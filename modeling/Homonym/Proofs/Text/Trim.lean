import Homonym.Proofs.Text.Cut
import Homonym.Text.Space
import Mathlib.Data.List.DropRight

/-!
# White space around a text

Trimming takes away what is *blank* at both ends of a text: it leaves the part
between the first and the last character that is no white space. So a text is
its trimmed form with something blank on either side (`exists_trim`), and this
is the only way to write it so (`trim_eq_of_append`).

* `trim_append`, `trim_append_left`: what is blank around a text does not matter;
* `indent_append`: what is blank behind a text does not change its indentation,
  unless it is blank itself;
* `trim_flatMap`: trimming and rewriting white space by white space.
-/

namespace Homonym

namespace Text

/-- A text of nothing but white space. -/
def IsBlank (t : Text) : Prop :=
  ∀ c ∈ t, isSpace c = true

instance : DecidablePred IsBlank :=
  List.decidableBAll _

/-- A text that neither starts nor ends with white space. -/
structure IsTrimmed (t : Text) : Prop where
  head : ∀ c ∈ t.head?, isSpace c = false
  last : ∀ c ∈ t.getLast?, isSpace c = false

theorem trimRight_eq (t : Text) : trimRight t = t.rdropWhile isSpace :=
  rfl

/-- What is blank in front of a text does not matter. -/
theorem trim_append_left {gap : Text} (h : gap.IsBlank) (t : Text) :
    trim (gap ++ t) = trim t := by
  rw [trim, List.dropWhile_append_of_pos h, trim]

theorem trimRight_append {gap : Text} (h : gap.IsBlank) (t : Text) :
    trimRight (t ++ gap) = trimRight t := by
  have hreverse : ∀ c ∈ gap.reverse, isSpace c = true := fun c hc => h c (List.mem_reverse.1 hc)
  rw [trimRight, List.reverse_append, List.dropWhile_append_of_pos hreverse, trimRight]

/-- What is blank behind a text does not matter. -/
theorem trim_append {gap : Text} (h : gap.IsBlank) (t : Text) : trim (t ++ gap) = trim t := by
  rw [trim, trim, List.dropWhile_append]
  split
  next hnil =>
    rw [List.isEmpty_iff.1 hnil, List.dropWhile_eq_nil_iff.2 h]
  next => exact trimRight_append h _

/-- White space at the end is dropped behind a character that is none. -/
theorem trim_cons {a : Char} (h : isSpace a = false) (t : Text) :
    trim (a :: t) = a :: trimRight t := by
  have hkeep : (t.reverse ++ [a]).dropWhile isSpace = t.reverse.dropWhile isSpace ++ [a] := by
    rw [List.dropWhile_append]
    split
    next hnil =>
      rw [List.isEmpty_iff.1 hnil, List.dropWhile_cons_of_neg (by simp [h]), List.nil_append]
    next => rfl
  rw [trim, List.dropWhile_cons_of_neg (by simp [h]), trimRight, List.reverse_cons, hkeep,
    List.reverse_append, trimRight]
  rfl

theorem isBlank_takeWhile (t : Text) : IsBlank (t.takeWhile isSpace) :=
  fun _ hc => List.mem_takeWhile_imp hc

/-- Trimming takes away nothing but white space. -/
theorem exists_trimRight (t : Text) : ∃ right, IsBlank right ∧ t = trimRight t ++ right :=
  ⟨t.rtakeWhile isSpace, fun _ hc => List.mem_rtakeWhile_imp hc,
    (List.rdropWhile_append_rtakeWhile ..).symm⟩

/-- A text is its trimmed form with its indentation in front and something blank
    behind. -/
theorem exists_trim (t : Text) :
    ∃ right, IsBlank right ∧ t = t.takeWhile isSpace ++ (t.trim ++ right) := by
  obtain ⟨right, hright, ht⟩ := exists_trimRight (t.dropWhile isSpace)
  exact ⟨right, hright, by rw [trim, ← ht, List.takeWhile_append_dropWhile]⟩

theorem trim_subset (t : Text) : t.trim ⊆ t := by
  obtain ⟨right, -, ht⟩ := exists_trim t
  intro c hc
  rw [ht, List.mem_append, List.mem_append]
  exact .inr (.inl hc)

theorem isTrimmed_trim (t : Text) : t.trim.IsTrimmed where
  head c hc := by
    -- What is left starts as it does before its end is trimmed.
    obtain ⟨rest, hrest⟩ := List.head?_eq_some_iff.1 hc
    obtain ⟨right, hright⟩ : t.trim <+: t.dropWhile isSpace := List.rdropWhile_prefix isSpace _
    rw [hrest, List.cons_append] at hright
    have hhead := List.head?_dropWhile_not isSpace t
    rwa [← hright] at hhead
  last c hc := by
    have hne : t.trim ≠ [] := List.ne_nil_of_mem (List.mem_of_getLast? hc)
    have hlast := List.rdropWhile_last_not isSpace (t.dropWhile isSpace) hne
    rw [Option.mem_def, List.getLast?_eq_some_getLast hne] at hc
    rw [← Option.some.inj hc]
    exact Bool.eq_false_iff.2 hlast

theorem IsTrimmed.trim_eq {t : Text} (h : t.IsTrimmed) : t.trim = t := by
  have hleft : t.dropWhile isSpace = t := by
    cases t with
    | nil => rfl
    | cons c t => exact List.dropWhile_cons_of_neg (Bool.eq_false_iff.1 (h.head c rfl))
  rw [trim, hleft, trimRight_eq, List.rdropWhile_eq_self_iff]
  intro hne
  exact Bool.eq_false_iff.1 (h.last _ (List.getLast?_eq_some_getLast hne))

/-- What has something blank on either side of it is the trimmed form. -/
theorem trim_eq_of_append {left t right : Text} (hleft : left.IsBlank) (ht : t.IsTrimmed)
    (hright : right.IsBlank) : trim (left ++ (t ++ right)) = t := by
  rw [trim_append_left hleft, trim_append hright, ht.trim_eq]

/-- A text that is not blank goes on behind its indentation with a character
    that is no white space. -/
theorem exists_of_trim_ne_nil {t : Text} (h : t.trim ≠ []) :
    ∃ left c rest, IsBlank left ∧ isSpace c = false ∧ t = left ++ c :: rest := by
  obtain ⟨right, -, ht⟩ := exists_trim t
  obtain ⟨c, rest, hrest⟩ := List.exists_cons_of_ne_nil h
  refine ⟨t.takeWhile isSpace, c, rest ++ right, isBlank_takeWhile t,
    (isTrimmed_trim t).head c (by rw [hrest]; rfl), ?_⟩
  rw [← List.cons_append, ← hrest, ← ht]

/-- The indentation of a line is the white space in front of its first other
    character. -/
theorem indent_append_cons {left : Text} (hleft : left.IsBlank) {c : Char}
    (hc : isSpace c = false) (rest : Text) : indent (left ++ c :: rest) = left.length := by
  rw [indent, takeWhile_append_cons hleft hc]

/-- What stands behind a text does not change its indentation, unless the text
    is blank. -/
theorem indent_append {t : Text} (h : t.trim ≠ []) (gap : Text) :
    indent (t ++ gap) = indent t := by
  obtain ⟨left, c, rest, hleft, hc, rfl⟩ := exists_of_trim_ne_nil h
  rw [List.append_assoc, List.cons_append, indent_append_cons hleft hc, indent_append_cons hleft hc]

/-- A blank text is all indentation. -/
theorem indent_of_trim_eq_nil {t : Text} (h : t.trim = []) : indent t = t.length := by
  obtain ⟨right, hright, ht⟩ := exists_trim t
  rw [h, List.nil_append] at ht
  have hblank : t.IsBlank := by
    rw [ht]
    exact List.forall_mem_append.2 ⟨isBlank_takeWhile t, hright⟩
  rw [indent, List.takeWhile_eq_self_iff.2 hblank]

/-! ### White space rewritten -/

section

variable {f : Char → Text} (hspace : ∀ c, isSpace c = true → (f c).IsBlank)
  (hother : ∀ c, isSpace c = false → f c = [c])

include hspace in
theorem IsBlank.flatMap {t : Text} (h : t.IsBlank) : IsBlank (t.flatMap f) := by
  intro d hd
  obtain ⟨c, hc, hd⟩ := List.mem_flatMap.1 hd
  exact hspace c (h c hc) d hd

include hother in
theorem IsTrimmed.flatMap {t : Text} (h : t.IsTrimmed) : IsTrimmed (t.flatMap f) where
  head d hd := by
    cases t with
    | nil => cases hd
    | cons c t =>
      have hc := h.head c rfl
      rw [List.flatMap_cons, hother c hc] at hd
      exact Option.some.inj hd ▸ hc
  last d hd := by
    cases t using List.reverseRecOn with
    | nil => cases hd
    | append_singleton t c =>
      have hc := h.last c List.getLast?_concat
      rw [List.flatMap_append, List.flatMap_singleton, hother c hc, Option.mem_def,
        List.getLast?_concat] at hd
      exact Option.some.inj hd ▸ hc

include hspace hother in
/-- Rewriting each character of white space by something blank, and no other,
    goes with trimming. -/
theorem trim_flatMap (t : Text) : trim (t.flatMap f) = t.trim.flatMap f := by
  obtain ⟨right, hright, ht⟩ := exists_trim t
  calc trim (t.flatMap f)
      = trim ((t.takeWhile isSpace).flatMap f ++ (t.trim.flatMap f ++ right.flatMap f)) := by
        rw [← List.flatMap_append, ← List.flatMap_append, ← ht]
    _ = t.trim.flatMap f :=
        trim_eq_of_append ((isBlank_takeWhile t).flatMap hspace)
          ((isTrimmed_trim t).flatMap hother) (hright.flatMap hspace)

end

end Text

end Homonym
