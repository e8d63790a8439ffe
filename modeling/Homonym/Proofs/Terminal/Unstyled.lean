import Homonym.Terminal.Sequence
import Mathlib.Data.List.TakeWhile

/-!
# Texts without style sequences

The style sequences of a text are taken out in one pass from left to right: a
sequence that starts where the pass has come to is left out as a whole, and any
other character is kept. Nothing is read twice, so what is left may well look
like a sequence, if other sequences were taken out of the middle of it.

All the characters of a sequence behind the first one are of a few kinds
(`isInner`). Any other character, an escape character among them, breaks off a
sequence that is not complete in front of it, so that what stands before such a
character and what stands from it on can be told apart (`unstyled_append_cons`).

* `Terminal.afterSequence?_eq_some_iff`: what a style sequence is;
* `Terminal.unstyled`: a text without its style sequences;
* `Terminal.unstyled_append_sequence`: a sequence put between two texts is taken
  out again, and keeps them apart.
-/

namespace Homonym

namespace Terminal

/-- Whether a character can stand in the parameters of a style sequence: a digit
    or a semicolon. -/
def isParameter (c : Char) : Bool :=
  c.isDigit || c == ';'

/-- What follows the style sequence that a text starts with, if it starts with
    one. -/
def afterSequence? : Text → Option Text
  | '\x1b' :: '[' :: rest =>
    match rest.dropWhile isParameter with
    | 'm' :: after => some after
    | _ => none
  | _ => none

/-- A style sequence is an escape character, an opening bracket, digits and
    semicolons, and an `m`. -/
theorem afterSequence?_eq_some_iff {t after : Text} : afterSequence? t = some after ↔
    ∃ ps : Text, (∀ c ∈ ps, isParameter c = true) ∧ t = sequenceOf ps ++ after := by
  constructor
  · intro h
    unfold afterSequence? at h
    split at h
    next rest =>
      split at h
      next after' hafter =>
        obtain rfl := Option.some.inj h
        refine ⟨rest.takeWhile isParameter, fun c hc => List.mem_takeWhile_imp hc, ?_⟩
        have hrest := List.takeWhile_append_dropWhile (p := isParameter) (l := rest)
        rw [hafter] at hrest
        simp only [sequenceOf, List.cons_append, List.append_assoc, List.nil_append, hrest]
      next => cases h
    next => cases h
  · rintro ⟨ps, hps, rfl⟩
    have hdrop : (ps ++ 'm' :: after).dropWhile isParameter = 'm' :: after := by
      rw [List.dropWhile_append_of_pos hps]
      rfl
    simp only [sequenceOf, List.cons_append, List.append_assoc, List.nil_append, afterSequence?,
      hdrop]

/-- What is behind a sequence is shorter than the text that it starts. -/
theorem length_lt_of_afterSequence? {t after : Text} (h : afterSequence? t = some after) :
    after.length < t.length := by
  obtain ⟨ps, -, rfl⟩ := afterSequence?_eq_some_iff.1 h
  simp only [sequenceOf, List.length_append, List.length_cons]
  omega

/-- A text without its style sequences, which are taken out in one pass from
    left to right. -/
def unstyled : Text → Text
  | [] => []
  | c :: rest =>
    match _h : afterSequence? (c :: rest) with
    | some after => unstyled after
    | none => c :: unstyled rest
termination_by t => t.length
decreasing_by
  · exact length_lt_of_afterSequence? _h
  · exact Nat.lt_succ_self _

theorem unstyled_nil : unstyled [] = [] := by
  rw [unstyled]

theorem unstyled_of_some {t after : Text} (h : afterSequence? t = some after) :
    unstyled t = unstyled after := by
  cases t with
  | nil => cases h
  | cons c rest =>
    rw [unstyled]
    split
    next after' h' =>
      rw [h, Option.some.injEq] at h'
      rw [h']
    next h' =>
      rw [h] at h'
      cases h'

theorem unstyled_of_none {c : Char} {rest : Text} (h : afterSequence? (c :: rest) = none) :
    unstyled (c :: rest) = c :: unstyled rest := by
  rw [unstyled]
  split
  next after' h' =>
    rw [h] at h'
    cases h'
  next => rfl

/-- A sequence that selects a rendition is taken away. -/
theorem unstyled_sequenceOf_append {ps : Text} (hps : ∀ c ∈ ps, isParameter c = true) (t : Text) :
    unstyled (sequenceOf ps ++ t) = unstyled t :=
  unstyled_of_some (afterSequence?_eq_some_iff.2 ⟨ps, hps, rfl⟩)

/-! ### Where a sequence breaks off -/

/-- Whether a character can stand in a style sequence behind its first
    character. -/
def isInner (c : Char) : Bool :=
  c == '[' || isParameter c || c == 'm'

/-- A sequence is the same whatever follows it. -/
theorem afterSequence?_append_of_some {t after : Text} (h : afterSequence? t = some after)
    (u : Text) : afterSequence? (t ++ u) = some (after ++ u) := by
  obtain ⟨ps, hps, rfl⟩ := afterSequence?_eq_some_iff.1 h
  exact afterSequence?_eq_some_iff.2 ⟨ps, hps, List.append_assoc _ _ _⟩

/-- A character that is no inner one completes no sequence. -/
theorem afterSequence?_append_of_none {b c : Char} (hc : isInner c = false) {t u : Text}
    (h : afterSequence? (b :: t) = none) : afterSequence? (b :: t ++ c :: u) = none := by
  rw [Option.eq_none_iff_forall_ne_some] at h ⊢
  intro after hafter
  obtain ⟨ps, hps, heq⟩ := afterSequence?_eq_some_iff.1 hafter
  rcases List.append_eq_append_iff.1 heq with ⟨rest, hseq, hrest⟩ | ⟨rest, ht, -⟩
  · -- The sequence ends behind `c`, which is then one of its inner characters.
    cases rest with
    | nil =>
      rw [List.append_nil] at hseq
      exact h [] (afterSequence?_eq_some_iff.2 ⟨ps, hps, by rw [List.append_nil, hseq]⟩)
    | cons d rest =>
      obtain ⟨rfl, -⟩ := List.cons.inj hrest
      have hinner : '[' :: (ps ++ ['m']) = t ++ c :: rest := (List.cons.inj hseq).2
      have hmem : c ∈ '[' :: (ps ++ ['m']) := by
        rw [hinner]
        exact List.mem_append_cons_self
      rw [List.mem_cons, List.mem_append, List.mem_singleton] at hmem
      rcases hmem with rfl | hmem | rfl
      · cases hc
      · simp [isInner, hps c hmem] at hc
      · cases hc
  · -- The sequence ends before `c`, so it is one of the text in front of it.
    exact h rest (afterSequence?_eq_some_iff.2 ⟨ps, hps, ht⟩)

/-- What stands in front of a character that is no inner one does not depend on
    what stands from it on. -/
theorem unstyled_append_cons {c : Char} (hc : isInner c = false) (t u : Text) :
    unstyled (t ++ c :: u) = unstyled t ++ unstyled (c :: u) := by
  fun_induction unstyled t with
  | case1 => rfl
  | case2 b rest after h ih => rw [unstyled_of_some (afterSequence?_append_of_some h _), ih]
  | case3 b rest h ih =>
    have hnone := afterSequence?_append_of_none hc (u := u) h
    rw [List.cons_append] at hnone ⊢
    rw [unstyled_of_none hnone, ih, List.cons_append]

/-- A style sequence in a text is taken out wherever it stands, and separates
    what stands on its two sides. -/
theorem unstyled_append_sequence (t : Text) {ps : Text} (hps : ∀ c ∈ ps, isParameter c = true)
    (u : Text) : unstyled (t ++ (sequenceOf ps ++ u)) = unstyled t ++ unstyled u := by
  have hcons : sequenceOf ps ++ u = '\x1b' :: ('[' :: ps ++ ['m'] ++ u) := rfl
  rw [hcons, unstyled_append_cons rfl, ← hcons, unstyled_sequenceOf_append hps]

/-! ### Texts without escape characters -/

theorem afterSequence?_of_ne {c : Char} (hc : c ≠ '\x1b') (t : Text) :
    afterSequence? (c :: t) = none := by
  rw [Option.eq_none_iff_forall_ne_some]
  intro after hafter
  obtain ⟨ps, -, heq⟩ := afterSequence?_eq_some_iff.1 hafter
  exact hc (List.cons.inj heq).1

theorem unstyled_cons_of_ne {c : Char} (hc : c ≠ '\x1b') (t : Text) :
    unstyled (c :: t) = c :: unstyled t :=
  unstyled_of_none (afterSequence?_of_ne hc t)

/-- Without an escape character there is nothing to take out. -/
theorem unstyled_append_of_not_mem {t : Text} (h : '\x1b' ∉ t) (u : Text) :
    unstyled (t ++ u) = t ++ unstyled u := by
  induction t with
  | nil => rfl
  | cons c t ih =>
    rw [List.mem_cons, not_or] at h
    rw [List.cons_append, unstyled_cons_of_ne (Ne.symm h.1), ih h.2, List.cons_append]

theorem unstyled_of_not_mem {t : Text} (h : '\x1b' ∉ t) : unstyled t = t := by
  have happend := unstyled_append_of_not_mem h []
  rwa [List.append_nil, unstyled_nil, List.append_nil] at happend

end Terminal

end Homonym
