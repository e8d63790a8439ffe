import Homonym.Text.Basic
import Mathlib.Data.List.Forall2

/-!
# Where a list is cut

What is written piece by piece can be read back if one sees where the pieces
end. Here are the ways in which one does: at the first element of a kind that
the pieces do not have (`append_cut`), at the elements that end each piece
(`eq_of_flatMap_concat_eq`), and at those that start each piece
(`forall₂_of_flatMap_eq`).
-/

namespace Homonym

section

variable {α β β' : Type} {p : α → Bool}

/-- Two lists that go on with an element of a kind, and have none of the kind
    before, are cut there in one way only. -/
theorem append_cut {as bs rest rest' : List α} (has : ∀ a ∈ as, p a = false)
    (hbs : ∀ b ∈ bs, p b = false) (hrest : ∀ a ∈ rest.head?, p a = true)
    (hrest' : ∀ a ∈ rest'.head?, p a = true) (h : as ++ rest = bs ++ rest') :
    as = bs ∧ rest = rest' := by
  induction as generalizing bs with
  | nil =>
    cases bs with
    | nil => exact ⟨rfl, h⟩
    | cons b bs =>
      rw [List.nil_append] at h
      have hb := hrest b (by rw [h]; rfl)
      rw [hbs b List.mem_cons_self] at hb
      cases hb
  | cons a as ih =>
    cases bs with
    | nil =>
      rw [List.nil_append] at h
      have ha := hrest' a (by rw [← h]; rfl)
      rw [has a List.mem_cons_self] at ha
      cases ha
    | cons b bs =>
      obtain ⟨rfl, htail⟩ := List.cons.inj h
      obtain ⟨rfl, hrests⟩ := ih (fun a ha => has a (List.mem_cons_of_mem _ ha))
        (fun b hb => hbs b (List.mem_cons_of_mem _ hb)) htail
      exact ⟨rfl, hrests⟩

/-- The same, where the element that both lists go on with is known. -/
theorem append_cons_cut {c : α} (hc : p c = true) {as bs rest rest' : List α}
    (has : ∀ a ∈ as, p a = false) (hbs : ∀ b ∈ bs, p b = false)
    (h : as ++ c :: rest = bs ++ c :: rest') : as = bs ∧ rest = rest' := by
  have hhead : ∀ r : List α, ∀ a ∈ (c :: r).head?, p a = true := fun r a ha =>
    Option.some.inj ha ▸ hc
  obtain ⟨heq, hrests⟩ := append_cut has hbs (hhead rest) (hhead rest') h
  exact ⟨heq, (List.cons.inj hrests).2⟩

/-- A run of elements of a kind is taken up to the first one of another. -/
theorem takeWhile_append_cons {run : List α} (hrun : ∀ a ∈ run, p a = true) {c : α}
    (hc : p c = false) (rest : List α) : (run ++ c :: rest).takeWhile p = run := by
  rw [List.takeWhile_append_of_pos hrun, List.takeWhile_cons_of_neg (Bool.eq_false_iff.1 hc),
    List.append_nil]

/-- What is left behind a run of elements of a kind starts with the first one of
    another. -/
theorem dropWhile_append_cons {run : List α} (hrun : ∀ a ∈ run, p a = true) {c : α}
    (hc : p c = false) (rest : List α) : (run ++ c :: rest).dropWhile p = c :: rest := by
  rw [List.dropWhile_append_of_pos hrun, List.dropWhile_cons_of_neg (Bool.eq_false_iff.1 hc)]

/-- Pieces that all end in an element that none of them has before are read back
    from the whole. -/
theorem eq_of_flatMap_concat_eq {c : α} (hc : p c = true) {ls ls' : List (List α)}
    (hls : ∀ l ∈ ls, ∀ a ∈ l, p a = false) (hls' : ∀ l ∈ ls', ∀ a ∈ l, p a = false)
    (h : ls.flatMap (· ++ [c]) = ls'.flatMap (· ++ [c])) : ls = ls' := by
  induction ls generalizing ls' with
  | nil =>
    cases ls' with
    | nil => rfl
    | cons l' ls' => simp at h
  | cons l ls ih =>
    cases ls' with
    | nil => simp at h
    | cons l' ls' =>
      rw [List.forall_mem_cons] at hls hls'
      rw [List.flatMap_cons, List.flatMap_cons, List.append_assoc, List.append_assoc,
        List.singleton_append, List.singleton_append] at h
      obtain ⟨hl, hrest⟩ := append_cons_cut hc hls.1 hls'.1 h
      rw [hl, ih hls.2 hls'.2 hrest]

/-- A piece that starts with an element of a kind and has no other one. -/
def IsBlock (p : α → Bool) (l : List α) : Prop :=
  ∃ first rest, l = first :: rest ∧ p first = true ∧ ∀ a ∈ rest, p a = false

/-- Blocks one after the other start with the start of a block. -/
theorem head?_flatMap_of_isBlock {f : β → List α} (hf : ∀ b, IsBlock p (f b)) (bs : List β) :
    ∀ a ∈ (bs.flatMap f).head?, p a = true := by
  cases bs with
  | nil => exact fun a ha => absurd ha (by simp)
  | cons b bs =>
    obtain ⟨first, rest, hb, hfirst, -⟩ := hf b
    rw [List.flatMap_cons, hb]
    exact fun a ha => Option.some.inj ha ▸ hfirst

/-- Blocks are read back from the whole, one by one. -/
theorem forall₂_of_flatMap_eq {f : β → List α} {g : β' → List α} (hf : ∀ b, IsBlock p (f b))
    (hg : ∀ b, IsBlock p (g b)) {bs : List β} {bs' : List β'} (h : bs.flatMap f = bs'.flatMap g) :
    List.Forall₂ (fun b b' => f b = g b') bs bs' := by
  induction bs generalizing bs' with
  | nil =>
    cases bs' with
    | nil => exact .nil
    | cons b' bs' =>
      obtain ⟨first, rest, hb', -⟩ := hg b'
      simp [hb'] at h
  | cons b bs ih =>
    cases bs' with
    | nil =>
      obtain ⟨first, rest, hb, -⟩ := hf b
      simp [hb] at h
    | cons b' bs' =>
      obtain ⟨first, rest, hb, -, hrest⟩ := hf b
      obtain ⟨first', rest', hb', -, hrest'⟩ := hg b'
      rw [List.flatMap_cons, List.flatMap_cons, hb, hb', List.cons_append, List.cons_append] at h
      obtain ⟨hfirst, htail⟩ := List.cons.inj h
      -- The block ends where the next one starts.
      obtain ⟨hsame, hbs⟩ := append_cut hrest hrest' (head?_flatMap_of_isBlock hf bs)
        (head?_flatMap_of_isBlock hg bs') htail
      exact .cons (by rw [hb, hb', hfirst, hsame]) (ih hbs)

end

/-! ### Pieces put together -/

section

variable {α : Type}

theorem subset_intercalate {sep l : List α} {ls : List (List α)} (h : l ∈ ls) :
    l ⊆ sep.intercalate ls := by
  induction ls with
  | nil => exact absurd h List.not_mem_nil
  | cons l' ls ih =>
    cases ls with
    | nil =>
      rw [List.mem_singleton.1 h, List.intercalate_singleton]
      exact List.Subset.refl _
    | cons l'' ls =>
      rw [List.intercalate_cons_cons]
      rcases List.mem_cons.1 h with rfl | h
      · exact List.subset_append_of_subset_left _ (List.subset_append_left _ _)
      · exact List.subset_append_of_subset_right _ (ih h)

theorem mem_of_mem_intercalate {sep : List α} {ls : List (List α)} {a : α}
    (h : a ∈ sep.intercalate ls) : a ∈ sep ∨ ∃ l ∈ ls, a ∈ l := by
  induction ls with
  | nil => exact absurd h List.not_mem_nil
  | cons l ls ih =>
    cases ls with
    | nil => exact .inr ⟨l, List.mem_cons_self, by rwa [List.intercalate_singleton] at h⟩
    | cons l' ls =>
      rw [List.intercalate_cons_cons, List.mem_append, List.mem_append] at h
      rcases h with (h | h) | h
      · exact .inr ⟨l, List.mem_cons_self, h⟩
      · exact .inl h
      · exact (ih h).imp id fun ⟨l'', hl'', ha⟩ => ⟨l'', List.mem_cons_of_mem _ hl'', ha⟩

/-- The elements of a piece are elements of what was cut. -/
theorem subset_of_mem_splitOn [BEq α] [LawfulBEq α] {a : α} {t piece : List α}
    (h : piece ∈ t.splitOn a) : piece ⊆ t := by
  have hsub : piece ⊆ [a].intercalate (t.splitOn a) := subset_intercalate h
  rwa [List.intercalate_splitOn] at hsub

/-- No piece has the element that was cut at. -/
theorem not_mem_of_mem_splitOn [BEq α] [LawfulBEq α] {a : α} {t piece : List α}
    (h : piece ∈ t.splitOn a) : a ∉ piece := by
  induction t generalizing piece with
  | nil =>
    rw [List.splitOn_nil, List.mem_singleton] at h
    rw [h]
    exact List.not_mem_nil
  | cons c t ih =>
    obtain ⟨first, pieces, hpieces⟩ := List.exists_cons_of_ne_nil (List.splitOn_ne_nil a t)
    rw [hpieces] at ih
    rw [List.splitOn_cons_eq_if_modifyHead, hpieces] at h
    split at h
    next =>
      rcases List.mem_cons.1 h with rfl | h
      · exact List.not_mem_nil
      · exact ih h
    next hc =>
      -- The element joins the first piece, and it is not the one to cut at.
      rw [List.modifyHead_cons] at h
      rcases List.mem_cons.1 h with rfl | h
      · rw [List.mem_cons, not_or]
        exact ⟨fun heq => hc (beq_iff_eq.2 heq.symm), ih List.mem_cons_self⟩
      · exact ih (List.mem_cons_of_mem _ h)

/-- The first pieces, put together, are a beginning of all of them. -/
theorem intercalate_isPrefix {sep : List α} {ls ls' : List (List α)} (h : ls <+: ls') :
    sep.intercalate ls <+: sep.intercalate ls' := by
  induction ls generalizing ls' with
  | nil => exact List.nil_prefix
  | cons l ls ih =>
    obtain ⟨more, rfl⟩ := h
    rw [List.cons_append]
    cases ls with
    | nil =>
      rw [List.intercalate_singleton]
      cases more with
      | nil =>
        simp only [List.append_nil, List.intercalate_singleton, List.prefix_rfl]
      | cons l' more =>
        rw [List.nil_append, List.intercalate_cons_cons, List.append_assoc]
        exact List.prefix_append _ _
    | cons l' ls =>
      rw [List.cons_append, List.intercalate_cons_cons, List.intercalate_cons_cons,
        List.prefix_append_right_inj]
      exact ih ⟨more, rfl⟩

/-- The last pieces, put together, are an end of all of them. -/
theorem intercalate_isSuffix {sep : List α} {ls ls' : List (List α)} (h : ls <:+ ls') :
    sep.intercalate ls <:+ sep.intercalate ls' := by
  obtain ⟨before, rfl⟩ := h
  by_cases hls : ls = []
  · rw [hls]
    exact List.nil_suffix
  induction before with
  | nil => exact List.suffix_rfl
  | cons l before ih =>
    have hne : before ++ ls ≠ [] := List.append_ne_nil_of_right_ne_nil _ hls
    rw [List.cons_append, List.intercalate_cons_of_ne_nil hne]
    exact ih.trans (List.suffix_append _ _)

/-- Pieces that are next to each other are joined in the joined text, too. -/
theorem intercalate_isInfix {sep : List α} {ls ls' : List (List α)} (h : ls <:+: ls') :
    sep.intercalate ls <:+: sep.intercalate ls' := by
  obtain ⟨before, after, rfl⟩ := h
  refine (intercalate_isPrefix (List.prefix_append ls after)).isInfix.trans
    (intercalate_isSuffix ?_).isInfix
  rw [List.append_assoc]
  exact List.suffix_append _ _

end

/-! ### Texts cut at a character -/

theorem splitOn_cons_self (a : Char) (t : Text) : (a :: t).splitOn a = [] :: t.splitOn a :=
  List.splitOn_append_cons_self [] t

/-- A character that is not cut at joins the first piece. -/
theorem splitOn_cons_of_ne {a c : Char} (hc : c ≠ a) {t first : Text} {pieces : List Text}
    (ht : t.splitOn a = first :: pieces) : (c :: t).splitOn a = (c :: first) :: pieces := by
  rw [List.splitOn_cons_eq_if_modifyHead, if_neg (by simpa using hc), ht, List.modifyHead_cons]

/-- A text that is not cut joins the first piece of what follows it. -/
theorem splitOn_append_of_not_mem {a : Char} {left : Text} (hleft : a ∉ left) {t first : Text}
    {pieces : List Text} (ht : t.splitOn a = first :: pieces) :
    (left ++ t).splitOn a = (left ++ first) :: pieces := by
  induction left with
  | nil => exact ht
  | cons c left ih =>
    rw [List.mem_cons, not_or] at hleft
    exact splitOn_cons_of_ne (Ne.symm hleft.1) (ih hleft.2)

/-- A line is a piece between two line feeds, or what is left of one. -/
theorem exists_piece_of_mem_lines {t line : Text} (h : line ∈ Text.lines t) :
    ∃ piece ∈ t.splitOn '\n', line ⊆ piece := by
  rw [Text.lines, List.mem_append] at h
  rcases h with h | h
  · obtain ⟨piece, hpiece, rfl⟩ := List.mem_map.1 h
    refine ⟨piece, (List.dropLast_sublist _).subset hpiece, ?_⟩
    rw [Text.dropReturn]
    split
    · exact (List.dropLast_sublist _).subset
    · exact List.Subset.refl _
  · have hpiece := Option.mem_toList.1 (List.mem_of_mem_filter h)
    exact ⟨line, List.mem_of_getLast? hpiece, List.Subset.refl _⟩

/-- There is no line feed in a line. -/
theorem newline_not_mem_of_mem_lines {t line : Text} (h : line ∈ Text.lines t) : '\n' ∉ line := by
  obtain ⟨piece, hpiece, hsub⟩ := exists_piece_of_mem_lines h
  exact fun hmem => not_mem_of_mem_splitOn hpiece (hsub hmem)

/-- The characters of a line are characters of the text. -/
theorem subset_of_mem_lines {t line : Text} (h : line ∈ Text.lines t) : line ⊆ t := by
  obtain ⟨piece, hpiece, hsub⟩ := exists_piece_of_mem_lines h
  exact List.Subset.trans hsub (subset_of_mem_splitOn hpiece)

end Homonym
