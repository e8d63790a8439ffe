import Homonym.Proofs.Text.Trim
import Homonym.Source.Header

/-!
# What a function header is

A header is recognised from left to right, by taking as many characters of a
kind as there are. Here it is described by its parts instead: the word `def`, a
gap, a name, perhaps more white space, and a parenthesis (`IsHeader`). The two
agree because the kinds of characters that follow one another have nothing in
common: a name has no white space, and a parenthesis is neither. So each part
ends at the only place where it can, and no text is a header in two ways.

* `isSpace_eq_false_of_isNameChar`: white space ends a name;
* `calledName?_eq_some_iff`: what follows the gap;
* `headerName?_exact`: which texts are headers, and with which name.
-/

namespace Homonym

namespace Source

/-! ### Names -/

/-- A letter of ASCII or an underscore. -/
def IsInitial (c : Char) : Prop :=
  'a' ≤ c ∧ c ≤ 'z' ∨ 'A' ≤ c ∧ c ≤ 'Z' ∨ c = '_'

instance : DecidablePred IsInitial := fun c =>
  inferInstanceAs (Decidable ('a' ≤ c ∧ c ≤ 'z' ∨ 'A' ≤ c ∧ c ≤ 'Z' ∨ c = '_'))

/-- A letter or an underscore, followed by letters, digits and underscores. -/
def IsName (t : Text) : Prop :=
  ∃ c rest, t = c :: rest ∧ IsInitial c ∧ ∀ d ∈ rest, IsInitial d ∨ '0' ≤ d ∧ d ≤ '9'

theorem isNameStart_iff {c : Char} : isNameStart c = true ↔ IsInitial c := by
  have hupper : c.isUpper = true ↔ 'A' ≤ c ∧ c ≤ 'Z' := decide_eq_true_iff
  have hlower : c.isLower = true ↔ 'a' ≤ c ∧ c ≤ 'z' :=
    Bool.and_eq_true_iff.trans (and_congr decide_eq_true_iff decide_eq_true_iff)
  have halpha : c.isAlpha = (c.isUpper || c.isLower) := rfl
  rw [isNameStart, halpha, Bool.or_eq_true, Bool.or_eq_true, hupper, hlower, decide_eq_true_iff]
  exact or_assoc.trans or_left_comm

theorem isNameChar_iff {c : Char} : isNameChar c = true ↔ IsInitial c ∨ '0' ≤ c ∧ c ≤ '9' := by
  simp only [isNameChar, Char.isDigit, Bool.or_eq_true, isNameStart_iff, Bool.and_eq_true,
    decide_eq_true_iff]
  exact Iff.rfl

/-- A name starts as a name does, and goes on as one does. -/
theorem isName_iff {t : Text} :
    IsName t ↔ t.head?.any isNameStart = true ∧ ∀ c ∈ t, isNameChar c = true := by
  constructor
  · rintro ⟨c, rest, rfl, hc, hrest⟩
    rw [List.forall_mem_cons]
    exact ⟨isNameStart_iff.2 hc, isNameChar_iff.2 (.inl hc),
      fun d hd => isNameChar_iff.2 (hrest d hd)⟩
  · rintro ⟨hstart, hchars⟩
    obtain ⟨c, hhead, hc⟩ := (Option.any_eq_true _ _).1 hstart
    obtain ⟨rest, rfl⟩ := List.head?_eq_some_iff.1 hhead
    rw [List.forall_mem_cons] at hchars
    exact ⟨c, rest, rfl, isNameStart_iff.1 hc, fun d hd => isNameChar_iff.1 (hchars.2 d hd)⟩

/-- The characters that ASCII prints, other than the space, are no white
    space. -/
theorem isSpace_eq_false {c : Char} (h : '!' ≤ c) (h' : c ≤ '~') : isSpace c = false := by
  have hlow : 0x21 ≤ c.toNat := h
  have hhigh : c.toNat ≤ 0x7E := h'
  simp only [isSpace, spaceRanges, List.any_cons, List.any_nil, Bool.or_false, Bool.or_eq_false_iff,
    Bool.and_eq_false_iff, decide_eq_false_iff_not]
  omega

/-- A name has no white space in it. -/
theorem isSpace_eq_false_of_isNameChar {c : Char} (h : isNameChar c = true) :
    isSpace c = false := by
  rcases isNameChar_iff.1 h with (⟨ha, hz⟩ | ⟨ha, hz⟩ | rfl) | ⟨h0, h9⟩
  · exact isSpace_eq_false (Char.le_trans (by decide) ha) (Char.le_trans hz (by decide))
  · exact isSpace_eq_false (Char.le_trans (by decide) ha) (Char.le_trans hz (by decide))
  · decide
  · exact isSpace_eq_false (Char.le_trans (by decide) h0) (Char.le_trans h9 (by decide))

/-- A name does not start with white space. -/
theorem IsName.exists_cons {t : Text} (h : IsName t) :
    ∃ c rest, t = c :: rest ∧ isSpace c = false := by
  obtain ⟨c, rest, rfl, hc, -⟩ := h
  exact ⟨c, rest, rfl, isSpace_eq_false_of_isNameChar (isNameChar_iff.2 (.inl hc))⟩

/-! ### Headers -/

/-- The text `t` is a header with the given name: the word `def`, a gap, the
    name, perhaps more white space, and a parenthesis, whatever follows it. -/
def IsHeader (t name : Text) : Prop :=
  ∃ gap pad rest : Text, t = "def".toList ++ (gap ++ (name ++ (pad ++ '(' :: rest))) ∧
    gap ≠ [] ∧ gap.IsBlank ∧ IsName name ∧ pad.IsBlank

/-- A text calls a name if the name stands at its beginning and behind it,
    perhaps after white space, a parenthesis. -/
theorem calledName?_eq_some_iff {t name : Text} : calledName? t = some name ↔
    ∃ pad rest : Text, t = name ++ (pad ++ '(' :: rest) ∧ IsName name ∧ pad.IsBlank := by
  constructor
  · intro h
    rw [calledName?, Option.ite_none_right_eq_some, Bool.and_eq_true, decide_eq_true_iff] at h
    obtain ⟨⟨hstart, hopen⟩, heq⟩ := h
    obtain rfl := Option.some.inj heq
    obtain ⟨rest, hrest⟩ := List.head?_eq_some_iff.1 hopen
    refine ⟨(t.dropWhile isNameChar).takeWhile isSpace, rest, ?_,
      isName_iff.2 ⟨hstart, fun c hc => List.mem_takeWhile_imp hc⟩,
      fun c hc => List.mem_takeWhile_imp hc⟩
    rw [← hrest, List.takeWhile_append_dropWhile, List.takeWhile_append_dropWhile]
  · rintro ⟨pad, rest, rfl, hname, hpad⟩
    obtain ⟨hstart, hchars⟩ := isName_iff.1 hname
    -- What follows the name, white space or the parenthesis, does not go on with it.
    obtain ⟨c, after, hafter, hc⟩ : ∃ c after,
        pad ++ '(' :: rest = c :: after ∧ isNameChar c = false := by
      cases pad with
      | nil => exact ⟨'(', rest, rfl, by decide⟩
      | cons c pad =>
        refine ⟨c, pad ++ '(' :: rest, rfl, Bool.eq_false_iff.2 fun hc => ?_⟩
        have hspace := hpad c List.mem_cons_self
        rw [isSpace_eq_false_of_isNameChar hc] at hspace
        cases hspace
    have hdrop : (pad ++ '(' :: rest).dropWhile isSpace = '(' :: rest :=
      dropWhile_append_cons hpad (by decide) rest
    rw [hafter] at hdrop ⊢
    rw [calledName?, takeWhile_append_cons hchars hc, dropWhile_append_cons hchars hc, hdrop,
      hstart]
    rfl

/-- Behind the keyword there must be white space, and behind that a name that is
    called. -/
theorem headerName?_def_append (after : Text) : headerName? ("def".toList ++ after) =
    if after.head?.any isSpace then calledName? (after.dropWhile isSpace) else none :=
  rfl

/-- A text is a header with a name if and only if that name is found in it. -/
theorem headerName?_eq_some_iff {t name : Text} :
    headerName? t = some name ↔ IsHeader t name := by
  constructor
  · intro h
    unfold headerName? at h
    split at h
    next after =>
      rw [Option.ite_none_right_eq_some] at h
      obtain ⟨hspace, hcalled⟩ := h
      obtain ⟨c, hhead, hc⟩ := (Option.any_eq_true _ _).1 hspace
      obtain ⟨after, rfl⟩ := List.head?_eq_some_iff.1 hhead
      obtain ⟨pad, rest, hrest, hname, hpad⟩ := calledName?_eq_some_iff.1 hcalled
      refine ⟨(c :: after).takeWhile isSpace, pad, rest, ?_, ?_,
        fun c hc => List.mem_takeWhile_imp hc, hname, hpad⟩
      · rw [← hrest, List.takeWhile_append_dropWhile]
        rfl
      · rw [List.takeWhile_cons_of_pos hc]
        exact List.cons_ne_nil _ _
    next => cases h
  · rintro ⟨gap, pad, rest, rfl, hgap, hspace, hname, hpad⟩
    -- The gap ends where the name starts.
    obtain ⟨first, more, hmore, hfirst⟩ := hname.exists_cons
    have hdrop : (gap ++ (name ++ (pad ++ '(' :: rest))).dropWhile isSpace =
        name ++ (pad ++ '(' :: rest) := by
      rw [hmore]
      exact dropWhile_append_cons hspace hfirst _
    obtain ⟨c, gap, rfl⟩ := List.exists_cons_of_ne_nil hgap
    have hhead : ((c :: gap) ++ (name ++ (pad ++ '(' :: rest))).head?.any isSpace = true :=
      hspace c List.mem_cons_self
    rw [headerName?_def_append, hdrop, if_pos hhead, calledName?_eq_some_iff]
    exact ⟨pad, rest, rfl, hname, hpad⟩

/-- Headers, exactly: the name found in a text is the one that the text is a
    header with, if it is a header; and no text is a header with two names. -/
theorem headerName?_exact (t : Text) :
    (∀ name, headerName? t = some name ↔ IsHeader t name) ∧
    ∀ name name', IsHeader t name → IsHeader t name' → name = name' := by
  refine ⟨fun name => headerName?_eq_some_iff, fun name name' h h' => ?_⟩
  rw [← headerName?_eq_some_iff] at h h'
  exact Option.some.inj (h.symm.trans h')

/-- A header with white space of many kinds, in the gap and behind the name. -/
theorem headerName?_exact_spaced :
    IsHeader "def\t\u3000_f2\xA0(x): (".toList "_f2".toList ∧
    headerName? "def\t\u3000_f2\xA0(x): (".toList = some "_f2".toList ∧
    ∀ name, IsHeader "def\t\u3000_f2\xA0(x): (".toList name → name = "_f2".toList := by
  have h : IsHeader "def\t\u3000_f2\xA0(x): (".toList "_f2".toList :=
    ⟨"\t\u3000".toList, "\xA0".toList, "x): (".toList, by decide, by decide, by decide,
      ⟨'_', ['f', '2'], by decide, by decide,
        List.forall_mem_cons.2 ⟨by decide, List.forall_mem_singleton.2 (by decide)⟩⟩, by decide⟩
  obtain ⟨hexact, hunique⟩ := headerName?_exact "def\t\u3000_f2\xA0(x): (".toList
  exact ⟨h, (hexact _).2 h, fun name hname => hunique _ _ hname h⟩

end Source

end Homonym
