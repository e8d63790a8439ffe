import Homonym.Proofs.Source.Grouping
import Homonym.Proofs.Text.Trim

/-!
# Layout

What a text defines, excerpts apart, depends on two things alone: on the code of
its lines, where blank lines and comments are all one, and on which of two lines
with code stands further right. How far right does not matter, nor where a blank
line or a comment stands. Two texts that agree in both have the *same layout*
(`SameLayout`): one may come from the other by indenting all of it, by writing
tabs for spaces, or by rewriting the comments.

* `Line.Padded.closes_eq`: white space behind a line;
* `definitionsFrom_outline`: lines of the same layout have the same definitions,
  line by line;
* `outline_eq_of_sameLayout`: texts of the same layout have the same definitions
  and the same clashes.
-/

namespace Homonym

namespace Source

/-- Two lines are alike if both are blank or comments, or if their code is the
    same. -/
def Line.Alike (l m : Line) : Prop :=
  (l.isIdle = true ∧ m.isIdle = true) ∨ l.code = m.code

instance (l m : Line) : Decidable (l.Alike m) :=
  inferInstanceAs (Decidable (_ ∨ _))

/-- Two texts, given by their lines, have the same layout. -/
structure SameLayout (ls ms : List Line) : Prop where
  /-- There are as many lines in both, and those in the same place are alike. -/
  alike : List.Forall₂ Line.Alike ls ms
  /-- Of two lines with code, the lower one stands at or left of the upper one
      in both texts or in neither. -/
  order : (ls.zip ms).Pairwise fun p q => p.1.isIdle = false → q.1.isIdle = false →
    (q.1.indent ≤ p.1.indent ↔ q.2.indent ≤ p.2.indent)

/-! ### Lines that are alike -/

section

variable {l m : Line}

theorem Line.headerName?_of_isIdle (h : l.isIdle = true) : headerName? l.code = none := by
  rw [Option.eq_none_iff_forall_not_mem]
  intro name hname
  rw [Line.isIdle_of_headerName? hname] at h
  cases h

theorem Line.Alike.isIdle_eq (h : l.Alike m) : l.isIdle = m.isIdle := by
  rcases h with ⟨hl, hm⟩ | hcode
  · rw [hl, hm]
  · rw [Line.isIdle, Line.isIdle, hcode]

theorem Line.Alike.code_eq (h : l.Alike m) (hl : l.isIdle = false) : l.code = m.code := by
  rcases h with ⟨hl', -⟩ | hcode
  · rw [hl] at hl'
    cases hl'
  · exact hcode

/-- Lines that are alike are headers of the same name, or both none. -/
theorem Line.Alike.headerName?_eq (h : l.Alike m) : headerName? l.code = headerName? m.code := by
  rcases h with ⟨hl, hm⟩ | hcode
  · rw [Line.headerName?_of_isIdle hl, Line.headerName?_of_isIdle hm]
  · rw [hcode]

/-- Lines that are alike close the same definitions, as far as their
    indentations compare alike to those of the headers. -/
theorem Line.Alike.closes_eq (h : l.Alike m) {i j : Nat}
    (hindent : l.isIdle = false → (l.indent ≤ i ↔ m.indent ≤ j)) : l.closes i = m.closes j := by
  rw [Line.closes, Line.closes, ← h.isIdle_eq]
  cases hl : l.isIdle with
  | true => rfl
  | false => rw [h.code_eq hl, decide_eq_decide.2 (hindent hl)]

/-! ### White space behind a line -/

/-- The line `m` is the line `l` with something blank put behind it. -/
def Line.Padded (l m : Line) : Prop :=
  ∃ gap : Text, gap.IsBlank ∧ m.raw = l.raw ++ gap

/-- White space behind a line is not part of its code. -/
theorem Line.Padded.code_eq (h : l.Padded m) : m.code = l.code := by
  obtain ⟨gap, hgap, hm⟩ := h
  rw [Line.code, hm, Text.trim_append hgap, Line.code]

theorem Line.Padded.indent_eq (h : l.Padded m) (hl : l.isIdle = false) : m.indent = l.indent := by
  obtain ⟨gap, -, hm⟩ := h
  have hcode : l.raw.trim ≠ [] := by
    intro hnil
    rw [Line.isIdle, Line.code, hnil] at hl
    cases hl
  rw [Line.indent, hm, Text.indent_append hcode, Line.indent]

/-- White space behind a line does not matter to the definitions that the line
    closes. -/
theorem Line.Padded.closes_eq (h : l.Padded m) (indent : Nat) :
    m.closes indent = l.closes indent :=
  (Line.Alike.closes_eq (.inr h.code_eq.symm) fun hl => by rw [h.indent_eq hl]).symm

end

/-! ### Definitions -/

/-- What a definition is, excerpt apart: its name and the lines it covers. -/
def Definition.outline (d : Definition) : Text × Nat × Nat :=
  (d.name, d.first, d.last)

/-- What a clash is, excerpts apart: its name and the lines that each of its
    definitions covers. -/
def Clash.outline (g : Clash) : Text × List (Nat × Nat) :=
  (g.name, g.sites.map fun d => (d.first, d.last))

theorem map_eq_map_of_forall₂ {α β γ : Type} {f : α → γ} {g : β → γ} {as : List α} {bs : List β}
    (h : List.Forall₂ (fun a b => f a = g b) as bs) : as.map f = bs.map g := by
  rw [← List.forall₂_eq_eq_eq, List.forall₂_map_left_iff, List.forall₂_map_right_iff]
  exact h

theorem findIdx_eq_of_forall₂ {p q : Line → Bool} {ls ms : List Line}
    (h : List.Forall₂ (fun l m => p l = q m) ls ms) : ls.findIdx p = ms.findIdx q := by
  induction h with
  | nil => rfl
  | cons heq _ ih => rw [List.findIdx_cons, List.findIdx_cons, heq, ih]

theorem SameLayout.tail {l m : Line} {ls ms : List Line} (h : SameLayout (l :: ls) (m :: ms)) :
    SameLayout ls ms :=
  ⟨(List.forall₂_cons.1 h.alike).2, (List.pairwise_cons.1 h.order).2⟩

/-- Headers in the same place of the same layout have bodies of the same
    length. -/
theorem SameLayout.length_body_eq {header header' : Line} {following following' : List Line}
    (h : SameLayout (header :: following) (header' :: following'))
    (hheader : header.isIdle = false) :
    (body header following).length = (body header' following').length := by
  rw [length_body, length_body]
  apply findIdx_eq_of_forall₂
  -- Every line below compares to one header as its counterpart does to the other.
  have horder := (List.pairwise_cons.1 h.order).1
  rw [List.forall₂_iff_zip]
  refine ⟨h.tail.alike.length_eq, fun {l m} hmem => ?_⟩
  exact (List.forall₂_zip h.tail.alike hmem).closes_eq (horder (l, m) hmem hheader)

/-- Lines of the same layout have the same definitions, line by line. -/
theorem definitionsFrom_outline (n : Nat) {ls ms : List Line} (h : SameLayout ls ms) :
    List.Forall₂ (fun d e => d.outline = e.outline) (definitionsFrom n ls)
      (definitionsFrom n ms) := by
  induction ls generalizing n ms with
  | nil =>
    obtain rfl := List.forall₂_nil_left_iff.1 h.alike
    exact .nil
  | cons header following ih =>
    obtain ⟨header', following', halike, -, rfl⟩ := List.forall₂_cons_left_iff.1 h.alike
    cases hname : headerName? header.code with
    | none =>
      rw [definitionsFrom_cons_none hname,
        definitionsFrom_cons_none (halike.headerName?_eq.symm.trans hname)]
      exact ih (n + 1) h.tail
    | some name =>
      rw [definitionsFrom_cons_some hname,
        definitionsFrom_cons_some (halike.headerName?_eq.symm.trans hname)]
      refine .cons ?_ (ih (n + 1) h.tail)
      have hlength := h.length_body_eq (Line.isIdle_of_headerName? hname)
      rw [Definition.outline, Definition.outline, Definition.ofHeader, Definition.ofHeader, hlength]

/-- Texts of the same layout have the same definitions, with the same names and
    in the same lines, and the same clashes between them. -/
theorem outline_eq_of_sameLayout {s t : Text} (h : SameLayout (lines s) (lines t)) :
    (definitions s).map Definition.outline = (definitions t).map Definition.outline ∧
    (clashes s).map Clash.outline = (clashes t).map Clash.outline := by
  have hdefinitions := definitionsFrom_outline 0 h
  have hclashes := clashesAmong_corresponds (fun d e hde => congrArg Prod.fst hde) hdefinitions
  refine ⟨map_eq_map_of_forall₂ hdefinitions, map_eq_map_of_forall₂ (hclashes.imp ?_)⟩
  intro g g' hg
  have hsites : g.sites.map (fun d => (d.first, d.last)) =
      g'.sites.map fun d => (d.first, d.last) :=
    map_eq_map_of_forall₂ (hg.sites.imp fun d e hde => congrArg Prod.snd hde)
  rw [Clash.outline, Clash.outline, hg.name_eq, hsites]

/-- A text indented by spaces, with a comment. -/
def spacedText : Text :=
  "def a():\n    # note\n    def b():\n        pass\ndef a():".toList

/-- The same text moved right, indented by tabs, with a blank line for the
    comment and a space at the end of the first line. -/
def movedText : Text :=
  "\tdef a(): \n\n\t\tdef b():\n\t\t\tpass\n\tdef a():".toList

theorem spacedText_outline_eq : SameLayout (lines spacedText) (lines movedText) ∧
    (definitions spacedText).map Definition.outline =
      (definitions movedText).map Definition.outline ∧
    (clashes spacedText).map Clash.outline = (clashes movedText).map Clash.outline := by
  have h : SameLayout (lines spacedText) (lines movedText) := ⟨by decide, by decide⟩
  exact ⟨h, outline_eq_of_sameLayout h⟩

end Source

end Homonym
