import Homonym.Proofs.Path.Below
import Homonym.Proofs.Path.Relative

/-!
# What is left of a path below a folder

A path below a folder is shown by what its spelling says after the folder. This
is a piece of the spelling as it stands, which is never put together anew, and
it has just the components that are left (`exists_piece_of_shownBelow`): taking
steps off the front takes components off the front, and the idle steps that go
with them are none. All other paths, and the folder itself, are shown whole.

For a path made of a folder and the names on the way, the piece is these names
with slashes between them, however the folder is spelled (`shownBelow_below`).

* `Layout.components_drop`: the components of what is left;
* `components_spelling`: a path taken apart has the components it is spelled
  with;
* `layout_spelling`: and the spelling that it was taken apart from.
-/

namespace Homonym

namespace Path

/-! ### Steps and components -/

theorem isIdle_iff {step : Bytes} : isIdle step = true ↔ Component.ofStep? step = none :=
  Option.isNone_iff_eq_none

theorem exists_component_of_not_isIdle {step : Bytes} (h : isIdle step = false) :
    ∃ c, Component.ofStep? step = some c := by
  rw [isIdle, Option.isNone_eq_false_iff] at h
  exact Option.isSome_iff_exists.1 h

theorem isIdle_eq_false {step : Bytes} (hnil : step ≠ []) (hdot : step ≠ [dot]) :
    isIdle step = false := by
  rw [isIdle, Component.ofStep?, if_neg (not_or.2 ⟨hnil, hdot⟩)]
  split <;> rfl

theorem isIdle_of_isName {name : Name} (h : IsName name) : isIdle name = false := by
  rw [isIdle, h.1]
  rfl

/-- Skipping steps up to a number of components drops just these components. -/
theorem filterMap_skipSteps (n : Nat) (steps : List Bytes) :
    (skipSteps n steps).filterMap Component.ofStep? =
      (steps.filterMap Component.ofStep?).drop n := by
  fun_induction skipSteps n steps with
  | case1 steps => rfl
  | case2 n => rfl
  | case3 n step steps hidle ih => rw [ih, List.filterMap_cons_none (isIdle_iff.1 hidle)]
  | case4 n step steps hidle ih =>
    obtain ⟨c, hc⟩ := exists_component_of_not_isIdle (Bool.eq_false_iff.2 hidle)
    rw [ih, List.filterMap_cons_some hc, List.drop_succ_cons]

theorem filterMap_dropWhile_isIdle (steps : List Bytes) :
    (steps.dropWhile isIdle).filterMap Component.ofStep? =
      steps.filterMap Component.ofStep? := by
  induction steps with
  | nil => rfl
  | cons step steps ih =>
    by_cases hidle : isIdle step = true
    · rw [List.dropWhile_cons_of_pos hidle, ih, List.filterMap_cons_none (isIdle_iff.1 hidle)]
    · rw [List.dropWhile_cons_of_neg hidle]

theorem filterMap_dropIdleEnd (steps : List Bytes) :
    (dropIdleEnd steps).filterMap Component.ofStep? = steps.filterMap Component.ofStep? := by
  rw [dropIdleEnd, List.filterMap_reverse, filterMap_dropWhile_isIdle, List.filterMap_reverse,
    List.reverse_reverse]

/-- Steps that end in a name have no idle ones at the end. -/
theorem dropIdleEnd_of_getLast? {steps : List Bytes}
    (h : ∀ step ∈ steps.getLast?, isIdle step = false) : dropIdleEnd steps = steps := by
  rcases List.eq_nil_or_concat' steps with rfl | ⟨steps, step, rfl⟩
  · rfl
  · have hidle := h step List.getLast?_concat
    rw [dropIdleEnd, List.reverse_concat, List.dropWhile_cons_of_neg (Bool.eq_false_iff.1 hidle),
      List.reverse_cons, List.reverse_reverse]

/-- The first of several steps stands for one component. -/
theorem exists_leading (step : Bytes) : ∃ c, leading step = [c] := by
  rw [leading]
  split_ifs with hnil hdot
  · exact ⟨.root, rfl⟩
  · exact ⟨.current, rfl⟩
  · obtain ⟨c, hc⟩ := exists_component_of_not_isIdle (isIdle_eq_false hnil hdot)
    exact ⟨c, by rw [hc]; rfl⟩

namespace Layout

/-- A path taken apart, without the idle steps at its end. -/
def trimEnd (l : Layout) : Layout :=
  { l with steps := dropIdleEnd l.steps }

theorem components_trimEnd (l : Layout) : l.trimEnd.components = l.components := by
  rw [components, components, trimEnd, filterMap_dropIdleEnd]

/-- What is left of a path has the components that are left. -/
theorem components_drop (n : Nat) (l : Layout) :
    (l.drop n).components = l.components.drop n := by
  cases n with
  | zero => rfl
  | succ n =>
    obtain ⟨anchor, steps⟩ := l
    -- An anchor is the first component, so there is one step less to skip.
    cases anchor with
    | none =>
      simp only [components, drop, filterMap_dropWhile_isIdle, filterMap_skipSteps]
      rfl
    | some a =>
      simp only [components, drop, filterMap_dropWhile_isIdle, filterMap_skipSteps]
      rfl

/-! ### Spelling a path taken apart -/

/-- A path taken apart as it can be read again: no step is divided by a slash, and
    the first one stands for a component if there is no anchor in front of it. -/
structure Legible (l : Layout) : Prop where
  slash_not_mem : ∀ step ∈ l.steps, slash ∉ step
  head : l.anchor = none → ∀ step ∈ l.steps.head?, isIdle step = false

end Layout

theorem not_idle_first {step : Bytes} (h : isIdle step = false) : step ≠ [] ∧ step ≠ [dot] := by
  obtain ⟨c, hc⟩ := exists_component_of_not_isIdle h
  exact ne_nil_of_ofStep? hc

/-- A path taken apart has the components that it is spelled with. -/
theorem components_spelling {l : Layout} (h : l.Legible) :
    (Path.mk l.spelling).components = l.components := by
  obtain ⟨anchor, steps⟩ := l
  rw [components_eq_ofSteps]
  match anchor with
  | none =>
    cases steps with
    | nil => rfl
    | cons step steps =>
      obtain ⟨hnil, hdot⟩ := not_idle_first (h.head rfl step rfl)
      rw [Layout.spelling, List.splitOn_intercalate slash h.slash_not_mem (List.cons_ne_nil _ _),
        Layout.ofSteps, if_neg fun hempty => hnil hempty.1, if_neg hdot]
  | some .root =>
    have hsplit : (slash :: List.intercalate [slash] steps).splitOn slash =
        [] :: (List.intercalate [slash] steps).splitOn slash :=
      List.splitOn_append_cons_self [] _
    rw [Layout.spelling, hsplit, components_ofSteps_cons fun _ => List.splitOn_ne_nil _ _]
    cases steps with
    | nil => rfl
    | cons step steps =>
      rw [List.splitOn_intercalate slash h.slash_not_mem (List.cons_ne_nil _ _)]
      rfl
  | some .current =>
    have hslash : ∀ step ∈ [dot] :: steps, slash ∉ step := by
      rw [List.forall_mem_cons]
      exact ⟨by decide, h.slash_not_mem⟩
    rw [Layout.spelling, List.splitOn_intercalate slash hslash (List.cons_ne_nil _ _)]
    rfl

/-- A path is spelled as what it is taken apart into. -/
theorem layout_spelling (p : Path) : p.layout.spelling = p.spelling := by
  have hjoined : List.intercalate [slash] (p.spelling.splitOn slash) = p.spelling :=
    List.intercalate_splitOn slash
  rw [layout]
  split
  next hsplit => exact absurd hsplit (List.splitOn_ne_nil _ _)
  next step steps hsplit =>
    rw [hsplit] at hjoined
    split_ifs with hroot hdot
    · rw [hroot.1, List.intercalate_cons_of_ne_nil hroot.2] at hjoined
      exact hjoined
    · rw [hdot] at hjoined
      exact hjoined
    · exact hjoined

/-! ### The piece that is left -/

theorem spelling_eq_nil_of_components {p : Path} (h : p.components = []) : p.spelling = [] := by
  obtain ⟨first, steps, hsteps⟩ :=
    List.exists_cons_of_ne_nil (List.splitOn_ne_nil slash p.spelling)
  by_cases hempty : first = [] ∧ steps = []
  · have hjoined : List.intercalate [slash] (p.spelling.splitOn slash) = p.spelling :=
      List.intercalate_splitOn slash
    rw [← hjoined, hsteps, hempty.1, hempty.2]
    rfl
  · obtain ⟨c, hc⟩ := exists_leading first
    rw [components_eq_ofSteps, hsteps, components_ofSteps_cons fun hnil hsteps =>
      hempty ⟨hnil, hsteps⟩, hc] at h
    exact absurd h (List.cons_ne_nil _ _)

namespace Layout

/-- Without the idle steps at its end a path is spelled by a first part of its
    spelling. -/
theorem spelling_trimEnd_isPrefix (l : Layout) : l.trimEnd.spelling <+: l.spelling := by
  obtain ⟨anchor, steps⟩ := l
  match anchor with
  | none => exact intercalate_isPrefix (dropIdleEnd_isPrefix steps)
  | some .root =>
    exact (List.prefix_cons_inj slash).2 (intercalate_isPrefix (dropIdleEnd_isPrefix steps))
  | some .current =>
    exact intercalate_isPrefix ((List.prefix_cons_inj [dot]).2 (dropIdleEnd_isPrefix steps))

theorem intercalate_steps_isSuffix (l : Layout) :
    List.intercalate [slash] l.steps <:+ l.spelling := by
  obtain ⟨anchor, steps⟩ := l
  match anchor with
  | none => exact List.suffix_rfl
  | some .root => exact List.suffix_cons _ _
  | some .current => exact intercalate_isSuffix (List.suffix_cons _ _)

/-- What is left of a path is a piece of its spelling. -/
theorem spelling_drop_isInfix (n : Nat) (l : Layout) :
    (l.drop n).trimEnd.spelling <:+: l.spelling := by
  cases n with
  | zero => exact l.spelling_trimEnd_isPrefix.isInfix
  | succ n =>
    refine List.IsInfix.trans ?_ l.intercalate_steps_isSuffix.isInfix
    refine intercalate_isInfix ((dropIdleEnd_isPrefix _).isInfix.trans ?_)
    exact (l.steps_drop_isSuffix (n + 1)).isInfix

end Layout

/-- Without an anchor a path starts with a component, unless it is empty. -/
theorem head_steps_of_anchor_eq_none {p : Path} (h : p.layout.anchor = none) :
    p.layout.steps = [[]] ∨ ∀ step ∈ p.layout.steps.head?, isIdle step = false := by
  rw [layout] at h ⊢
  split at h
  next hsplit => exact absurd hsplit (List.splitOn_ne_nil _ _)
  next first steps hsplit =>
    split_ifs at h ⊢ with hroot hdot
    by_cases hnil : first = []
    · rw [hnil, not_and_not_right.1 hroot hnil]
      exact .inl rfl
    · refine .inr fun step hstep => ?_
      cases hstep
      exact isIdle_eq_false hnil hdot

/-- What is left of a path behind some of its components can be read back from its
    spelling. -/
theorem legible_drop (p : Path) (n : Nat) : (p.layout.drop n).trimEnd.Legible := by
  have hsteps : ∀ step ∈ (p.layout.drop n).trimEnd.steps, step ∈ p.layout.steps := fun step hstep =>
    (Layout.steps_drop_isSuffix n _).subset ((dropIdleEnd_isPrefix _).subset hstep)
  refine ⟨fun step hstep => not_mem_of_mem_splitOn (mem_splitOn_of_mem_steps (hsteps step hstep)),
    fun hanchor step hstep => ?_⟩
  have hhead : step ∈ (p.layout.drop n).steps.head? := by
    obtain ⟨more, hmore⟩ := dropIdleEnd_isPrefix (p.layout.drop n).steps
    rw [← hmore]
    exact List.mem_head?_append_of_mem_head? hstep
  cases n with
  | zero =>
    rcases head_steps_of_anchor_eq_none hanchor with hempty | hfirst
    · -- Of an empty path no step is left at all.
      rw [Layout.trimEnd, Layout.drop, hempty] at hstep
      cases hstep
    · exact hfirst step hhead
  | succ n =>
    have hfirst := List.head?_dropWhile_not isIdle
      (skipSteps (if p.layout.anchor.isSome then n else n + 1) p.layout.steps)
    rw [Layout.drop] at hhead
    rwa [Option.mem_def.1 hhead] at hfirst

/-- What is left of a path behind a folder has the components that are left. -/
theorem components_remainder {file root : Path} {below : List Component}
    (h : file.components = root.components ++ below) :
    (Path.mk (file.layout.drop root.components.length).trimEnd.spelling).components = below := by
  rw [components_spelling (legible_drop file _), Layout.components_trimEnd, Layout.components_drop]
  change file.components.drop _ = below
  rw [h, List.drop_left]

/-- A path below a folder is shown by a piece of its spelling, which has the
    components that are left. -/
theorem exists_piece_of_shownBelow {file root : Path} {below : List Component}
    (hbelow : below ≠ []) (h : file.components = root.components ++ below) :
    ∃ piece, piece <:+: file.spelling ∧ (Path.mk piece).components = below ∧
      file.shownBelow root = Utf8.shown piece := by
  have hcomponents := components_remainder h
  set rest := (file.layout.drop root.components.length).trimEnd
  refine ⟨rest.spelling, ?_, hcomponents, ?_⟩
  · have hinfix := Layout.spelling_drop_isInfix root.components.length file.layout
    rwa [layout_spelling] at hinfix
  · have hrelative : file.relativeTo? root = some ⟨rest.spelling⟩ := by
      rw [relativeTo?, if_pos (List.isPrefixOf_iff_prefix.2 ⟨below, h.symm⟩)]
      rfl
    have hne : rest.spelling ≠ [] := by
      intro hnil
      rw [hnil] at hcomponents
      exact hbelow hcomponents.symm
    rw [shownBelow, hrelative]
    exact if_neg hne

/-- The folder itself, and any path that is not below it, is shown whole. -/
theorem shownBelow_of_not_below {file root : Path}
    (h : ∀ below, below ≠ [] → file.components ≠ root.components ++ below) :
    file.shownBelow root = file.shown := by
  rw [shownBelow]
  split
  next rest hrest =>
    rw [relativeTo?, Option.ite_none_right_eq_some, List.isPrefixOf_iff_prefix] at hrest
    obtain ⟨⟨below, hbelow⟩, heq⟩ := hrest
    obtain rfl : below = [] := by
      by_contra hne
      exact h below hne hbelow.symm
    -- Nothing is left, so there is nothing to spell.
    have hcomponents : rest.components = [] := by
      obtain rfl := Option.some.inj heq
      exact components_remainder hbelow.symm
    rw [if_pos (spelling_eq_nil_of_components hcomponents)]
  next => rfl

/-! ### Names below a folder -/

/-- What the spelling of every path below a folder starts with. -/
def entrance (p : Path) : Bytes :=
  if p.spelling = [] ∨ p.spelling.getLast? = some slash then p.spelling
  else p.spelling ++ [slash]

theorem spelling_join (p : Path) (name : Name) :
    (p.join name).spelling = p.entrance ++ name := by
  rw [join, entrance]
  split_ifs
  · rfl
  · rw [List.append_assoc]
    rfl

theorem entrance_join (p : Path) {name : Name} (h : IsName name) :
    (p.join name).entrance = p.entrance ++ name ++ [slash] := by
  have hne : name ≠ [] := (ne_nil_of_ofStep? h.1).1
  have hlast : name.getLast? ≠ some slash := fun hlast => h.2 (List.mem_of_getLast? hlast)
  rw [entrance, spelling_join, if_neg]
  rw [List.getLast?_append_of_ne_nil _ hne, not_or]
  exact ⟨List.append_ne_nil_of_right_ne_nil _ hne, hlast⟩

/-- A place below a path is spelled by the entrance of the path and the names with
    slashes between. -/
theorem spelling_below (p : Path) {place : List Name} (hne : place ≠ [])
    (h : ∀ name ∈ place, IsName name) :
    (p.below place).spelling = p.entrance ++ List.intercalate [slash] place := by
  induction place generalizing p with
  | nil => exact absurd rfl hne
  | cons name place ih =>
    rw [List.forall_mem_cons] at h
    rw [below, List.foldl_cons, ← below]
    cases place with
    | nil =>
      rw [List.intercalate_singleton]
      exact spelling_join p name
    | cons next place =>
      rw [ih _ (List.cons_ne_nil _ _) h.2, entrance_join p h.1, List.intercalate_cons_cons]
      simp only [List.append_assoc]

/-- A folder divides its steps from those below it. -/
theorem exists_steps_entrance (p : Path) : ∃ steps,
    p.components = (Layout.ofSteps (steps ++ [[]])).components ∧
      ∀ t, (p.entrance ++ t).splitOn slash = steps ++ t.splitOn slash := by
  obtain ⟨s⟩ := p
  have hslash : ∀ r : Bytes, ∀ t, (r ++ [slash] ++ t).splitOn slash =
      r.splitOn slash ++ t.splitOn slash := by
    intro r t
    rw [List.append_assoc]
    exact List.splitOn_append_cons_self r t
  rw [entrance]
  split_ifs with hs
  · rcases hs with rfl | hlast
    · exact ⟨[], rfl, fun t => rfl⟩
    · obtain ⟨r, rfl⟩ := List.getLast?_eq_some_iff.1 hlast
      refine ⟨r.splitOn slash, ?_, hslash r⟩
      rw [components_eq_ofSteps, List.splitOn_append_cons_self, List.splitOn_nil]
  · refine ⟨s.splitOn slash, ?_, hslash s⟩
    rw [← components_concat_slash fun hnil => hs (.inl hnil), components_eq_ofSteps,
      List.splitOn_append_cons_self, List.splitOn_nil]

/-- Behind as many components as some steps have, what follows these steps is
    left, from its first component on. -/
theorem dropWhile_skipSteps (steps : List Bytes) {rest : List Bytes}
    (h : ∀ step ∈ rest.head?, isIdle step = false) :
    (skipSteps (steps.filterMap Component.ofStep?).length (steps ++ rest)).dropWhile isIdle =
      rest := by
  induction steps with
  | nil =>
    cases rest with
    | nil => rfl
    | cons step rest => exact List.dropWhile_cons_of_neg (Bool.eq_false_iff.1 (h step rfl))
  | cons step steps ih =>
    by_cases hidle : isIdle step = true
    · rw [List.filterMap_cons_none (isIdle_iff.1 hidle), List.cons_append]
      -- Idle steps are skipped together with the others, or dropped after them.
      cases hn : (steps.filterMap Component.ofStep?).length with
      | zero =>
        rw [hn, skipSteps] at ih
        rw [skipSteps, List.dropWhile_cons_of_pos hidle, ih]
      | succ n =>
        rw [hn] at ih
        rw [skipSteps, if_pos hidle, ih]
    · obtain ⟨c, hc⟩ := exists_component_of_not_isIdle (Bool.eq_false_iff.2 hidle)
      rw [List.filterMap_cons_some hc, List.cons_append, List.length_cons, skipSteps, if_neg hidle,
        ih]

/-- Behind one component or more of a path, its first step is gone, and the idle
    steps in front of the rest are, too. -/
theorem Layout.drop_ofSteps_cons (step : Bytes) {steps : List Bytes} (h : steps ≠ []) (n : Nat) :
    (Layout.ofSteps (step :: steps)).drop (n + 1) =
      ⟨none, (skipSteps n steps).dropWhile isIdle⟩ := by
  rw [Layout.ofSteps]
  split_ifs with hroot hdot
  · rfl
  · rfl
  · have hidle : isIdle step = false := isIdle_eq_false (fun hnil => hroot ⟨hnil, h⟩) hdot
    simp [Layout.drop, skipSteps, hidle]

/-- Dropping the components of a path from one that goes on from it leaves the other
    steps, if these do not start with an idle one. -/
theorem Layout.drop_ofSteps_append (steps : List Bytes) {rest : List Bytes} (hne : rest ≠ [])
    (h : ∀ step ∈ rest.head?, isIdle step = false) :
    (Layout.ofSteps (steps ++ rest)).drop (Layout.ofSteps (steps ++ [[]])).components.length =
      ⟨none, rest⟩ := by
  have hnil : ∀ more : List Bytes, more ≠ [] → ∀ steps : List Bytes, steps ++ more ≠ [] :=
    fun more hmore steps => List.append_ne_nil_of_right_ne_nil _ hmore
  cases steps with
  | nil =>
    obtain ⟨first, rest, rfl⟩ := List.exists_cons_of_ne_nil hne
    obtain ⟨hfirst, hdot⟩ := not_idle_first (h first rfl)
    change Layout.ofSteps (first :: rest) = _
    rw [Layout.ofSteps, if_neg fun hempty => hfirst hempty.1, if_neg hdot]
  | cons step steps =>
    obtain ⟨c, hc⟩ := exists_leading step
    rw [List.cons_append, List.cons_append, components_ofSteps_cons fun _ => hnil _ (by simp) _,
      hc, List.filterMap_append, List.singleton_append, List.length_cons,
      Layout.drop_ofSteps_cons step (hnil rest hne steps)]
    rw [show [[]].filterMap Component.ofStep? = [] from rfl, List.append_nil,
      dropWhile_skipSteps steps h]

/-- A path made of a folder and some names is shown by these names, with slashes
    between them. -/
theorem shownBelow_below (root : Path) {place : List Name} (hne : place ≠ [])
    (h : ∀ name ∈ place, IsName name) :
    (root.below place).shownBelow root = Utf8.shown (List.intercalate [slash] place) := by
  obtain ⟨steps, hcomponents, hsplit⟩ := exists_steps_entrance root
  have hlayout : (root.below place).layout = Layout.ofSteps (steps ++ place) := by
    change Layout.ofSteps ((root.below place).spelling.splitOn slash) = _
    rw [spelling_below root hne h, hsplit,
      List.splitOn_intercalate slash (fun n hn => (h n hn).2) hne]
  have hrelative : (root.below place).relativeTo? root =
      some ⟨List.intercalate [slash] place⟩ := by
    have hprefix : root.components <+: (root.below place).components :=
      ⟨_, (components_below root h).symm⟩
    rw [relativeTo?, if_pos (List.isPrefixOf_iff_prefix.2 hprefix), hlayout, hcomponents,
      Layout.drop_ofSteps_append steps hne fun step hstep =>
        isIdle_of_isName (h step (List.mem_of_mem_head? hstep))]
    dsimp only
    rw [dropIdleEnd_of_getLast? fun step hstep =>
      isIdle_of_isName (h step (List.mem_of_getLast? hstep))]
    rfl
  have hspelled : List.intercalate [slash] place ≠ [] := by
    obtain ⟨name, hname⟩ := List.exists_mem_of_ne_nil place hne
    intro hnil
    have hsub : name ⊆ List.intercalate [slash] place := subset_intercalate hname
    rw [hnil, List.subset_nil] at hsub
    exact (ne_nil_of_ofStep? (h name hname).1).1 hsub
  rw [shownBelow, hrelative]
  exact if_neg hspelled

/-! ### Names that are texts -/

section

variable {root : Path} {place place' : List Name} (hne : place ≠ [])
  (h : ∀ name ∈ place, IsName name)
include hne h

/-- Below a folder, the names in a path that is a text are texts. -/
theorem exists_texts_of_text? (htext : (root.below place).text? ≠ none) :
    ∃ names : List Text, names.map Utf8.encode = place := by
  obtain ⟨t, ht⟩ := Option.ne_none_iff_exists'.1 htext
  obtain ⟨steps, -, hsplit⟩ := exists_steps_entrance root
  have hsteps : (t.splitOn '/').map Utf8.encode = steps ++ place := by
    rw [← Utf8.splitOn_encode (by decide) t, Utf8.decode?_eq_some_iff.1 ht,
      spelling_below root hne h]
    change List.splitOn slash _ = _
    rw [hsplit, List.splitOn_intercalate slash (fun name hname => (h name hname).2) hne]
  obtain ⟨-, names, -, -, hnames⟩ := List.map_eq_append_iff.1 hsteps
  exact ⟨names, hnames⟩

/-- At a place whose names are texts, the names are shown with slashes between. -/
theorem shownBelow_of_texts {names : List Text} (hnames : names.map Utf8.encode = place) :
    (root.below place).shownBelow root = List.intercalate ['/'] names := by
  rw [shownBelow_below root hne h, ← hnames]
  change Utf8.shown (List.intercalate (Utf8.encode ['/']) (names.map Utf8.encode)) = _
  rw [← Utf8.encode_intercalate, Utf8.shown_encode]

/-- Paths below a folder that are texts are shown as different if they are. -/
theorem place_eq_of_shownBelow (hne' : place' ≠ []) (h' : ∀ name ∈ place', IsName name)
    (htext : (root.below place).text? ≠ none) (htext' : (root.below place').text? ≠ none)
    (hshown : (root.below place).shownBelow root = (root.below place').shownBelow root) :
    place = place' := by
  obtain ⟨names, hnames⟩ := exists_texts_of_text? hne h htext
  obtain ⟨names', hnames'⟩ := exists_texts_of_text? hne' h' htext'
  rw [shownBelow_of_texts hne h hnames, shownBelow_of_texts hne' h' hnames'] at hshown
  have hspelled : List.intercalate [slash] place = List.intercalate [slash] place' := by
    have hencoded := congrArg Utf8.encode hshown
    rwa [Utf8.encode_intercalate, Utf8.encode_intercalate, hnames, hnames'] at hencoded
  rw [← List.splitOn_intercalate slash (fun name hname => (h name hname).2) hne, hspelled,
    List.splitOn_intercalate slash (fun name hname => (h' name hname).2) hne']

end

end Path

end Homonym
