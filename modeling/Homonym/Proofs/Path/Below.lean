import Homonym.FileTree.Basic
import Mathlib.Data.List.Basic

/-!
# Paths below a folder

The path of an entry of a folder has the components of the folder and one more,
its name, however the folder is spelled (`components_join`). So the components
of a path below a folder are those of the folder and the names on the way
(`components_below`), and such paths are ordered as the lists of these names
are, name by name and byte by byte (`order_below_eq_lt_iff`).
-/

namespace Homonym

namespace Path

/-- The path of what is at a place below the folder at `p`. -/
def below (p : Path) (place : List Name) : Path :=
  place.foldl join p

/-! ### Components -/

/-- A path taken apart, given the steps that its spelling is cut into. -/
def Layout.ofSteps : List Bytes → Layout
  | [] => ⟨none, []⟩
  | step :: steps =>
    if step = [] ∧ steps ≠ [] then ⟨some .root, steps⟩
    else if step = [dot] then ⟨some .current, steps⟩
    else ⟨none, step :: steps⟩

theorem components_eq_ofSteps (p : Path) :
    p.components = (Layout.ofSteps (p.spelling.splitOn slash)).components :=
  rfl

/-- What the first of several steps stands for. -/
def leading (step : Bytes) : List Component :=
  if step = [] then [.root] else if step = [dot] then [.current]
  else (Component.ofStep? step).toList

/-- The first step of a path may stand for where the path starts; any other is a
    component or idle. -/
theorem components_ofSteps_cons {step : Bytes} {steps : List Bytes}
    (h : step = [] → steps ≠ []) : (Layout.ofSteps (step :: steps)).components =
      leading step ++ steps.filterMap Component.ofStep? := by
  rw [Layout.ofSteps, leading]
  by_cases hempty : step = []
  · rw [if_pos ⟨hempty, h hempty⟩, if_pos hempty]
    rfl
  · rw [if_neg fun hand => hempty hand.1, if_neg hempty]
    split_ifs
    · rfl
    · cases hc : Component.ofStep? step <;> simp [Layout.components, hc]

theorem ofStep?_nil : Component.ofStep? [] = none :=
  rfl

theorem ne_nil_of_ofStep? {step : Bytes} {c : Component} (h : Component.ofStep? step = some c) :
    step ≠ [] ∧ step ≠ [dot] := by
  rw [← not_or]
  intro hidle
  rw [Component.ofStep?, if_pos hidle] at h
  cases h

/-- A component at the end stands for itself, where an empty step stands for
    nothing. -/
theorem components_ofSteps_concat (steps : List Bytes) {step : Bytes} {c : Component}
    (h : Component.ofStep? step = some c) :
    (Layout.ofSteps (steps ++ [step])).components =
      (Layout.ofSteps (steps ++ [[]])).components ++ [c] := by
  obtain ⟨hne, hdot⟩ := ne_nil_of_ofStep? h
  -- The first step counts as an anchor, so it is the last one only if it is
  -- alone; that it is then no anchor is what `hne` and `hdot` say.
  cases steps with
  | nil =>
    rw [List.nil_append, components_ofSteps_cons fun hempty => absurd hempty hne, leading,
      if_neg hne, if_neg hdot, h]
    rfl
  | cons first steps =>
    have hnil : ∀ x : Bytes, steps ++ [x] ≠ [] := fun x =>
      List.append_ne_nil_of_right_ne_nil _ (List.cons_ne_nil _ _)
    rw [List.cons_append, List.cons_append, components_ofSteps_cons fun _ => hnil _,
      components_ofSteps_cons fun _ => hnil _, List.filterMap_append, List.filterMap_append,
      List.append_assoc, List.append_assoc]
    simp [h, ofStep?_nil]

/-- A slash at the end says nothing. -/
theorem components_concat_slash {s : Bytes} (hs : s ≠ []) :
    (Path.mk (s ++ [slash])).components = (Path.mk s).components := by
  rw [components_eq_ofSteps, components_eq_ofSteps, List.splitOn_append_cons_self,
    List.splitOn_nil]
  obtain ⟨first, steps, hsteps⟩ := List.exists_cons_of_ne_nil (List.splitOn_ne_nil slash s)
  have hfirst : first = [] → steps ≠ [] := by
    -- Otherwise the only step is empty, and so is the path.
    rintro rfl rfl
    have hjoined : List.intercalate [slash] (s.splitOn slash) = s := List.intercalate_splitOn slash
    rw [hsteps] at hjoined
    exact hs hjoined.symm
  rw [hsteps, List.cons_append, components_ofSteps_cons hfirst, components_ofSteps_cons fun _ =>
    List.append_ne_nil_of_right_ne_nil _ (List.cons_ne_nil _ _), List.filterMap_append]
  simp [ofStep?_nil]

theorem components_append_slash (s : Bytes) {name : Name} (h : IsName name) :
    (Path.mk (s ++ slash :: name)).components =
      (Path.mk (s ++ [slash])).components ++ [.name name] := by
  rw [components_eq_ofSteps, components_eq_ofSteps, List.splitOn_append_cons_self,
    List.splitOn_append_cons_self, List.splitOn_eq_singleton h.2, List.splitOn_nil]
  exact components_ofSteps_concat _ h.1

/-- The path of an entry of a folder has one component more than the folder. -/
theorem components_join (p : Path) {name : Name} (h : IsName name) :
    (p.join name).components = p.components ++ [.name name] := by
  obtain ⟨s⟩ := p
  rw [join]
  split_ifs with hs
  · rcases hs with rfl | hslash
    · rw [List.nil_append, components_eq_ofSteps, List.splitOn_eq_singleton h.2]
      exact components_ofSteps_concat [] h.1
    · -- The slash at the end of the folder divides it from the name.
      obtain ⟨s, rfl⟩ := List.getLast?_eq_some_iff.1 hslash
      rw [List.append_assoc]
      exact components_append_slash s h
  · rw [components_append_slash s h, components_concat_slash fun hempty => hs (.inl hempty)]

/-- A path below another one has its components and then the names of the place. -/
theorem components_below (p : Path) {place : List Name} (h : ∀ name ∈ place, IsName name) :
    (p.below place).components = p.components ++ place.map Component.name := by
  induction place generalizing p with
  | nil => exact (List.append_nil _).symm
  | cons name place ih =>
    have hjoin := components_join p (h name List.mem_cons_self)
    rw [below, List.foldl_cons, ← below, ih _ fun n hn => h n (List.mem_cons_of_mem _ hn), hjoin,
      List.append_assoc]
    rfl

/-- A path that ends in a step which is a name leads to a file of this name. -/
theorem fileName?_of_getLast? {p : Path} {step : Bytes} {name : Bytes}
    (hlast : (p.spelling.splitOn slash).getLast? = some step)
    (h : Component.ofStep? step = some (.name name)) : p.fileName? = some name := by
  obtain ⟨steps, hsteps⟩ := List.getLast?_eq_some_iff.1 hlast
  rw [fileName?, components_eq_ofSteps, hsteps, components_ofSteps_concat steps h,
    List.getLast?_concat]

/-! ### Order -/

section Order

variable {α β : Type} {cmp : β → β → Ordering} {f : α → β}

theorem compareLex_append_left [Std.ReflCmp cmp] (cs as bs : List β) :
    List.compareLex cmp (cs ++ as) (cs ++ bs) = List.compareLex cmp as bs := by
  induction cs with
  | nil => rfl
  | cons c cs ih =>
    have hself : cmp c c = .eq := Std.ReflCmp.compare_self
    rw [List.cons_append, List.cons_append, List.compareLex_cons_cons, hself, ih]
    rfl

theorem compareLex_map_eq_eq_iff (heq : ∀ a b, cmp (f a) (f b) = .eq ↔ a = b) (as bs : List α) :
    List.compareLex cmp (as.map f) (bs.map f) = .eq ↔ as = bs := by
  induction as generalizing bs with
  | nil => cases bs <;> simp [List.compareLex]
  | cons a as ih =>
    cases bs with
    | nil => simp [List.compareLex]
    | cons b bs => simp [List.compareLex_cons_cons, Ordering.then_eq_eq, heq, ih]

/-- Lists are ordered by the first elements that differ. -/
theorem compareLex_map_eq_lt_iff [LT α] (heq : ∀ a b, cmp (f a) (f b) = .eq ↔ a = b)
    (hlt : ∀ a b, cmp (f a) (f b) = .lt ↔ a < b) (as bs : List α) :
    List.compareLex cmp (as.map f) (bs.map f) = .lt ↔ as < bs := by
  induction as generalizing bs with
  | nil => cases bs <;> simp [List.compareLex]
  | cons a as ih =>
    cases bs with
    | nil => simp [List.compareLex]
    | cons b bs =>
      simp [List.compareLex_cons_cons, Ordering.then_eq_lt, heq, hlt, ih, List.cons_lt_cons_iff]

end Order

theorem compare_toNat_eq_eq_iff (a b : UInt8) : compare a.toNat b.toNat = .eq ↔ a = b := by
  rw [Nat.compare_eq_eq, UInt8.toNat_inj]

theorem compareLex_key_eq_eq_iff (n m : Name) :
    List.compareLex compare (Component.name n).key (Component.name m).key = .eq ↔ n = m :=
  compareLex_map_eq_eq_iff compare_toNat_eq_eq_iff n m

/-- Names are ordered by their bytes. -/
theorem compareLex_key_eq_lt_iff (n m : Name) :
    List.compareLex compare (Component.name n).key (Component.name m).key = .lt ↔ n < m := by
  refine compareLex_map_eq_lt_iff compare_toNat_eq_eq_iff (fun a b => ?_) n m
  rw [Nat.compare_eq_lt, UInt8.lt_iff_toNat_lt]

theorem key_below (p : Path) {place : List Name} (h : ∀ name ∈ place, IsName name) :
    (p.below place).key = p.key ++ place.map fun name => (Component.name name).key := by
  rw [key, components_below p h, List.map_append, List.map_map]
  rfl

/-- Different places below one path have different paths in the order. -/
theorem order_below_eq_eq_iff (p : Path) {place place' : List Name}
    (h : ∀ name ∈ place, IsName name) (h' : ∀ name ∈ place', IsName name) :
    (p.below place).order (p.below place') = .eq ↔ place = place' := by
  rw [order, key_below p h, key_below p h', compareLex_append_left]
  exact compareLex_map_eq_eq_iff compareLex_key_eq_eq_iff place place'

/-- Paths below a folder are ordered by the names that lead to them from the
    folder. -/
theorem order_below_eq_lt_iff (p : Path) {place place' : List Name}
    (h : ∀ name ∈ place, IsName name) (h' : ∀ name ∈ place', IsName name) :
    (p.below place).order (p.below place') = .lt ↔ place < place' := by
  rw [order, key_below p h, key_below p h', compareLex_append_left]
  exact compareLex_map_eq_lt_iff compareLex_key_eq_eq_iff compareLex_key_eq_lt_iff place place'

/-- Of two different places below one path, the one that is not behind the other
    comes strictly before it. -/
theorem order_below_eq_lt_of_le {p : Path} {place place' : List Name}
    (h : ∀ name ∈ place, IsName name) (h' : ∀ name ∈ place', IsName name)
    (hle : (p.below place).le (p.below place') = true) (hne : place ≠ place') :
    (p.below place).order (p.below place') = .lt := by
  rw [le, Ordering.isLE_iff_eq_lt_or_eq_eq] at hle
  exact hle.resolve_right fun heq => hne ((order_below_eq_eq_iff p h h').1 heq)

theorem order_eq_compare (p q : Path) : p.order q = compare p.key q.key :=
  rfl

theorem le_trans (p q r : Path) (h : p.le q = true) (h' : q.le r = true) : p.le r = true := by
  rw [le, order_eq_compare] at *
  exact Std.TransCmp.isLE_trans h h'

theorem le_total (p q : Path) : (p.le q || q.le p) = true := by
  rw [le, le, order_eq_compare, order_eq_compare, ← Std.OrientedCmp.isGE_eq_isLE]
  cases compare q.key p.key <;> rfl

/-- Sorting by paths gives a list that is sorted by paths. -/
theorem pairwise_mergeSort {α : Type} (path : α → Path) (l : List α) :
    (l.mergeSort fun a b => (path a).le (path b)).Pairwise
      fun a b => (path a).le (path b) = true := by
  refine List.pairwise_mergeSort ?_ ?_ l
  · exact fun a b c => le_trans (path a) (path b) (path c)
  · exact fun a b => le_total (path a) (path b)

end Path

end Homonym
