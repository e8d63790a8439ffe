import Homonym.Proofs.Survey.Discovery

/-!
# Staying out of more folders

Names are added to the excluded ones one by one, and a name that is there already
is not added again. While the list grows, the names to come are compared with a
longer one each time; what comes out is all the same the old list with the new
names of the others behind it, each once and in the order in which they first
come (`excluded_excludeAll`). So excluding is a union of sets that keeps the
order of the names.

For discovery only the sets matter. It asks of a name whether it is excluded or
has one of the extensions, never where in the lists that is said.

* `Selection.excludeAll_append`: excluding in two goes;
* `discover_congr`: selections with the same sets discover the same files;
* `Selection.excludeAll_exact`: what excluding some names comes to.
-/

namespace Homonym

namespace Selection

/-! ### The list of names -/

theorem exclude_of_mem {s : Selection} {name : Text} (h : name ∈ s.excluded) :
    s.exclude name = s := by
  rw [exclude, if_pos h]

theorem excluded_exclude_of_not_mem {s : Selection} {name : Text} (h : name ∉ s.excluded) :
    (s.exclude name).excluded = s.excluded ++ [name] := by
  rw [exclude, if_neg h]

theorem excludes_iff {s : Selection} {name : Text} : s.excludes name = true ↔ name ∈ s.excluded :=
  List.contains_iff_mem

/-- The names of a list that are not excluded yet, each once, in the order in
    which they first come. -/
def fresh (s : Selection) (names : List Text) : List Text :=
  (names.filter fun name => !s.excludes name).eraseDups

/-- The names that are new are those not excluded yet, each once, in the order in
    which they are first given. -/
theorem fresh_eq (s : Selection) (names : List Text) :
    s.fresh names = (names.filter (· ∉ s.excluded)).eraseDups := by
  have hfresh : ∀ name, (!s.excludes name) = decide (name ∉ s.excluded) := by
    intro name
    rw [Bool.eq_iff_iff, Bool.not_eq_true', ← Bool.not_eq_true, excludes_iff, decide_eq_true_iff]
  rw [fresh, funext hfresh]

/-- After a new name, the names still to come are those that differ from it. -/
theorem fresh_cons_of_not_mem {s : Selection} {name : Text} (h : name ∉ s.excluded)
    (names : List Text) : s.fresh (name :: names) = name :: (s.exclude name).fresh names := by
  rw [fresh_eq, fresh_eq, List.filter_cons_of_pos (by simpa using h), List.eraseDups_cons,
    List.filter_filter, excluded_exclude_of_not_mem h]
  congr 3
  funext other
  rw [Bool.eq_iff_iff]
  simp [and_comm]

theorem fresh_cons_of_mem {s : Selection} {name : Text} (h : name ∈ s.excluded)
    (names : List Text) : s.fresh (name :: names) = s.fresh names := by
  rw [fresh_eq, fresh_eq, List.filter_cons_of_neg (by simpa using h)]

/-- The excluded names are the old ones and, behind them, the fresh ones. -/
theorem excluded_excludeAll (s : Selection) (names : List Text) :
    (s.excludeAll names).excluded = s.excluded ++ s.fresh names := by
  induction names generalizing s with
  | nil => exact (List.append_nil _).symm
  | cons name names ih =>
    rw [excludeAll, List.foldl_cons, ← excludeAll, ih]
    by_cases h : name ∈ s.excluded
    · rw [exclude_of_mem h, fresh_cons_of_mem h]
    · rw [excluded_exclude_of_not_mem h, fresh_cons_of_not_mem h, List.append_assoc,
        List.singleton_append]

/-! ### Excluding in several goes -/

/-- Names can be excluded in several goes. -/
theorem excludeAll_append (s : Selection) (names names' : List Text) :
    s.excludeAll (names ++ names') = (s.excludeAll names).excludeAll names' :=
  List.foldl_append

theorem excludeAll_of_subset {s : Selection} {names : List Text} (h : names ⊆ s.excluded) :
    s.excludeAll names = s := by
  induction names with
  | nil => rfl
  | cons name names ih =>
    rw [List.cons_subset] at h
    rw [excludeAll, List.foldl_cons, ← excludeAll, exclude_of_mem h.1, ih h.2]

theorem subset_excluded_excludeAll (s : Selection) (names : List Text) :
    names ⊆ (s.excludeAll names).excluded :=
  fun _ hname => mem_excluded_excludeAll_iff.2 (.inr hname)

/-! ### The sets of names -/

/-- Both selections have the same extensions and stay out of the same folders,
    in whatever order and how often their lists name them. -/
structure Agrees (s s' : Selection) : Prop where
  extensions : ∀ e, e ∈ s.extensions ↔ e ∈ s'.extensions
  excluded : ∀ name, name ∈ s.excluded ↔ name ∈ s'.excluded

variable {s s' : Selection}

theorem Agrees.matches_iff (h : s.Agrees s') (name : Name) : s.Matches name ↔ s'.Matches name := by
  simp only [Matches, h.extensions]

theorem Agrees.avoids_iff (h : s.Agrees s') (name : Name) : s.Avoids name ↔ s'.Avoids name := by
  simp only [Avoids, h.excluded]

theorem Agrees.wants_eq (h : s.Agrees s') : s.wants = s'.wants := by
  funext name
  rw [Bool.eq_iff_iff, wants_iff, wants_iff, h.matches_iff]

theorem Agrees.admits_eq (h : s.Agrees s') : s.admits = s'.admits := by
  funext place
  rw [Bool.eq_iff_iff, admits_iff, admits_iff]
  simp only [h.matches_iff, h.avoids_iff]

end Selection

/-- Selections with the same sets of names discover the same files. -/
theorem discover_congr {s s' : Selection} (h : s.Agrees s') (root : Path) (sight : Sight) :
    sight.discover s root = sight.discover s' root := by
  have hsources : sight.sources s root = sight.sources s' root := by
    cases sight with
    | missing | other => rfl
    | file content => rw [Sight.sources, Sight.sources, h.wants_eq]
    | folder entries =>
      rw [Sight.sources, Sight.sources, Entries.sources_eq, Entries.sources_eq, h.admits_eq]
  rw [Sight.discover, Sight.discover, hsources]

namespace Selection

/-- Excluding some names is a union of sets that keeps their order.

    The excluded names are the old list and behind it the distinct names that are
    not in it, in the order in which they first come; the extensions stay. A
    folder is excluded if it was before or has one of the names. To exclude names
    in two goes is to exclude them in one; to exclude them again, or any names
    that are excluded already, changes nothing. And in any tree, the files that
    are discovered depend only on which names and extensions the two lists
    have. -/
theorem excludeAll_exact (s : Selection) (names names' : List Text) :
    (s.excludeAll names).excluded =
      s.excluded ++ (names.filter (· ∉ s.excluded)).eraseDups ∧
    (s.excludeAll names).extensions = s.extensions ∧
    (∀ name, (s.excludeAll names).excludes name = true ↔
      s.excludes name = true ∨ name ∈ names) ∧
    (s.excludeAll names).excludeAll names' = s.excludeAll (names ++ names') ∧
    (s.excludeAll names).excludeAll names = s.excludeAll names ∧
    (names' ⊆ s.excluded → s.excludeAll names' = s) ∧
    ∀ s' : Selection, (∀ name, name ∈ s.excluded ↔ name ∈ s'.excluded) →
      (∀ e, e ∈ s.extensions ↔ e ∈ s'.extensions) → ∀ (w : World) (root : Path),
        (w.look root).discover s root = (w.look root).discover s' root := by
  refine ⟨s.fresh_eq names ▸ excluded_excludeAll s names, extensions_excludeAll s names,
    fun name => ?_,
    (excludeAll_append s names names').symm,
    excludeAll_of_subset (subset_excluded_excludeAll s names), excludeAll_of_subset,
    fun s' hexcluded hextensions w root => discover_congr ⟨hextensions, hexcluded⟩ root _⟩
  rw [excludes_iff, excludes_iff, mem_excluded_excludeAll_iff]

/-- A name that is given twice is added once, one of the standard names not at
    all; and the standard names discover the same files the other way round. -/
theorem excludeAll_exact_standard :
    (standard.excludeAll ["build".toList, "venv".toList, "build".toList]).excluded =
      defaultExcluded ++ ["build".toList] ∧
    standard.excludeAll ["venv".toList] = standard ∧
    ∀ (w : World) (root : Path), (w.look root).discover standard root =
      (w.look root).discover ⟨["py".toList, "py".toList], defaultExcluded.reverse⟩ root := by
  obtain ⟨hexcluded, -, -, -, -, hsame, hsets⟩ := excludeAll_exact standard
    ["build".toList, "venv".toList, "build".toList] ["venv".toList]
  refine ⟨hexcluded.trans (by decide), hsame (by decide), hsets _ (fun name => ?_) fun e => ?_⟩
  · exact List.mem_reverse.symm
  · simp [standard, defaultExtensions]

end Selection

end Homonym
