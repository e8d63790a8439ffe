import Homonym.Proofs.Survey.Discovery
import Homonym.Proofs.Survey.Partition

/-!
# Outcomes in any order

The files of a survey may be examined side by side, and then their outcomes come
in any order. The survey is the same in all of them, since what it reports is
sorted by path, and sorting leaves no choice as long as no two of the paths have
the same components (`Path.Distinct`). Different spellings are not enough: `a/b`
and `a//b` are the same to the order of paths. But the paths that are discovered
below a root do differ in their components (`distinct_discover`).

* `Survey.ofOutcomes_perm`: a survey does not depend on the order of the
  outcomes;
* `Survey.ofOutcomes_delivered`: nor does the survey of a root.
-/

namespace Homonym

namespace Path

/-- No two of the paths have the same components. -/
def Distinct (ps : List Path) : Prop :=
  ps.Pairwise fun p q => p.components ≠ q.components

instance (ps : List Path) : Decidable (Distinct ps) :=
  inferInstanceAs (Decidable (List.Pairwise _ _))

theorem Distinct.nodup {ps : List Path} (h : Distinct ps) : ps.Nodup :=
  h.imp fun hne heq => hne (congrArg components heq)

theorem Component.key_injective : Function.Injective Component.key := by
  intro c d h
  cases c with
  | root | current | parent => cases d <;> first | rfl | cases h
  | name bytes =>
    cases d with
    | root | current | parent => cases h
    | name bytes' =>
      rw [Component.key, Component.key, List.cons.injEq] at h
      rw [List.map_injective_iff.2 (fun _ _ => UInt8.toNat_inj.1) h.2]

/-- Paths that stand on one level in their order have the same components. -/
theorem order_eq_eq_iff (p q : Path) : p.order q = .eq ↔ p.components = q.components := by
  rw [order_eq_compare, Std.compare_eq_iff_eq, key, key,
    (List.map_injective_iff.2 Component.key_injective).eq_iff]

theorem components_ne_of_order_eq_lt {p q : Path} (h : p.order q = .lt) :
    p.components ≠ q.components := by
  intro heq
  rw [(order_eq_eq_iff p q).2 heq] at h
  cases h

theorem not_order_eq_lt_of_order_eq_lt {p q : Path} (h : p.order q = .lt) : q.order p ≠ .lt := by
  have hswap : q.order p = (p.order q).swap := by
    rw [order_eq_compare, order_eq_compare]
    exact Std.OrientedCmp.eq_swap
  rw [hswap, h]
  decide

variable {α : Type} {path : α → Path}

/-- Sorted by paths that are distinct, no two elements stand on one level. -/
theorem Distinct.pairwise_lt_mergeSort {l : List α} (h : Distinct (l.map path)) :
    (l.mergeSort fun a b => (path a).le (path b)).Pairwise
      fun a b => (path a).order (path b) = .lt := by
  have hne : (l.mergeSort fun a b => (path a).le (path b)).Pairwise
      fun a b => (path a).components ≠ (path b).components := by
    rw [Distinct, List.pairwise_map] at h
    exact ((List.mergeSort_perm l _).pairwise_iff Ne.symm).2 h
  refine ((pairwise_mergeSort path l).and hne).imp fun {a b} hab => ?_
  rw [le, Ordering.isLE_iff_eq_lt_or_eq_eq, order_eq_eq_iff] at hab
  exact hab.1.resolve_right hab.2

/-- What is sorted by paths that are distinct does not depend on the order it
    comes in. -/
theorem Distinct.mergeSort_eq_of_perm {l l' : List α} (h : Distinct (l.map path))
    (hperm : l.Perm l') : (l.mergeSort fun a b => (path a).le (path b)) =
      l'.mergeSort fun a b => (path a).le (path b) := by
  have h' : Distinct (l'.map path) := ((hperm.map path).pairwise_iff Ne.symm).1 h
  refine List.Perm.eq_of_pairwise ?_ h.pairwise_lt_mergeSort h'.pairwise_lt_mergeSort ?_
  · intro a b _ _ hab hba
    exact absurd hba (not_order_eq_lt_of_order_eq_lt hab)
  · exact ((List.mergeSort_perm l _).trans hperm).trans (List.mergeSort_perm l' _).symm

end Path

/-! ### The files that are discovered -/

/-- No two of the files that are discovered have paths with the same
    components. -/
theorem distinct_discover {w : World} (htop : w.top.WellFormed) (s : Selection) (root : Path) :
    Path.Distinct (((w.look root).discover s root).map SourceFile.path) := by
  cases hlook : w.look root with
  | missing | other =>
    rw [Sight.discover]
    exact List.mergeSort_nil.symm ▸ List.Pairwise.nil
  | file content =>
    rw [Sight.discover, Sight.sources]
    split
    · rw [List.mergeSort_singleton]
      exact List.pairwise_singleton _ _
    · rw [List.mergeSort_nil]
      exact List.Pairwise.nil
  | folder entries =>
    obtain ⟨found, hfound, hlt, -⟩ :=
      exists_found (World.wellFormed_of_look_folder htop hlook) s root
    rw [hfound, List.map_map, Path.Distinct, List.pairwise_map]
    exact hlt.imp fun h => Path.components_ne_of_order_eq_lt h.1

/-! ### Outcomes -/

namespace Survey

/-- The paths in a part of some outcomes are distinct if all their paths are. -/
theorem distinct_filterMap {β : Type} {part : Outcome → Option β} {path : β → Path}
    (hpath : ∀ outcome b, part outcome = some b → path b = outcome.file)
    {outcomes : List Outcome} (h : Path.Distinct (outcomes.map Outcome.file)) :
    Path.Distinct ((outcomes.filterMap part).map path) := by
  rw [Path.Distinct, List.pairwise_map, List.pairwise_filterMap]
  refine (List.pairwise_map.1 h).imp fun {o o'} hne b hb b' hb' => ?_
  rw [hpath o b hb, hpath o' b' hb']
  exact hne

/-- Outcomes of files with distinct paths make the same survey in any order. -/
theorem ofOutcomes_perm {outcomes outcomes' : List Outcome}
    (h : Path.Distinct (outcomes.map Outcome.file)) (hperm : outcomes.Perm outcomes')
    (root : Path) : ofOutcomes root outcomes = ofOutcomes root outcomes' := by
  have hclashing :=
    (distinct_filterMap (fun _ _ => Outcome.file_of_clashing?) h).mergeSort_eq_of_perm
      (hperm.filterMap Outcome.clashing?)
  have hunreadable :=
    (distinct_filterMap (fun _ _ => Outcome.file_of_failure?) h).mergeSort_eq_of_perm
      (hperm.filterMap Outcome.failure?)
  rw [ofOutcomes, ofOutcomes, ofParts, ofParts, hclashing, hunreadable, hperm.length_eq]

/-- The outcomes of a survey are those of different files. -/
theorem distinct_outcomes {w : World} (htop : w.top.WellFormed) (s : Selection) (root : Path) :
    Path.Distinct ((outcomes s root (w.look root)).map Outcome.file) := by
  have hfile : Outcome.file ∘ SourceFile.examine = SourceFile.path :=
    funext SourceFile.file_examine
  rw [outcomes, List.map_map, hfile]
  exact distinct_discover htop s root

/-- A survey does not depend on the order in which the outcomes are delivered.

    Outcomes of files whose paths differ in their components make the same survey
    in any order. The paths that are discovered at a root always differ so, and
    the survey of a root is what its outcomes make in whichever order they
    come. -/
theorem ofOutcomes_delivered :
    (∀ (root : Path) (outcomes delivered : List Outcome),
      Path.Distinct (outcomes.map Outcome.file) → delivered.Perm outcomes →
      ofOutcomes root delivered = ofOutcomes root outcomes) ∧
    ∀ w : World, w.top.WellFormed → ∀ (s : Selection) (root : Path),
      Path.Distinct (((w.look root).discover s root).map SourceFile.path) ∧
      (w.look root ≠ .missing → ∀ delivered, delivered.Perm (outcomes s root (w.look root)) →
        ofRoot s root (w.look root) = .ok (ofOutcomes root delivered)) := by
  refine ⟨fun root outcomes delivered h hperm => (ofOutcomes_perm h hperm.symm root).symm,
    fun w htop s root => ⟨distinct_discover htop s root, fun hthere delivered hperm => ?_⟩⟩
  rw [ofRoot_of_ne_missing hthere, ofOutcomes_perm (distinct_outcomes htop s root) hperm.symm]

/-- The outcome of a file of the given name that could not be read. -/
def unreadOutcome (name : Text) : Outcome :=
  .unreadable ⟨.ofText name, Unreadable.notText⟩

/-- Two outcomes delivered the other way round, and a folder seen through a link. -/
theorem delivered_swapped :
    Path.Distinct ([unreadOutcome ['a'], unreadOutcome ['b']].map Outcome.file) ∧
    ofOutcomes (.ofText ['p']) [unreadOutcome ['b'], unreadOutcome ['a']] =
      ofOutcomes (.ofText ['p']) [unreadOutcome ['a'], unreadOutcome ['b']] ∧
    sampleWorld.top.WellFormed ∧
    Path.Distinct (((sampleWorld.look (.ofText ['l'])).discover .standard (.ofText ['l'])).map
      SourceFile.path) := by
  have hdistinct : Path.Distinct ([unreadOutcome ['a'], unreadOutcome ['b']].map Outcome.file) := by
    decide
  exact ⟨hdistinct, ofOutcomes_delivered.1 _ _ _ hdistinct (.swap _ _ _), wellFormed_sampleWorld,
    (ofOutcomes_delivered.2 sampleWorld wellFormed_sampleWorld .standard (.ofText ['l'])).1⟩

end Survey

end Homonym
