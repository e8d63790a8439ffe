import Homonym.Log.Run
import Mathlib.Tactic.Common

/-!
# What a survey logs

The events of a survey are logged in three places, and apart from its result. Still
they are a list that the outcomes determine (`events`): first the number of files,
then what was found in each file that was examined, and then the warnings, as the
outcomes are gone through once more when all files are examined. Each loop adds its
events behind those that are there already, so it is enough to know what it adds to
any log (`run_mapM_examine`, `run_foldlM_collect`).

* `run_survey`: what a survey that logs comes to, and its log.
-/

namespace Homonym

namespace Log

/-- The event that an outcome is logged as. -/
def Event.ofOutcome : Outcome → Event
  | .examined findings => .examined findings
  | .unreadable failure => .unreadable failure

/-- Whether the event is a warning. -/
def Event.isWarning (e : Event) : Bool :=
  e.level = .warn

/-- The events of a survey with the given outcomes. -/
def events (root : Path) (outcomes : List Outcome) : List Event :=
  let examinations := outcomes.map Event.ofOutcome
  .discovered outcomes.length root ::
    (examinations.filter fun e => !e.isWarning) ++ examinations.filter Event.isWarning

/-! ### Where the events are logged -/

variable (log : List Event)

/-- The number of files is logged when they are discovered. -/
theorem run_discover (s : Selection) (root : Path) (sight : Sight) :
    (discover s root sight).run log =
      pure (sight.discover s root, log ++ [.discovered (sight.discover s root).length root]) :=
  rfl

/-- A file that is examined is logged, unless it could not be read. -/
theorem run_examine (f : SourceFile) : (examine f).run log =
    pure (f.examine, log ++ [Event.ofOutcome f.examine].filter fun e => !e.isWarning) := by
  rw [examine]
  cases f.examine with
  | examined findings => rfl
  | unreadable failure => exact congrArg _ (List.append_nil log).symm

/-- A file that could not be read is warned of when its outcome is collected. -/
theorem run_collect (r : Reported) (outcome : Outcome) : (collect r outcome).run log =
    pure ({ clashing := r.clashing ++ outcome.clashing?.toList
            unreadable := r.unreadable ++ outcome.failure?.toList },
      log ++ [Event.ofOutcome outcome].filter Event.isWarning) := by
  cases outcome with
  | examined findings =>
    have hquiet : [Event.ofOutcome (.examined findings)].filter Event.isWarning = [] := rfl
    rw [collect, Outcome.clashing?, Outcome.failure?, hquiet]
    cases findings.hasClash <;> simp
  | unreadable failure =>
    simp only [Outcome.clashing?, Outcome.failure?, Option.toList_none, Option.toList_some,
      List.append_nil]
    rfl

/-! ### The loops -/

/-- The files that are examined are logged in their order. -/
theorem run_mapM_examine (files : List SourceFile) : (files.mapM examine).run log =
    pure (files.map SourceFile.examine, log ++
      ((files.map SourceFile.examine).map Event.ofOutcome).filter fun e => !e.isWarning) := by
  induction files generalizing log with
  | nil => exact congrArg _ (List.append_nil log).symm
  | cons f files ih =>
    simp only [List.mapM_cons, StateT.run_bind, run_examine, pure_bind, ih, StateT.run_pure]
    rw [List.append_assoc, ← List.filter_append]
    rfl

theorem filterMap_cons_eq_append {α β : Type} (part : α → Option β) (a : α) (as : List α) :
    (a :: as).filterMap part = (part a).toList ++ as.filterMap part := by
  rw [List.filterMap_cons]
  cases part a <;> rfl

/-- The outcomes are collected in their order, and the warnings logged in the same. -/
theorem run_foldlM_collect (r : Reported) (outcomes : List Outcome) :
    (outcomes.foldlM collect r).run log =
      pure ({ clashing := r.clashing ++ outcomes.filterMap Outcome.clashing?
              unreadable := r.unreadable ++ outcomes.filterMap Outcome.failure? },
        log ++ (outcomes.map Event.ofOutcome).filter Event.isWarning) := by
  induction outcomes generalizing r log with
  | nil =>
    rw [List.filterMap_nil, List.filterMap_nil, List.append_nil, List.append_nil]
    exact congrArg _ (List.append_nil log).symm
  | cons outcome outcomes ih =>
    simp only [List.foldlM_cons, StateT.run_bind, run_collect, pure_bind, ih]
    rw [List.append_assoc, List.append_assoc, List.append_assoc, ← List.filter_append,
      filterMap_cons_eq_append, filterMap_cons_eq_append]
    rfl

/-- A survey that logs comes to the same as one that does not. If there is something
    at the root, it logs the events of the outcomes, and otherwise nothing. -/
theorem run_survey (s : Selection) (root : Path) (sight : Sight) :
    (survey s root sight).run [] = pure (Survey.ofRoot s root sight,
      if sight.isThere then events root (Survey.outcomes s root sight) else []) := by
  rw [survey, Survey.ofRoot]
  cases sight.isThere with
  | false => rfl
  | true =>
    have hlength : (sight.discover s root).length = (Survey.outcomes s root sight).length :=
      (List.length_map _).symm
    simp only [Bool.not_true, Bool.false_eq_true, if_false, if_true, StateT.run_bind, run_discover,
      pure_bind, run_mapM_examine, run_foldlM_collect, StateT.run_pure, hlength]
    rfl

end Log

end Homonym
