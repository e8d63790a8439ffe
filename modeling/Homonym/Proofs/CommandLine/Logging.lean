import Homonym.Proofs.CommandLine.Status
import Homonym.Proofs.Log.Events

/-!
# The log of a run

A run logs the events of its survey, as far as the filter lets them through: all of
them if it is verbose, and otherwise only the warnings. So the log of a verbose run
accounts for every file that is discovered, in agreement with what the survey says
of it, and the log has no influence on the rest of the run.

* `run_log_exact`: the log of a verbose run, and what is different in a run that is
  not.
-/

namespace Homonym

namespace CommandLine

namespace Request

/-- The files that are discovered for a request, where there is `sight` at the
    root. -/
def files (r : Request) (sight : Sight) : List SourceFile :=
  sight.discover r.selection r.root

/-- The same request with the files logged, or not. -/
def setVerbose (r : Request) (verbose : Bool) : Request :=
  { r with flags := { r.flags with verbose } }

variable (r : Request) {env : Environment} {sight : Sight}

/-- The survey has the files as unreadable that could not be read, in the order in
    which they are discovered. -/
theorem unreadable_survey :
    (r.survey sight).unreadable = (r.files sight).filterMap (·.examine.failure?) :=
  Survey.unreadable_ofOutcomes

theorem clashing_survey :
    (r.survey sight).clashing = (r.files sight).filterMap (·.examine.clashing?) :=
  Survey.clashing_ofOutcomes

theorem files_tally_survey : (r.survey sight).tally.files = (r.files sight).length := by
  rw [survey, Survey.tally_ofOutcomes, files]

theorem names_tally_survey :
    (r.survey sight).tally.names = ((r.survey sight).clashing.map (·.clashes.length)).sum := by
  rw [survey, Survey.tally_ofOutcomes]

/-- What is logged in a run that finds something at the root, unless the
    environment has a filter of its own. -/
theorem log_carryOut (henv : env.logFilter = none) (hthere : sight ≠ .missing) :
    (r.carryOut env sight).log =
      if r.flags.verbose then Log.events r.root ((r.files sight).map SourceFile.examine)
      else (Log.events r.root ((r.files sight).map SourceFile.examine)).filter
        Log.Event.isWarning := by
  have hlog : (r.carryOut env sight).log = r.log env sight := by
    rw [carryOut_eq, Survey.ofRoot_of_ne_missing hthere]
    dsimp only
    split <;> rfl
  rw [hlog, log, henv, ← Log.Filter.keep_standard]
  rfl

/-- Whether the files are logged has no influence on the rest of a run. -/
theorem carryOut_setVerbose (env : Environment) (sight : Sight) (verbose : Bool) :
    ((r.setVerbose verbose).carryOut env sight).output = (r.carryOut env sight).output ∧
    ((r.setVerbose verbose).carryOut env sight).status = (r.carryOut env sight).status := by
  have hsurvey : Survey.ofRoot (r.setVerbose verbose).selection (r.setVerbose verbose).root sight =
      Survey.ofRoot r.selection r.root sight := rfl
  have houtput : (r.setVerbose verbose).output env = r.output env := rfl
  rw [carryOut_eq, carryOut_eq, hsurvey, houtput]
  cases Survey.ofRoot r.selection r.root sight with
  | error failure => exact ⟨rfl, rfl⟩
  | ok survey =>
    dsimp only
    cases r.output env survey with
    | error failure | ok output => exact ⟨rfl, rfl⟩

end Request

/-- The log of a verbose run agrees with the survey, as long as the environment has
    no filter and the paths hold no control characters.

    It has one line for the number of files that are discovered, one for each file
    that is examined, with the numbers of its definitions and clashes, and one for
    each file that the survey has as unreadable, with the reason. The files that
    are examined are all the others that are discovered. The files with clashes
    are those that the survey has, and it counts as many names as the lines do. So
    each file that is discovered is named by one event, and nothing else is. In a
    run that is not verbose only the unreadable files are logged, and the output
    and the status are the same. -/
theorem run_log_exact {w : World} (htop : w.top.WellFormed) {env : Environment}
    (henv : env.logFilter = none) {arguments : List Bytes} {r : Request}
    (hr : parse arguments = .ok r) (hverbose : r.flags.verbose = true)
    (hthere : w.target? r.root ≠ none) (hroot : r.root.IsPlain)
    (hfiles : ∀ f ∈ r.files (w.look r.root), f.path.IsPlain) :
    ∃ survey, Survey.ofRoot r.selection r.root (w.look r.root) = .ok survey ∧
      (∃ examined : List (SourceFile × Text),
        examined.map Prod.fst = (r.files (w.look r.root)).filter
          (fun f => f.path ∉ survey.unreadable.map Unreadable.file) ∧
        (∀ e ∈ examined, Utf8.encode e.2 = e.1.content) ∧
        ((run env w.look arguments).log.map Log.Event.entry).Perm
          (Log.discoveredLine survey.tally.files r.root ::
            examined.map (fun e => Log.examinedLine e.1.path (Source.definitions e.2).length
              (Source.clashes e.2).length) ++
            survey.unreadable.map Log.unreadableLine) ∧
        (∀ e ∈ examined, 0 < (Source.clashes e.2).length ↔
          e.1.path ∈ survey.clashing.map Findings.file) ∧
        (examined.map fun e => (Source.clashes e.2).length).sum = survey.tally.names) ∧
      (∀ e ∈ (run env w.look arguments).log, '\n' ∉ e.entry) ∧
      (∀ file, ((run env w.look arguments).log.filterMap Log.Event.file?).count file =
        if file ∈ (r.files (w.look r.root)).map SourceFile.path then 1 else 0) ∧
      ∀ arguments', parse arguments' = .ok (r.setVerbose false) →
        ((run env w.look arguments').log.map Log.Event.entry).Perm
          (survey.unreadable.map Log.unreadableLine) ∧
        (run env w.look arguments').output = (run env w.look arguments).output ∧
        (run env w.look arguments').status = (run env w.look arguments).status := by
  have hsight : w.look r.root ≠ .missing := fun h => hthere (World.look_eq_missing_iff.1 h)
  have hdistinct : Path.Distinct ((r.files (w.look r.root)).map SourceFile.path) :=
    distinct_discover htop r.selection r.root
  have hrun : ∀ arguments' r', parse arguments' = .ok r' →
      run env w.look arguments' = r'.carryOut env (w.look r'.root) := by
    intro arguments' r' hr'
    rw [run, hr']
  have hlog : (run env w.look arguments).log =
      Log.events r.root ((r.files (w.look r.root)).map SourceFile.examine) := by
    rw [hrun _ _ hr, r.log_carryOut henv hsight, if_pos hverbose]
  refine ⟨r.survey (w.look r.root), Survey.ofRoot_of_ne_missing hsight,
    ⟨(r.files (w.look r.root)).filterMap SourceFile.read?, ?_,
      fun e he => (SourceFile.mem_and_encode_of_mem_filterMap_read? he).2, ?_, ?_, ?_⟩, ?_, ?_, ?_⟩
  · rw [r.unreadable_survey]
    exact SourceFile.map_fst_filterMap_read?_of_distinct hdistinct
  · rw [hlog, Log.map_entry_events hroot hfiles, r.unreadable_survey, r.files_tally_survey]
  · rw [r.clashing_survey]
    exact fun e he => SourceFile.clashes_pos_iff_of_distinct hdistinct he
  · rw [r.names_tally_survey, r.clashing_survey]
    exact SourceFile.sum_clashes_filterMap_read? _
  · rw [hlog]
    exact fun e he => Log.Event.newline_not_mem_entry (Log.isPlain_of_mem_events hroot hfiles e he)
  · intro file
    rw [hlog, (Log.filterMap_file?_events _ _).count_eq, hdistinct.nodup.count]
  · intro arguments' hr'
    obtain ⟨houtput, hstatus⟩ := r.carryOut_setVerbose env (w.look r.root) false
    rw [hrun _ _ hr', hrun _ _ hr]
    refine ⟨?_, houtput, hstatus⟩
    have hlog' : ((r.setVerbose false).carryOut env (w.look r.root)).log =
        (Log.events r.root ((r.files (w.look r.root)).map SourceFile.examine)).filter
          Log.Event.isWarning := (r.setVerbose false).log_carryOut henv hsight
    rw [r.unreadable_survey, ← Log.map_entry_warnings hroot hfiles, ← hlog']
    exact .refl _

/-- The arguments `-v /m`. -/
def verboseArguments : List Bytes :=
  [Utf8.encode "-v".toList, Utf8.encode "/m".toList]

/-- The request to survey the mixed folder and to log its files. -/
def verboseRequest : Request :=
  { root := .ofText "/m".toList, extensions := ["py".toList], excludes := []
    flags := { verbose := true } }

/-- All files in the folder are logged once, and without `-v` the same is written. -/
theorem run_log_mixed :
    Survey.mixedWorld.top.WellFormed ∧ parse verboseArguments = .ok verboseRequest ∧
    parse [Utf8.encode "/m".toList] = .ok (verboseRequest.setVerbose false) ∧
    Survey.mixedWorld.target? verboseRequest.root ≠ none ∧ verboseRequest.root.IsPlain ∧
    (∀ f ∈ verboseRequest.files (Survey.mixedWorld.look verboseRequest.root), f.path.IsPlain) ∧
    (∀ f ∈ verboseRequest.files (Survey.mixedWorld.look verboseRequest.root),
      ((run ⟨none, false, false, false⟩ Survey.mixedWorld.look
        verboseArguments).log.filterMap Log.Event.file?).count f.path = 1) ∧
    (run ⟨none, false, false, false⟩ Survey.mixedWorld.look [Utf8.encode "/m".toList]).output =
      (run ⟨none, false, false, false⟩ Survey.mixedWorld.look verboseArguments).output := by
  have htop : Survey.mixedWorld.top.WellFormed := by
    simp only [Survey.mixedWorld, Survey.mixedFolder, Node.WellFormed, Entries.WellFormed]
    decide
  have hr : parse verboseArguments = .ok verboseRequest := by decide
  have hr' : parse [Utf8.encode "/m".toList] = .ok (verboseRequest.setVerbose false) := by decide
  have hthere : Survey.mixedWorld.target? verboseRequest.root ≠ none := Option.some_ne_none _
  have hroot : verboseRequest.root.IsPlain := by decide
  have hsources : ∀ f ∈ (Survey.mixedWorld.look verboseRequest.root).sources
      verboseRequest.selection verboseRequest.root, f.path.IsPlain := by decide
  have hfiles : ∀ f ∈ verboseRequest.files (Survey.mixedWorld.look verboseRequest.root),
      f.path.IsPlain := fun f hf => hsources f (List.mem_mergeSort.1 hf)
  have henv : (Environment.mk none false false false).logFilter = none := rfl
  obtain ⟨survey, -, -, -, hcount, hquiet⟩ :=
    run_log_exact htop henv hr rfl hthere hroot hfiles
  refine ⟨htop, hr, hr', hthere, hroot, hfiles, fun f hf => ?_, (hquiet _ hr').2.1⟩
  rw [hcount, if_pos (List.mem_map_of_mem hf)]

end CommandLine

end Homonym
