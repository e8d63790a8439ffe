import Homonym.CommandLine.Run
import Homonym.Proofs.Log.Run
import Homonym.Proofs.Survey.Discovery
import Homonym.Proofs.Survey.Document
import Homonym.Proofs.Survey.Partition

/-!
# The exit status of a run

A run whose arguments can be read ends in one of three ways: there is nothing at
the root; a document is asked for that cannot be written, because a path in it is
no text; or the survey is written as a whole (`Request.carryOut_cases`). In the
first two ways the run has failed, with nothing written. In the third one it has
failed only if clashes count as failure and the survey has one, which depends on
the files that are discovered and on nothing else.

* `Request.Refused`, `Request.Objected`: the reasons for a failure;
* `run_status_exact`: the status and the output of any run.
-/

namespace Homonym

namespace CommandLine

namespace Request

/-! ### What is asked for -/

/-- The folders to stay out of are the standard ones and those of the request. -/
theorem mem_excluded_selection_iff (r : Request) {name : Text} :
    name ∈ r.selection.excluded ↔ name ∈ Selection.defaultExcluded ∨ name ∈ r.excludes :=
  Selection.mem_excluded_excludeAll_iff

theorem extensions_selection (r : Request) : r.selection.extensions = r.extensions :=
  Selection.extensions_excludeAll _ _

/-- The survey that is asked for, where there is `sight` at the root. -/
def survey (r : Request) (sight : Sight) : Survey :=
  .ofOutcomes r.root (Survey.outcomes r.selection r.root sight)

/-! ### How a request is carried out -/

/-- The events that are logged in a survey of the root, where there is `sight`. -/
def log (r : Request) (env : Environment) (sight : Sight) : List Log.Event :=
  (Log.Filter.choose env.logFilter r.flags.verbose).keep
    (Log.events r.root (Survey.outcomes r.selection r.root sight))

/-- The log is kept apart from everything else. -/
theorem carryOut_eq (r : Request) (env : Environment) (sight : Sight) :
    r.carryOut env sight =
      match Survey.ofRoot r.selection r.root sight with
      | .error failure => ⟨1, [], [], some ("Error: ".toList ++ failure.message)⟩
      | .ok survey =>
        match r.output env survey with
        | .error failure => ⟨1, [], r.log env sight, some ("Error: ".toList ++ failure.message)⟩
        | .ok output =>
          ⟨if survey.fails r.flags.failOnDuplicates then 1 else 0, output, r.log env sight,
            none⟩ := by
  rw [carryOut, Log.run_survey, Survey.ofRoot]
  cases sight.isThere <;> rfl

/-- A survey is written as a document, if one is asked for and its paths are
    texts, or as a report. -/
theorem output_cases (r : Request) (env : Environment) (s : Survey) :
    (r.flags.json = true ∧ ¬s.IsText ∧ r.output env s = .error .pathNotText) ∨
    (r.flags.json = true ∧ s.IsText ∧
      ∃ document, s.document = .ok document ∧ r.output env s = .ok (document ++ ['\n'])) ∨
    (r.flags.json = false ∧ r.output env s = .ok (Report.text (r.reportOptions env) s)) := by
  rw [output]
  cases hjson : r.flags.json with
  | false => exact .inr (.inr ⟨rfl, rfl⟩)
  | true =>
    rcases s.faithful_document with ⟨htext, document, hdocument, -⟩ | ⟨htext, herror⟩
    · exact .inr (.inl ⟨rfl, htext, document, hdocument, by rw [hdocument]; rfl⟩)
    · exact .inl ⟨rfl, htext, by rw [herror]; rfl⟩

/-- How a request is carried out: there is nothing at the root, or the survey
    cannot be written, or it is written, and then the status tells whether it
    counts as a failure. -/
theorem carryOut_cases (r : Request) (env : Environment) (sight : Sight) :
    (sight = .missing ∧ (r.carryOut env sight).status = 1 ∧
      (r.carryOut env sight).output = []) ∨
    (sight ≠ .missing ∧ (r.flags.json = true ∧ ¬(r.survey sight).IsText) ∧
      (r.carryOut env sight).status = 1 ∧ (r.carryOut env sight).output = []) ∨
    (sight ≠ .missing ∧ (r.flags.json = true → (r.survey sight).IsText) ∧
      (r.carryOut env sight).status =
        (if (r.survey sight).fails r.flags.failOnDuplicates then 1 else 0) ∧
      r.output env (r.survey sight) = .ok (r.carryOut env sight).output) := by
  by_cases hmissing : sight = .missing
  · rw [hmissing]
    exact .inl ⟨rfl, rfl, rfl⟩
  have hsurvey : Survey.ofRoot r.selection r.root sight = .ok (r.survey sight) :=
    Survey.ofRoot_of_ne_missing hmissing
  have hwritten : ∀ output, r.output env (r.survey sight) = .ok output →
      (r.carryOut env sight).status =
        (if (r.survey sight).fails r.flags.failOnDuplicates then 1 else 0) ∧
      r.output env (r.survey sight) = .ok (r.carryOut env sight).output := by
    intro output houtput
    simp only [carryOut_eq, hsurvey, houtput, true_and]
  rcases r.output_cases env (r.survey sight) with
    ⟨hjson, htext, houtput⟩ | ⟨hjson, htext, document, -, houtput⟩ | ⟨hjson, houtput⟩
  · refine .inr (.inl ⟨hmissing, ⟨hjson, htext⟩, ?_⟩)
    simp only [carryOut_eq, hsurvey, houtput, and_self]
  · exact .inr (.inr ⟨hmissing, fun _ => htext, hwritten _ houtput⟩)
  · refine .inr (.inr ⟨hmissing, fun h => ?_, hwritten _ houtput⟩)
    rw [hjson] at h
    cases h

/-! ### Reasons for a failure -/

variable (r : Request) (w : World)

/-- Nothing can be written: the root leads nowhere, or a document is asked for and
    the root or a file in the survey is no text. -/
def Refused : Prop :=
  w.target? r.root = none ∨
    r.flags.json = true ∧ ∃ survey,
      Survey.ofRoot r.selection r.root (w.look r.root) = .ok survey ∧ ¬survey.IsText

/-- Clashes count as failure, and one of the files that are discovered is a text
    with a clash. -/
def Objected : Prop :=
  r.flags.failOnDuplicates = true ∧
    ∃ file ∈ (w.look r.root).discover r.selection r.root,
      ∃ source, Utf8.encode source = file.content ∧ Source.clashes source ≠ []

variable {r w}

/-- Nothing can be written if there is nothing at the root, or if a document is
    asked for and the survey has a path that is no text. -/
theorem refused_iff : r.Refused w ↔ w.look r.root = .missing ∨
    w.look r.root ≠ .missing ∧ r.flags.json = true ∧
      ¬(r.survey (w.look r.root)).IsText := by
  rw [Refused, ← World.look_eq_missing_iff]
  by_cases hmissing : w.look r.root = .missing
  · exact ⟨fun _ => .inl hmissing, fun _ => .inl hmissing⟩
  · simp only [hmissing, false_or, Survey.ofRoot_of_ne_missing hmissing, Except.ok.injEq,
      exists_eq_left', ne_eq, not_false_eq_true, true_and]
    rfl

/-- The survey counts as a failure if and only if clashes do and a file that is
    discovered has one. -/
theorem fails_survey_iff :
    (r.survey (w.look r.root)).fails r.flags.failOnDuplicates = true ↔ r.Objected w := by
  rw [Survey.fails, Bool.and_eq_true]
  exact and_congr_right fun _ => Survey.hasClash_ofOutcomes_iff

end Request

/-! ### The status -/

/-- The status of the run that a request leads to. -/
theorem Request.status_carryOut (r : Request) (env : Environment) (w : World) :
    ((r.carryOut env (w.look r.root)).status = 1 ↔ r.Refused w ∨ r.Objected w) ∧
    ((r.carryOut env (w.look r.root)).status = 0 ↔ ¬(r.Refused w ∨ r.Objected w)) := by
  rw [refused_iff, ← fails_survey_iff]
  rcases r.carryOut_cases env (w.look r.root) with
    ⟨hmissing, hstatus, -⟩ | ⟨hthere, hrefused, hstatus, -⟩ | ⟨hthere, htext, hstatus, -⟩
  · rw [hstatus]
    simp [hmissing]
  · rw [hstatus]
    simp [hthere, hrefused]
  · -- The survey was written, so the status is about clashes alone.
    have hwritten : ¬(r.flags.json = true ∧ ¬(r.survey (w.look r.root)).IsText) :=
      fun h => h.2 (htext h.1)
    rw [hstatus]
    simp only [hthere, hwritten, and_false, false_or]
    cases (r.survey (w.look r.root)).fails r.flags.failOnDuplicates <;> decide

/-- The output of the run that a request leads to: nothing, or all of the survey in
    the form that is asked for. -/
theorem Request.output_carryOut (r : Request) (env : Environment) (w : World) :
    (r.Refused w → (r.carryOut env (w.look r.root)).output = []) ∧
    (¬r.Refused w → ∃ survey,
      Survey.ofRoot r.selection r.root (w.look r.root) = .ok survey ∧
      ((r.flags.json = true ∧ ∃ document, survey.document = .ok document ∧
          (r.carryOut env (w.look r.root)).output = document ++ ['\n']) ∨
        (r.flags.json = false ∧
          (r.carryOut env (w.look r.root)).output =
            Report.text (r.reportOptions env) survey))) := by
  rw [refused_iff]
  rcases r.carryOut_cases env (w.look r.root) with
    ⟨hmissing, -, houtput⟩ | ⟨hthere, hrefused, -, houtput⟩ | ⟨hthere, htext, -, houtput⟩
  · exact ⟨fun _ => houtput, fun h => absurd (.inl hmissing) h⟩
  · exact ⟨fun _ => houtput, fun h => absurd (.inr ⟨hthere, hrefused⟩) h⟩
  · refine ⟨fun h => ?_, fun _ => ⟨_, Survey.ofRoot_of_ne_missing hthere, ?_⟩⟩
    · rcases h with hmissing | ⟨-, hjson, hnotext⟩
      · exact absurd hmissing hthere
      · exact absurd (htext hjson) hnotext
    · rcases r.output_cases env (r.survey (w.look r.root)) with
        ⟨hjson, hnotext, -⟩ | ⟨hjson, -, document, hdocument, heq⟩ | ⟨hjson, heq⟩
      · exact absurd (htext hjson) hnotext
      · rw [houtput, Except.ok.injEq] at heq
        exact .inl ⟨hjson, document, hdocument, heq⟩
      · rw [houtput, Except.ok.injEq] at heq
        exact .inr ⟨hjson, heq⟩

/-- The status and the output of a run whose arguments can be read.

    The status is 1 if the root leads nowhere, or if a document is asked for and
    the root or a file in it is no text, or if clashes count as failure and one
    of the files that are discovered is a text with a clash. Otherwise it is 0.
    In the first two cases nothing is written; in all others the whole document
    is, and a line feed, or the whole report. The files are those selected by the
    extensions of the request, outside of the standard folders and those of the
    request. And what else is asked for, or stands in the environment, makes no
    difference to the status. -/
theorem run_status_exact (w : World) (env : Environment) {arguments : List Bytes} {r : Request}
    (hr : parse arguments = .ok r) :
    ((run env w.look arguments).status = 1 ↔ r.Refused w ∨ r.Objected w) ∧
    ((run env w.look arguments).status = 0 ↔ ¬(r.Refused w ∨ r.Objected w)) ∧
    (r.Refused w → (run env w.look arguments).output = []) ∧
    (¬r.Refused w → ∃ survey,
      Survey.ofRoot r.selection r.root (w.look r.root) = .ok survey ∧
      ((r.flags.json = true ∧ ∃ document, survey.document = .ok document ∧
          (run env w.look arguments).output = document ++ ['\n']) ∨
        (r.flags.json = false ∧
          (run env w.look arguments).output = Report.text (r.reportOptions env) survey))) ∧
    r.selection.extensions = r.extensions ∧
    (∀ name, name ∈ r.selection.excluded ↔
      name ∈ Selection.defaultExcluded ∨ name ∈ r.excludes) ∧
    ∀ env' arguments' r', parse arguments' = .ok r' → r'.root = r.root →
      r'.extensions = r.extensions → r'.excludes = r.excludes →
      r'.flags.json = r.flags.json → r'.flags.failOnDuplicates = r.flags.failOnDuplicates →
      (run env' w.look arguments').status = (run env w.look arguments).status := by
  have hrun : ∀ env' arguments' r', parse arguments' = .ok r' →
      run env' w.look arguments' = r'.carryOut env' (w.look r'.root) := by
    intro env' arguments' r' hr'
    rw [run, hr']
  obtain ⟨hone, hzero⟩ := r.status_carryOut env w
  obtain ⟨hrefused, hwritten⟩ := r.output_carryOut env w
  rw [hrun env arguments r hr]
  refine ⟨hone, hzero, hrefused, hwritten, r.extensions_selection,
    fun _ => r.mem_excluded_selection_iff, ?_⟩
  intro env' arguments' r' hr' hroot hextensions hexcludes hjson hfail
  rw [hrun env' arguments' r' hr']
  obtain ⟨hone', hzero'⟩ := r'.status_carryOut env' w
  -- The reasons for a failure are the same for both requests.
  have hsame : r'.Refused w ∨ r'.Objected w ↔ r.Refused w ∨ r.Objected w := by
    simp only [Request.Refused, Request.Objected, Request.selection, hroot, hextensions, hexcludes,
      hjson, hfail]
  by_cases hfails : r.Refused w ∨ r.Objected w
  · rw [hone.2 hfails, hone'.2 (hsame.2 hfails)]
  · rw [hzero.2 hfails, hzero'.2 fun h => hfails (hsame.1 h)]

/-- The arguments `--fail-on-duplicates ..`. -/
def strictArguments : List Bytes :=
  [Utf8.encode "--fail-on-duplicates".toList, Utf8.encode "..".toList]

/-- The request that clashes below the folder above count as failure. -/
def strictRequest : Request :=
  { root := .ofText "..".toList, extensions := ["py".toList], excludes := []
    flags := { failOnDuplicates := true } }

/-- The arguments `--json` and a path that starts at the top and is no text. -/
def rawArguments : List Bytes :=
  [Utf8.encode "--json".toList, Utf8.encode "/m/../".toList ++ [0xFF]]

/-- The request for a document on this path. -/
def rawRequest : Request :=
  { root := ⟨Utf8.encode "/m/../".toList ++ [0xFF]⟩, extensions := ["py".toList], excludes := []
    flags := { json := true } }

/-- A world with a file at this path, too. -/
def rawWorld : World where
  top := .folder [(Utf8.encode ['m'], .folder Survey.mixedFolder), ([0xFF], .file [])]
  here := []

/-- Where clashes count as failure, a run on the folder above the mixed one has
    failed, though the report is written. And so has one that asks for a document on
    a root that is no text, with nothing written, though there is something. -/
theorem run_status_strict :
    parse strictArguments = .ok strictRequest ∧ ¬strictRequest.Refused Survey.mixedWorld ∧
    (run ⟨none, true, false, false⟩ Survey.mixedWorld.look strictArguments).status = 1 ∧
    parse rawArguments = .ok rawRequest ∧ rawWorld.target? rawRequest.root ≠ none ∧
    (run ⟨none, true, false, false⟩ rawWorld.look rawArguments).status = 1 ∧
    (run ⟨none, true, false, false⟩ rawWorld.look rawArguments).output = [] := by
  have hstrict : parse strictArguments = .ok strictRequest := by decide
  have hraw : parse rawArguments = .ok rawRequest := by decide
  have hthere : rawWorld.target? rawRequest.root ≠ none := Option.some_ne_none _
  have hrefused : rawRequest.Refused rawWorld := by
    have hlook : rawWorld.look rawRequest.root ≠ .missing := fun h =>
      hthere (World.look_eq_missing_iff.1 h)
    refine .inr ⟨rfl, _, Survey.ofRoot_of_ne_missing hlook, fun htext => ?_⟩
    obtain ⟨t, ht⟩ := htext.root
    exact Utf8.decode?_eq_none_iff.1 (by decide) t ht
  obtain ⟨hone, -, hnothing, -⟩ := run_status_exact rawWorld ⟨none, true, false, false⟩ hraw
  refine ⟨hstrict, ?_, (run_status_exact Survey.mixedWorld _ hstrict).1.2 (.inr ⟨rfl, ?_⟩),
    hraw, hthere, hone.2 (.inl hrefused), hnothing hrefused⟩
  · rintro (hmissing | ⟨hjson, -⟩)
    · cases hmissing
    · cases hjson
  · refine ⟨⟨.ofText "../m/a.py".toList, Utf8.encode Survey.twiceDefined⟩, ?_,
      Survey.twiceDefined, rfl, ?_⟩
    · rw [Sight.discover, List.mem_mergeSort]
      exact List.mem_cons_self
    · decide

end CommandLine

end Homonym
