import Homonym.Proofs.FileTree.Look
import Homonym.Proofs.Text.Utf8
import Homonym.Survey.Run
import Mathlib.Algebra.GroupWithZero.Nat

/-!
# A survey accounts for every file

A file is either no text at all, or a text with clashes, or a clean text. So a
list of files falls into three parts, each in the order of the list (`Parts`),
and in one way only (`parts_iff`). The files of a survey come sorted by path,
so that sorting the parts again changes nothing.

* `Survey.ofRoot_exact`: a survey fails exactly at a root that is not there, and
  otherwise reports two of the three parts of the files that are discovered,
  with the numbers that belong to them.
-/

namespace Homonym

/-- How a list of files falls into what is found in the files with clashes, the
    clean files, and the files that cannot be read. -/
inductive Parts : List SourceFile → List Findings → List SourceFile → List Unreadable → Prop where
  | nil : Parts [] [] [] []
  /-- The first file is a text with clashes. -/
  | clashing {files found clean failed} (file : SourceFile) (source : Text)
      (htext : Utf8.encode source = file.content) (hclash : Source.clashes source ≠ [])
      (h : Parts files found clean failed) :
      Parts (file :: files)
        (⟨file.path, (Source.definitions source).length, Source.clashes source⟩ :: found) clean
        failed
  /-- The first file is a text without clashes. -/
  | clean {files found clean failed} (file : SourceFile) (source : Text)
      (htext : Utf8.encode source = file.content) (hclash : Source.clashes source = [])
      (h : Parts files found clean failed) : Parts (file :: files) found (file :: clean) failed
  /-- The first file is no text. -/
  | unreadable {files found clean failed} (file : SourceFile)
      (htext : ∀ source, Utf8.encode source ≠ file.content)
      (h : Parts files found clean failed) :
      Parts (file :: files) found clean (⟨file.path, Unreadable.notText⟩ :: failed)

/-- Every file is in one of the parts. -/
theorem Parts.length_eq {files : List SourceFile} {found : List Findings}
    {clean : List SourceFile} {failed : List Unreadable} (h : Parts files found clean failed) :
    files.length = found.length + clean.length + failed.length := by
  induction h with
  | nil => rfl
  | clashing | clean | unreadable =>
    simp only [List.length_cons]
    omega

/-! ### Examining the files -/

/-- A file that holds the bytes of a text is examined. -/
theorem SourceFile.examine_of_encode {file : SourceFile} {source : Text}
    (h : Utf8.encode source = file.content) :
    file.examine = .examined (.ofText file.path source) := by
  rw [SourceFile.examine, Utf8.decode?_eq_some_iff.2 h]

theorem SourceFile.examine_of_no_text {file : SourceFile}
    (h : ∀ source, Utf8.encode source ≠ file.content) :
    file.examine = .unreadable ⟨file.path, Unreadable.notText⟩ := by
  rw [SourceFile.examine, Utf8.decode?_eq_none_iff.2 h]

theorem SourceFile.file_examine (file : SourceFile) : file.examine.file = file.path := by
  rw [SourceFile.examine]
  cases Utf8.decode? file.content <;> rfl

theorem Findings.hasClash_iff {f : Findings} : f.hasClash = true ↔ f.clashes ≠ [] := by
  simp [hasClash]

/-- Something is reported of what a file defines if and only if the file is a text
    with clashes. -/
theorem SourceFile.clashing?_examine_eq_some_iff {file : SourceFile} {found : Findings} :
    file.examine.clashing? = some found ↔ ∃ source, Utf8.encode source = file.content ∧
      Source.clashes source ≠ [] ∧ Findings.ofText file.path source = found := by
  constructor
  · intro h
    cases hdecode : Utf8.decode? file.content with
    | some source =>
      have htext := Utf8.decode?_eq_some_iff.1 hdecode
      rw [examine_of_encode htext, Outcome.clashing?, Option.ite_none_right_eq_some,
        Option.some.injEq] at h
      exact ⟨source, htext, Findings.hasClash_iff.1 h.1, h.2⟩
    | none =>
      rw [examine_of_no_text (Utf8.decode?_eq_none_iff.1 hdecode)] at h
      cases h
  · rintro ⟨source, htext, hclash, rfl⟩
    rw [examine_of_encode htext, Outcome.clashing?, if_pos (Findings.hasClash_iff.2 hclash)]

/-- Whether nothing is reported of a file. -/
def Outcome.isClean : Outcome → Bool
  | .examined findings => !findings.hasClash
  | .unreadable _ => false

/-- What the parts of some files are is told by examining them. -/
theorem Parts.eq_examine {files : List SourceFile} {found : List Findings}
    {clean : List SourceFile} {failed : List Unreadable} (h : Parts files found clean failed) :
    found = files.filterMap (·.examine.clashing?) ∧ clean = files.filter (·.examine.isClean) ∧
      failed = files.filterMap (·.examine.failure?) := by
  induction h with
  | nil => exact ⟨rfl, rfl, rfl⟩
  | clashing file source htext hclash h ih =>
    obtain ⟨rfl, rfl, rfl⟩ := ih
    have hhas : (Findings.ofText file.path source).hasClash = true :=
      Findings.hasClash_iff.2 hclash
    refine ⟨?_, ?_, ?_⟩
    · simp only [List.filterMap_cons, SourceFile.examine_of_encode htext, Outcome.clashing?,
        if_pos hhas]
      rfl
    · simp [SourceFile.examine_of_encode htext, Outcome.isClean, hhas]
    · simp [SourceFile.examine_of_encode htext, Outcome.failure?]
  | clean file source htext hclash h ih =>
    obtain ⟨rfl, rfl, rfl⟩ := ih
    have hhas : (Findings.ofText file.path source).hasClash = false :=
      Bool.eq_false_iff.2 fun h => Findings.hasClash_iff.1 h hclash
    refine ⟨?_, ?_, ?_⟩
    · simp [SourceFile.examine_of_encode htext, Outcome.clashing?, hhas]
    · simp [SourceFile.examine_of_encode htext, Outcome.isClean, hhas]
    · simp [SourceFile.examine_of_encode htext, Outcome.failure?]
  | unreadable file htext h ih =>
    obtain ⟨rfl, rfl, rfl⟩ := ih
    refine ⟨?_, ?_, ?_⟩
    · simp [SourceFile.examine_of_no_text htext, Outcome.clashing?]
    · simp [SourceFile.examine_of_no_text htext, Outcome.isClean]
    · simp [SourceFile.examine_of_no_text htext, Outcome.failure?]

theorem exists_parts (files : List SourceFile) :
    ∃ found clean failed, Parts files found clean failed := by
  induction files with
  | nil => exact ⟨[], [], [], .nil⟩
  | cons file files ih =>
    obtain ⟨found, clean, failed, h⟩ := ih
    by_cases htext : ∃ source, Utf8.encode source = file.content
    · obtain ⟨source, htext⟩ := htext
      by_cases hclash : Source.clashes source = []
      · exact ⟨_, _, _, .clean file source htext hclash h⟩
      · exact ⟨_, _, _, .clashing file source htext hclash h⟩
    · exact ⟨_, _, _, .unreadable file (not_exists.1 htext) h⟩

/-- Files fall into parts, and in one way only. -/
theorem parts_iff {files : List SourceFile} {found : List Findings} {clean : List SourceFile}
    {failed : List Unreadable} : Parts files found clean failed ↔
      found = files.filterMap (·.examine.clashing?) ∧ clean = files.filter (·.examine.isClean) ∧
        failed = files.filterMap (·.examine.failure?) := by
  refine ⟨Parts.eq_examine, ?_⟩
  -- There are some parts, and they can only be these.
  rintro ⟨rfl, rfl, rfl⟩
  obtain ⟨found, clean, failed, h⟩ := exists_parts files
  obtain ⟨rfl, rfl, rfl⟩ := h.eq_examine
  exact h

/-! ### Sorting the parts -/

/-- A part of some files that are sorted by path is sorted by path. -/
theorem mergeSort_filterMap_of_sorted {β : Type} {part : SourceFile → Option β} {path : β → Path}
    (hpath : ∀ file b, part file = some b → path b = file.path) {files : List SourceFile}
    (hfiles : files.Pairwise fun a b => a.path.le b.path) :
    (files.filterMap part).mergeSort (fun a b => (path a).le (path b)) = files.filterMap part := by
  refine List.mergeSort_of_pairwise (List.pairwise_filterMap.2 (hfiles.imp ?_))
  intro file file' hle b hb b' hb'
  rw [hpath file b hb, hpath file' b' hb']
  exact hle

namespace Outcome

variable {outcome : Outcome}

theorem file_of_clashing? {findings : Findings} (h : outcome.clashing? = some findings) :
    findings.file = outcome.file := by
  cases outcome with
  | examined found =>
    rw [clashing?, Option.ite_none_right_eq_some] at h
    cases h.2
    rfl
  | unreadable failed => cases h

theorem file_of_failure? {failure : Unreadable} (h : outcome.failure? = some failure) :
    failure.file = outcome.file := by
  cases outcome with
  | examined found => cases h
  | unreadable failed =>
    cases h
    rfl

end Outcome

namespace Survey

variable {s : Selection} {root : Path} {sight : Sight}

/-- The files that are discovered come sorted by path. -/
theorem pairwise_discover : (sight.discover s root).Pairwise fun a b => a.path.le b.path :=
  Path.pairwise_mergeSort SourceFile.path _

/-- Of the files that are discovered, those with clashes are reported in the
    order they were found in. -/
theorem clashing_ofOutcomes : (ofOutcomes root (outcomes s root sight)).clashing =
    (sight.discover s root).filterMap (·.examine.clashing?) := by
  dsimp only [ofOutcomes, ofParts, outcomes]
  rw [List.filterMap_map]
  exact mergeSort_filterMap_of_sorted
    (fun file _ h => (Outcome.file_of_clashing? h).trans file.file_examine) pairwise_discover

/-- Of the files that are discovered, those that cannot be read are reported in
    the order they were found in. -/
theorem unreadable_ofOutcomes : (ofOutcomes root (outcomes s root sight)).unreadable =
    (sight.discover s root).filterMap (·.examine.failure?) := by
  dsimp only [ofOutcomes, ofParts, outcomes]
  rw [List.filterMap_map]
  exact mergeSort_filterMap_of_sorted
    (fun file _ h => (Outcome.file_of_failure? h).trans file.file_examine) pairwise_discover

/-- The numbers that sum a survey up belong to what it reports. -/
theorem tally_ofOutcomes : (ofOutcomes root (outcomes s root sight)).tally =
    { files := (sight.discover s root).length
      clashing := (ofOutcomes root (outcomes s root sight)).clashing.length
      names := ((ofOutcomes root (outcomes s root sight)).clashing.map (·.clashes.length)).sum
      unreadable := (ofOutcomes root (outcomes s root sight)).unreadable.length } := by
  have hfiles : (outcomes s root sight).length = (sight.discover s root).length :=
    List.length_map _
  rw [← List.length_flatMap, ← hfiles]
  rfl

/-- A survey has a clash if and only if one of the files that are discovered is
    a text with one. -/
theorem hasClash_ofOutcomes_iff : (ofOutcomes root (outcomes s root sight)).hasClash = true ↔
    ∃ file ∈ sight.discover s root, ∃ source, Utf8.encode source = file.content ∧
      Source.clashes source ≠ [] := by
  rw [hasClash, Bool.not_eq_true', clashing_ofOutcomes, List.isEmpty_eq_false_iff_exists_mem]
  simp only [List.mem_filterMap, SourceFile.clashing?_examine_eq_some_iff]
  constructor
  · rintro ⟨found, file, hfile, source, htext, hclash, -⟩
    exact ⟨file, hfile, source, htext, hclash⟩
  · rintro ⟨file, hfile, source, htext, hclash⟩
    exact ⟨_, file, hfile, source, htext, hclash, rfl⟩

theorem ofRoot_missing : ofRoot s root .missing = .error (.missingRoot root) :=
  rfl

theorem ofRoot_of_ne_missing (h : sight ≠ .missing) :
    ofRoot s root sight = .ok (ofOutcomes root (outcomes s root sight)) := by
  cases sight with
  | missing => exact absurd rfl h
  | file | folder | other => rfl

/-- What a survey of a root in a tree comes to.

    It fails if and only if the root leads nowhere, and then names the root.
    Otherwise the files that are discovered fall into those with clashes, clean
    ones, and those that cannot be read, in one way only; the first and the last
    part are reported, and the numbers are those of the files in these parts. -/
theorem ofRoot_exact (w : World) (s : Selection) (root : Path) :
    (∀ failure, ofRoot s root (w.look root) = .error failure ↔
      w.target? root = none ∧ failure = .missingRoot root) ∧
    (w.target? root ≠ none → ∃ survey clean,
      ofRoot s root (w.look root) = .ok survey ∧ survey.root = root ∧
      (∀ found clean' failed, Parts ((w.look root).discover s root) found clean' failed ↔
        found = survey.clashing ∧ clean' = clean ∧ failed = survey.unreadable) ∧
      survey.tally =
        { files := ((w.look root).discover s root).length
          clashing := survey.clashing.length
          names := (survey.clashing.map (·.clashes.length)).sum
          unreadable := survey.unreadable.length } ∧
      survey.tally.files = survey.clashing.length + clean.length + survey.unreadable.length) := by
  refine ⟨fun failure => ?_, fun hthere => ?_⟩
  · rw [← World.look_eq_missing_iff]
    by_cases hlook : w.look root = .missing
    · rw [hlook, ofRoot_missing, Except.error.injEq, eq_comm]
      exact (and_iff_right rfl).symm
    · rw [ofRoot_of_ne_missing hlook]
      constructor
      · intro h
        cases h
      · exact fun h => absurd h.1 hlook
  · have hlook : w.look root ≠ .missing := fun h => hthere (World.look_eq_missing_iff.1 h)
    -- From here on it does not matter how the root was looked at.
    generalize w.look root = sight at hlook ⊢
    set survey := ofOutcomes root (outcomes s root sight)
    set clean := (sight.discover s root).filter (·.examine.isClean)
    have hparts : ∀ found clean' failed, Parts (sight.discover s root) found clean' failed ↔
        found = survey.clashing ∧ clean' = clean ∧ failed = survey.unreadable := by
      intro found clean' failed
      rw [parts_iff, clashing_ofOutcomes, unreadable_ofOutcomes]
    refine ⟨survey, clean, ofRoot_of_ne_missing hlook, rfl, hparts, tally_ofOutcomes, ?_⟩
    rw [tally_ofOutcomes]
    exact ((hparts _ _ _).2 ⟨rfl, rfl, rfl⟩).length_eq

/-- A text that defines `f` twice. -/
def twiceDefined : Text :=
  "def f():\ndef f():".toList

/-- A folder with a file that has a clash, a clean one, and one that is no text. -/
def mixedFolder : Entries :=
  [(Utf8.encode "a.py".toList, .file (Utf8.encode twiceDefined)),
   (Utf8.encode "b.py".toList, .file []),
   (Utf8.encode "c.py".toList, .file [0xFF])]

/-- A world with this folder, where one stands, at the top. -/
def mixedWorld : World where
  top := .folder [(Utf8.encode ['m'], .folder mixedFolder)]
  here := [Utf8.encode ['m']]

theorem discover_mixedFolder :
    (Sight.folder mixedFolder).discover .standard (.ofText "/m".toList) =
      [⟨.ofText "/m/a.py".toList, Utf8.encode twiceDefined⟩, ⟨.ofText "/m/b.py".toList, []⟩,
       ⟨.ofText "/m/c.py".toList, [0xFF]⟩] :=
  List.mergeSort_of_pairwise (by decide)

/-- Two of the three files in the folder are reported, and all are counted. -/
theorem ofRoot_exact_mixed : mixedWorld.target? (.ofText "/m".toList) ≠ none ∧
    ∃ survey, ofRoot .standard (.ofText "/m".toList)
        (mixedWorld.look (.ofText "/m".toList)) = .ok survey ∧
      survey.clashing.map Findings.file = [.ofText "/m/a.py".toList] ∧
      survey.unreadable = [⟨.ofText "/m/c.py".toList, Unreadable.notText⟩] ∧
      survey.tally = ⟨3, 1, 1, 1⟩ := by
  have hthere : mixedWorld.target? (.ofText "/m".toList) ≠ none := Option.some_ne_none _
  have hlook : mixedWorld.look (.ofText "/m".toList) = .folder mixedFolder :=
    World.look_of_target?_folder rfl
  obtain ⟨survey, clean, hok, -, hparts, htally, -⟩ :=
    (ofRoot_exact mixedWorld .standard (.ofText "/m".toList)).2 hthere
  rw [hlook, discover_mixedFolder] at hparts htally
  have hfiles := Parts.clashing ⟨.ofText "/m/a.py".toList, Utf8.encode twiceDefined⟩ twiceDefined
    rfl (by decide) (.clean ⟨.ofText "/m/b.py".toList, []⟩ [] rfl (by decide)
      (.unreadable ⟨.ofText "/m/c.py".toList, [0xFF]⟩
        (Utf8.decode?_eq_none_iff.1 (by decide)) .nil))
  obtain ⟨hclashing, -, hunreadable⟩ := (hparts _ _ _).1 hfiles
  refine ⟨hthere, survey, hok, ?_, hunreadable.symm, ?_⟩
  · rw [← hclashing]
    rfl
  · rw [htally, ← hclashing, ← hunreadable]
    decide

end Survey

end Homonym
