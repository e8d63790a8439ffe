import Homonym.Proofs.Log.Run
import Homonym.Proofs.Report.Rows
import Homonym.Proofs.Survey.Delivery

/-!
# The events of some files

The events of a survey agree with the survey itself, as both go back to the files
that are discovered. Each file is logged once: either it is read and examined, and
logged with the numbers of its definitions and clashes (`filter_examined`), or it is
unreadable and logged with the reason that the survey has (`filter_warned`).

An event is logged as one line, as long as the paths in it hold no control
characters (`Event.entry_eq_line`). The standard filter lets everything through in a
verbose run, and only the warnings in any other (`Filter.keep_standard`).

* `events_examine`: the events of some files;
* `filterMap_file?_events`: they name each of the files once;
* `map_entry_events`, `map_entry_warnings`: the lines that they are logged as.
-/

namespace Homonym

/-! ### Lines of the log -/

/-- A control character. -/
def IsControl (c : Char) : Prop :=
  c.toNat < 0x20 ∨ 0x7F ≤ c.toNat ∧ c.toNat ≤ 0x9F

instance : DecidablePred IsControl := fun c =>
  inferInstanceAs (Decidable (c.toNat < 0x20 ∨ 0x7F ≤ c.toNat ∧ c.toNat ≤ 0x9F))

/-- A path that is shown without control characters. -/
def Path.IsPlain (p : Path) : Prop :=
  ∀ c ∈ p.shown, ¬IsControl c

instance : DecidablePred Path.IsPlain := fun p =>
  List.decidableBAll (fun c => ¬IsControl c) p.shown

namespace Log

theorem not_isControl_of_printable (c : Char) (h : Report.Printable c) : ¬IsControl c := by
  have hfirst : 0x20 ≤ c.toNat := h.1
  have hlast : c.toNat ≤ 0x7E := h.2
  rw [IsControl]
  omega

theorem forall_mem_word {t : Text} (h : t.all Report.Printable = true) : ∀ c ∈ t, ¬IsControl c :=
  Report.forall_mem_word not_isControl_of_printable h

theorem forall_mem_ofNat (n : Nat) : ∀ c ∈ Text.ofNat n, ¬IsControl c :=
  Report.forall_mem_ofNat not_isControl_of_printable n

/-- The line for the files discovered at a root. -/
def discoveredLine (files : Nat) (root : Path) : Text :=
  "DEBUG Discovered ".toList ++ Text.ofNat files ++ " file(s) under ".toList ++ root.shown

/-- The line for a file with so many definitions and names defined more than
    once. -/
def examinedLine (file : Path) (definitions clashes : Nat) : Text :=
  "DEBUG ".toList ++ file.shown ++ ": ".toList ++ Text.ofNat definitions ++
    " function(s), ".toList ++ Text.ofNat clashes ++ " duplicate name(s)".toList

/-- The line for a file that could not be read. -/
def unreadableLine (u : Unreadable) : Text :=
  "WARN Error reading file ".toList ++ u.file.shown ++ ": ".toList ++ u.reason

namespace Event

/-- The file that an event is about, if it is about one. -/
def file? : Event → Option Path
  | .discovered .. => none
  | .examined findings => some findings.file
  | .unreadable failure => some failure.file

/-- The line that an event is logged as. -/
def line : Event → Text
  | .discovered files root => discoveredLine files root
  | .examined findings =>
    examinedLine findings.file findings.definitions findings.clashes.length
  | .unreadable failure => unreadableLine failure

/-- An event whose message holds no control characters. -/
def IsPlain (e : Event) : Prop :=
  ∀ c ∈ e.message, ¬IsControl c

theorem written_of_not_isControl {c : Char} (h : ¬IsControl c) : written c = [c] := by
  have hall : ['\x07', '\x08', '\x0c', '\x1b', '\x7f'].all IsControl = true := by decide
  have hupper : ¬(0x80 ≤ c.toNat ∧ c.toNat ≤ 0x9F) := by
    rw [IsControl] at h
    omega
  rw [written, if_neg fun hmem => h (of_decide_eq_true (List.all_eq_true.1 hall c hmem)),
    if_neg hupper]

/-- The entry of an event without control characters is its level and its message. -/
theorem entry_of_isPlain {e : Event} (h : e.IsPlain) :
    e.entry = e.level.label ++ ' ' :: e.message := by
  have hmessage : e.message.flatMap written = e.message := by
    calc e.message.flatMap written
        = e.message.flatMap fun c => [c] :=
          List.flatMap_congr fun c hc => written_of_not_isControl (h c hc)
      _ = e.message := List.flatMap_singleton' _
  rw [entry, hmessage]

/-- A message without control characters is logged as it is. -/
theorem entry_eq_line {e : Event} (h : e.IsPlain) : e.entry = e.line := by
  rw [entry_of_isPlain h]
  cases e with
  | discovered | examined | unreadable => rfl

theorem newline_not_mem_entry {e : Event} (h : e.IsPlain) : '\n' ∉ e.entry := by
  have hlabel : ∀ level : Level, '\n' ∉ level.label := by
    intro level
    cases level <;> decide
  rw [entry_of_isPlain h, List.mem_append, List.mem_cons]
  rintro (hmem | heq | hmem)
  · exact hlabel _ hmem
  · cases heq
  · exact h _ hmem (by decide)

theorem isPlain_discovered {root : Path} (h : root.IsPlain) (files : Nat) :
    (discovered files root).IsPlain := by
  change ∀ c ∈ "Discovered ".toList ++ Text.ofNat files ++ " file(s) under ".toList ++ root.shown,
    ¬IsControl c
  simp only [List.forall_mem_append]
  exact ⟨⟨⟨forall_mem_word (by decide), forall_mem_ofNat _⟩, forall_mem_word (by decide)⟩, h⟩

theorem isPlain_examined {findings : Findings} (h : findings.file.IsPlain) :
    (examined findings).IsPlain := by
  change ∀ c ∈ findings.file.shown ++ ": ".toList ++ Text.ofNat findings.definitions ++
    " function(s), ".toList ++ Text.ofNat findings.clashes.length ++
    " duplicate name(s)".toList, ¬IsControl c
  simp only [List.forall_mem_append]
  exact ⟨⟨⟨⟨⟨h, forall_mem_word (by decide)⟩, forall_mem_ofNat _⟩, forall_mem_word (by decide)⟩,
    forall_mem_ofNat _⟩, forall_mem_word (by decide)⟩

theorem isPlain_unreadable {file : Path} (h : file.IsPlain) :
    (unreadable ⟨file, Unreadable.notText⟩).IsPlain := by
  change ∀ c ∈ "Error reading file ".toList ++ file.shown ++ ": ".toList ++ Unreadable.notText,
    ¬IsControl c
  simp only [List.forall_mem_append]
  exact ⟨⟨⟨forall_mem_word (by decide), h⟩, forall_mem_word (by decide)⟩,
    forall_mem_word (by decide)⟩

/-- The event of a file is written without control characters if its path is. -/
theorem isPlain_ofOutcome {f : SourceFile} (h : f.path.IsPlain) :
    (ofOutcome f.examine).IsPlain := by
  rw [SourceFile.examine]
  cases Utf8.decode? f.content with
  | some source => exact isPlain_examined h
  | none => exact isPlain_unreadable h

end Event

/-! ### What the standard filter lets through -/

/-- The standard filter asks only how serious an event is, and not where it comes
    from. -/
theorem Filter.admits_standard (verbose : Bool) (target : Text) (fields : List Text)
    (level : Level) : (standard verbose).admits target fields level =
      decide (level.detail ≤ (if verbose then Level.debug else Level.warn).detail) := by
  cases verbose <;> rfl

/-- A verbose run logs all events, and any other run the warnings. -/
theorem Filter.keep_standard (verbose : Bool) (events : List Event) :
    (standard verbose).keep events =
      if verbose then events else events.filter Event.isWarning := by
  simp only [keep, admits_standard]
  cases verbose with
  | false =>
    refine List.filter_congr fun e _ => ?_
    cases e <;> rfl
  | true =>
    refine List.filter_eq_self.2 fun e _ => ?_
    cases e <;> rfl

end Log

/-! ### Files that are read -/

namespace SourceFile

/-- A file with the text that it holds, if it holds one. -/
def read? (f : SourceFile) : Option (SourceFile × Text) :=
  (Utf8.decode? f.content).map fun source => (f, source)

/-- A file is either read and examined, or unreadable. -/
theorem examine_cases (f : SourceFile) :
    (∃ source, Utf8.encode source = f.content ∧ f.read? = some (f, source) ∧
      f.examine = .examined (.ofText f.path source)) ∨
    (f.read? = none ∧ f.examine = .unreadable ⟨f.path, Unreadable.notText⟩) := by
  rw [read?, examine]
  cases hdecode : Utf8.decode? f.content with
  | some source => exact .inl ⟨source, Utf8.decode?_eq_some_iff.1 hdecode, rfl, rfl⟩
  | none => exact .inr ⟨rfl, rfl⟩

theorem read?_eq_some_iff {f g : SourceFile} {source : Text} :
    f.read? = some (g, source) ↔ f = g ∧ Utf8.encode source = f.content := by
  rw [read?, Option.map_eq_some_iff]
  simp only [Prod.mk.injEq, Utf8.decode?_eq_some_iff]
  constructor
  · rintro ⟨source, htext, rfl, rfl⟩
    exact ⟨rfl, htext⟩
  · rintro ⟨rfl, htext⟩
    exact ⟨source, htext, rfl, rfl⟩

variable (files : List SourceFile)

/-- The files that are read are those that are not unreadable. -/
theorem map_fst_filterMap_read? : (files.filterMap read?).map Prod.fst =
    files.filter fun f => f.examine.failure?.isNone := by
  induction files with
  | nil => rfl
  | cons f files ih =>
    rcases f.examine_cases with ⟨source, -, hread, hexamine⟩ | ⟨hread, hexamine⟩
    · rw [List.filterMap_cons_some hread, List.map_cons, ih,
        List.filter_cons_of_pos (by rw [hexamine]; rfl)]
    · rw [List.filterMap_cons_none hread, ih,
        List.filter_cons_of_neg (by rw [hexamine]; exact Bool.false_ne_true)]

/-- The clean files make no difference to the number of clashes. -/
theorem sum_clashes_filterMap_read? :
    ((files.filterMap read?).map fun e => (Source.clashes e.2).length).sum =
      ((files.filterMap (·.examine.clashing?)).map (·.clashes.length)).sum := by
  induction files with
  | nil => rfl
  | cons f files ih =>
    rcases f.examine_cases with ⟨source, -, hread, hexamine⟩ | ⟨hread, hexamine⟩
    · by_cases hclash : (Findings.ofText f.path source).hasClash = true
      · have hsome : f.examine.clashing? = some (.ofText f.path source) := by
          rw [hexamine, Outcome.clashing?, if_pos hclash]
        simp only [List.filterMap_cons, hread, hsome, List.map_cons, List.sum_cons, ih]
        rfl
      · have hnone : f.examine.clashing? = none := by
          rw [hexamine, Outcome.clashing?, if_neg hclash]
        have hclean : Source.clashes source = [] :=
          not_not.1 fun h => hclash (Findings.hasClash_iff.2 h)
        simp only [List.filterMap_cons, hread, hnone, List.map_cons, List.sum_cons, hclean,
          List.length_nil, Nat.zero_add, ih]
    · simp only [List.filterMap_cons, hread, hexamine, Outcome.clashing?, ih]

/-- Of files with distinct paths, the path says whether a file is in a part of
    them. -/
theorem path_mem_filterMap_iff {β : Type} {part : SourceFile → Option β} {path : β → Path}
    (hpath : ∀ f b, part f = some b → path b = f.path) {files : List SourceFile}
    (h : Path.Distinct (files.map SourceFile.path)) {f : SourceFile} (hf : f ∈ files) :
    f.path ∈ (files.filterMap part).map path ↔ part f ≠ none := by
  constructor
  · intro hmem
    obtain ⟨b, hb, hpathb⟩ := List.mem_map.1 hmem
    obtain ⟨g, hg, hpart⟩ := List.mem_filterMap.1 hb
    have heq : g.path = f.path := (hpath g b hpart).symm.trans hpathb
    rw [← List.inj_on_of_nodup_map h.nodup hg hf heq, hpart]
    exact Option.some_ne_none b
  · intro hpart
    obtain ⟨b, hb⟩ := Option.ne_none_iff_exists'.1 hpart
    exact List.mem_map.2 ⟨b, List.mem_filterMap.2 ⟨f, hf, hb⟩, hpath f b hb⟩

/-- The file that was read, and its text. -/
theorem mem_and_encode_of_mem_filterMap_read? {files : List SourceFile} {e : SourceFile × Text}
    (he : e ∈ files.filterMap read?) : e.1 ∈ files ∧ Utf8.encode e.2 = e.1.content := by
  obtain ⟨f, hf, hread⟩ := List.mem_filterMap.1 he
  obtain ⟨rfl, htext⟩ := read?_eq_some_iff.1 hread
  exact ⟨hf, htext⟩

variable {files} (h : Path.Distinct (files.map SourceFile.path))
include h

/-- The files that are read are those whose paths are not among the unreadable
    ones. -/
theorem map_fst_filterMap_read?_of_distinct : (files.filterMap read?).map Prod.fst =
    files.filter fun f => f.path ∉ (files.filterMap (·.examine.failure?)).map Unreadable.file := by
  rw [map_fst_filterMap_read?]
  refine List.filter_congr fun f hf => ?_
  rw [Bool.eq_iff_iff, decide_eq_true_iff, path_mem_filterMap_iff
    (fun f _ hfailure => (Outcome.file_of_failure? hfailure).trans f.file_examine) h hf, not_not,
    Option.isNone_iff_eq_none]

/-- A file that is read has clashes if and only if its path is among those of the
    files with clashes. -/
theorem clashes_pos_iff_of_distinct {e : SourceFile × Text} (he : e ∈ files.filterMap read?) :
    0 < (Source.clashes e.2).length ↔
      e.1.path ∈ (files.filterMap (·.examine.clashing?)).map Findings.file := by
  obtain ⟨hf, htext⟩ := mem_and_encode_of_mem_filterMap_read? he
  rw [path_mem_filterMap_iff
    (fun f _ hclashing => (Outcome.file_of_clashing? hclashing).trans f.file_examine) h hf,
    examine_of_encode htext, Outcome.clashing?, ite_ne_right_iff,
    and_iff_left (Option.some_ne_none _), Findings.hasClash_iff, List.length_pos_iff]
  rfl

end SourceFile

/-! ### Events of files -/

namespace Log

variable (root : Path) (files : List SourceFile)

/-- The files that are texts are examined. -/
theorem filter_examined : ((files.map SourceFile.examine).map Event.ofOutcome).filter
    (fun e => !e.isWarning) =
      (files.filterMap SourceFile.read?).map fun e => .examined (.ofText e.1.path e.2) := by
  induction files with
  | nil => rfl
  | cons f files ih =>
    rcases f.examine_cases with ⟨source, -, hread, hexamine⟩ | ⟨hread, hexamine⟩
    · rw [List.filterMap_cons_some hread, List.map_cons, List.map_cons, hexamine,
        List.filter_cons_of_pos rfl, ih]
      rfl
    · rw [List.filterMap_cons_none hread, List.map_cons, List.map_cons, hexamine,
        List.filter_cons_of_neg Bool.false_ne_true, ih]

/-- The files that cannot be read are warned of. -/
theorem filter_warned : ((files.map SourceFile.examine).map Event.ofOutcome).filter
    Event.isWarning = (files.filterMap (·.examine.failure?)).map .unreadable := by
  induction files with
  | nil => rfl
  | cons f files ih =>
    rcases f.examine_cases with ⟨source, -, -, hexamine⟩ | ⟨-, hexamine⟩
    · rw [List.map_cons, List.map_cons, hexamine, List.filter_cons_of_neg Bool.false_ne_true, ih,
        List.filterMap_cons_none (by rw [hexamine]; rfl)]
    · rw [List.map_cons, List.map_cons, hexamine, List.filter_cons_of_pos rfl, ih,
        List.filterMap_cons_some (by rw [hexamine]; rfl)]
      rfl

/-- The events of a survey by the files that are discovered: their number, the files
    that are texts, and the others. -/
theorem events_examine : events root (files.map SourceFile.examine) =
    .discovered files.length root ::
      (files.filterMap SourceFile.read?).map (fun e => .examined (.ofText e.1.path e.2)) ++
        (files.filterMap (·.examine.failure?)).map .unreadable := by
  rw [events, filter_examined, filter_warned, List.length_map]

/-- The warnings among the events of some files. -/
theorem filter_isWarning_events :
    (events root (files.map SourceFile.examine)).filter Event.isWarning =
      (files.filterMap (·.examine.failure?)).map .unreadable := by
  have hnone : ((files.filterMap SourceFile.read?).map fun e =>
      Event.examined (.ofText e.1.path e.2)).filter Event.isWarning = [] := by
    rw [List.filter_eq_nil_iff, List.forall_mem_map]
    exact fun _ _ => Bool.false_ne_true
  have hall : ((files.filterMap (·.examine.failure?)).map Event.unreadable).filter
      Event.isWarning = (files.filterMap (·.examine.failure?)).map Event.unreadable := by
    rw [List.filter_eq_self, List.forall_mem_map]
    exact fun _ _ => rfl
  rw [events_examine, List.cons_append, List.filter_cons_of_neg Bool.false_ne_true,
    List.filter_append, hnone, hall, List.nil_append]

/-- Each of the files has one event. -/
theorem events_examine_perm : (events root (files.map SourceFile.examine)).Perm
    (.discovered files.length root :: files.map fun f => .ofOutcome f.examine) := by
  rw [events, List.length_map, List.cons_append, List.map_map]
  exact (List.perm_append_comm.trans (List.filter_append_perm _ _)).cons _

/-- The events of some files name each of them once. -/
theorem filterMap_file?_events :
    ((events root (files.map SourceFile.examine)).filterMap Event.file?).Perm
      (files.map SourceFile.path) := by
  have hfile : ∀ f : SourceFile, (Event.ofOutcome f.examine).file? = some f.path := by
    intro f
    rw [← f.file_examine]
    cases f.examine <;> rfl
  refine ((events_examine_perm root files).filterMap Event.file?).trans (.of_eq ?_)
  rw [List.filterMap_cons_none rfl, List.filterMap_map, ← List.filterMap_eq_map]
  exact List.filterMap_congr fun f _ => hfile f

variable {root files}

/-- The events of plain files at a plain root are written without control
    characters. -/
theorem isPlain_of_mem_events (hroot : root.IsPlain) (hfiles : ∀ f ∈ files, f.path.IsPlain) :
    ∀ e ∈ events root (files.map SourceFile.examine), e.IsPlain := by
  intro e he
  rcases List.mem_cons.1 ((events_examine_perm root files).mem_iff.1 he) with rfl | he
  · exact Event.isPlain_discovered hroot _
  · obtain ⟨f, hf, rfl⟩ := List.mem_map.1 he
    exact Event.isPlain_ofOutcome (hfiles f hf)

/-- The lines of the log, if no path holds a control character. -/
theorem map_entry_events (hroot : root.IsPlain) (hfiles : ∀ f ∈ files, f.path.IsPlain) :
    (events root (files.map SourceFile.examine)).map Event.entry =
      discoveredLine files.length root ::
        (files.filterMap SourceFile.read?).map (fun e => examinedLine e.1.path
          (Source.definitions e.2).length (Source.clashes e.2).length) ++
        (files.filterMap (·.examine.failure?)).map unreadableLine := by
  rw [List.map_congr_left fun e he =>
    Event.entry_eq_line (isPlain_of_mem_events hroot hfiles e he), events_examine, List.map_append,
    List.map_cons, List.map_map, List.map_map]
  rfl

/-- The lines of the log with nothing but warnings, if no path holds a control
    character. -/
theorem map_entry_warnings (hroot : root.IsPlain) (hfiles : ∀ f ∈ files, f.path.IsPlain) :
    ((events root (files.map SourceFile.examine)).filter Event.isWarning).map Event.entry =
      (files.filterMap (·.examine.failure?)).map unreadableLine := by
  rw [List.map_congr_left fun e he => Event.entry_eq_line
    (isPlain_of_mem_events hroot hfiles e (List.mem_of_mem_filter he)), filter_isWarning_events,
    List.map_map]
  rfl

end Log

end Homonym
