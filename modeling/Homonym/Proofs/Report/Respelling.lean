import Homonym.Proofs.Source.Layout
import Homonym.Proofs.Survey.Partition
import Homonym.Proofs.Survey.Shown
import Homonym.Report.Basic

/-!
# A folder by another name

The files that are discovered carry the root in their paths as it was spelled, so
two surveys of one folder differ wherever a path stands. But they find the files
at the same places, and in the same order, since files are ordered by their places
below the root (`discover_respelled`). And a report shows of each file only the
way to it from the root. So all that is left of the root in a report is the row
at its head, which names it.

* `Survey.Respelled`: two surveys are the same but for the root in their paths;
* `Report.rows_respelled`: their reports differ in the first row only;
* `Report.text_respelled`: the surveys and the reports of one folder;
* `Report.below_first_line_differs`: a root whose name breaks the first row in two.
-/

namespace Homonym

/-! ### Files at one place -/

/-- Two paths lead to the same place, one from the root `p` and the other one from
    `q`. -/
def Path.SamePlace (p q file file' : Path) : Prop :=
  ∃ place, place ≠ [] ∧ (∀ name ∈ place, IsName name) ∧ file = p.below place ∧
    file' = q.below place

/-- What is shown of a file below the root depends on its place alone. -/
theorem Path.SamePlace.shownBelow_eq {p q file file' : Path} (h : p.SamePlace q file file') :
    file.shownBelow p = file'.shownBelow q := by
  obtain ⟨place, hne, hnames, rfl, rfl⟩ := h
  rw [Path.shownBelow_below p hne hnames, Path.shownBelow_below q hne hnames]

/-- The same file, found from the root `p` and from `q`. -/
def SourceFile.Respelled (p q : Path) (f g : SourceFile) : Prop :=
  p.SamePlace q f.path g.path ∧ f.content = g.content

/-- The same findings in a file that was found from the root `p` and from `q`. -/
def Findings.Respelled (p q : Path) (f g : Findings) : Prop :=
  p.SamePlace q f.file g.file ∧ f.definitions = g.definitions ∧ f.clashes = g.clashes

/-- The same failure to read a file that was found from the root `p` and from
    `q`. -/
def Unreadable.Respelled (p q : Path) (u v : Unreadable) : Prop :=
  p.SamePlace q u.file v.file ∧ u.reason = v.reason

/-- In a folder, the same files are discovered from any root, in the same
    order. -/
theorem discover_respelled {entries : Entries} (h : (Node.folder entries).WellFormed)
    (s : Selection) (p q : Path) :
    List.Forall₂ (SourceFile.Respelled p q) ((Sight.folder entries).discover s p)
      ((Sight.folder entries).discover s q) := by
  obtain ⟨found, hfound, hlt, hmem⟩ := exists_found h s p
  obtain ⟨found', hfound', hlt', hmem'⟩ := exists_found h s q
  have hequal : found = found' := by
    refine eq_of_pairwise_place (hlt.imp And.right) (hlt'.imp And.right) fun f => ?_
    rw [hmem f.1 f.2, hmem' f.1 f.2]
  rw [hfound, hfound', ← hequal, List.forall₂_map_left_iff, List.forall₂_map_right_iff,
    List.forall₂_same]
  rintro ⟨place, content⟩ hplace
  have hreaches := ((hmem place content).1 hplace).2
  exact ⟨⟨place, hreaches.ne_nil, h.isName hreaches, rfl, rfl⟩, rfl⟩

/-! ### Surveys of one folder -/

namespace SourceFile

variable {p q : Path} {f g : SourceFile}

/-- What clashes in a file does not depend on the root. -/
theorem Respelled.clashing? (h : Respelled p q f g) :
    Option.Rel (Findings.Respelled p q) f.examine.clashing? g.examine.clashing? := by
  rw [examine, examine, h.2]
  cases Utf8.decode? g.content with
  | none => exact .none
  | some source =>
    have hclash : (Findings.ofText f.path source).hasClash =
        (Findings.ofText g.path source).hasClash := rfl
    dsimp only [Outcome.clashing?]
    rw [hclash]
    split
    · exact .some ⟨h.1, rfl, rfl⟩
    · exact .none

/-- Whether a file can be read does not depend on the root. -/
theorem Respelled.failure? (h : Respelled p q f g) :
    Option.Rel (Unreadable.Respelled p q) f.examine.failure? g.examine.failure? := by
  rw [examine, examine, h.2]
  cases Utf8.decode? g.content with
  | none => exact .some ⟨h.1, rfl⟩
  | some source => exact .none

end SourceFile

namespace Survey

/-- Two surveys are the same but for the root that their paths start with. -/
structure Respelled (s t : Survey) : Prop where
  clashing : List.Forall₂ (Findings.Respelled s.root t.root) s.clashing t.clashing
  unreadable : List.Forall₂ (Unreadable.Respelled s.root t.root) s.unreadable t.unreadable
  tally : s.tally = t.tally

theorem Respelled.hasClash_eq {s t : Survey} (h : s.Respelled t) : s.hasClash = t.hasClash := by
  rw [hasClash, hasClash, Bool.not_inj_iff, Bool.eq_iff_iff, List.isEmpty_iff_length_eq_zero,
    List.isEmpty_iff_length_eq_zero, h.clashing.length_eq]

/-- A survey of a folder is the same from any root, but for the paths in it. -/
theorem respelled_ofOutcomes {entries : Entries} (h : (Node.folder entries).WellFormed)
    (s : Selection) (p q : Path) :
    Respelled (ofOutcomes p (outcomes s p (.folder entries)))
      (ofOutcomes q (outcomes s q (.folder entries))) := by
  have hfiles := discover_respelled h s p q
  have hclashing : List.Forall₂ (Findings.Respelled p q)
      (ofOutcomes p (outcomes s p (.folder entries))).clashing
      (ofOutcomes q (outcomes s q (.folder entries))).clashing := by
    rw [clashing_ofOutcomes, clashing_ofOutcomes]
    exact List.rel_filterMap (R := SourceFile.Respelled p q) (fun _ _ h => h.clashing?) hfiles
  have hunreadable : List.Forall₂ (Unreadable.Respelled p q)
      (ofOutcomes p (outcomes s p (.folder entries))).unreadable
      (ofOutcomes q (outcomes s q (.folder entries))).unreadable := by
    rw [unreadable_ofOutcomes, unreadable_ofOutcomes]
    exact List.rel_filterMap (R := SourceFile.Respelled p q) (fun _ _ h => h.failure?) hfiles
  refine ⟨hclashing, hunreadable, ?_⟩
  rw [tally_ofOutcomes, tally_ofOutcomes, hfiles.length_eq, hclashing.length_eq,
    hunreadable.length_eq]
  congr 2
  exact Source.map_eq_map_of_forall₂ (hclashing.imp fun f g h => congrArg List.length h.2.2)

end Survey

/-! ### Reports of one folder -/

namespace Report

variable {s t : Survey}

/-- The rows of a file with clashes do not tell which root it was found from. -/
theorem fileRows_respelled {p q : Path} {f g : Findings} (h : f.Respelled p q g)
    (snippets : Bool) : fileRows snippets p f = fileRows snippets q g := by
  rw [fileRows, fileRows, fileRow, fileRow, h.1.shownBelow_eq, h.2.2]

theorem clashingRows_respelled (h : s.Respelled t) (snippets : Bool) :
    clashingRows snippets s = clashingRows snippets t := by
  have hfiles : s.clashing.map (fileRows snippets s.root) =
      t.clashing.map (fileRows snippets t.root) :=
    Source.map_eq_map_of_forall₂ (h.clashing.imp fun _ _ hfg => fileRows_respelled hfg snippets)
  rw [clashingRows, clashingRows, h.hasClash_eq, List.flatMap_def, List.flatMap_def, hfiles]

theorem unreadableRows_respelled (h : s.Respelled t) : unreadableRows s = unreadableRows t := by
  have hfiles : s.unreadable.map (unreadableRow s.root) = t.unreadable.map (unreadableRow t.root) :=
    Source.map_eq_map_of_forall₂ (h.unreadable.imp fun u v huv => by
      rw [unreadableRow, unreadableRow, huv.1.shownBelow_eq, huv.2])
  have hempty : s.unreadable.isEmpty = t.unreadable.isEmpty := by
    rw [Bool.eq_iff_iff, List.isEmpty_iff_length_eq_zero, List.isEmpty_iff_length_eq_zero,
      h.unreadable.length_eq]
  rw [unreadableRows, unreadableRows, hempty, hfiles]

/-- Apart from the row at the head, the reports of two surveys that differ in the
    root alone are the same. -/
theorem rows_respelled (h : s.Respelled t) (snippets : Bool) : ∃ rest,
    rows snippets s = rootRow s.root :: rest ∧ rows snippets t = rootRow t.root :: rest := by
  refine ⟨_, rfl, ?_⟩
  rw [rows, ← h.tally, clashingRows_respelled h, unreadableRows_respelled h, verdict, verdict,
    h.tally, h.hasClash_eq]

theorem Row.render_plain (colour : Bool) (t : Text) :
    Row.render colour (.plain t) = t ++ ['\n'] := by
  rw [Row.render, Row.plain, List.flatMap_singleton]
  cases colour <;> rfl

/-- Two surveys that differ in the root alone have the same report, in colour or
    not, behind the line that names the root. -/
theorem exists_text_respelled (h : s.Respelled t) (o : Options) : ∃ rest,
    text o s = "Scanned folder: ".toList ++ s.root.shown ++ '\n' :: rest ∧
      text o t = "Scanned folder: ".toList ++ t.root.shown ++ '\n' :: rest := by
  obtain ⟨rest, hs, ht⟩ := rows_respelled h o.snippets
  refine ⟨rest.flatMap (Row.render o.colour), ?_, ?_⟩
  · rw [text, hs, List.flatMap_cons, rootRow, Row.render_plain, List.append_assoc,
      List.singleton_append]
  · rw [text, ht, List.flatMap_cons, rootRow, Row.render_plain, List.append_assoc,
      List.singleton_append]

/-- What stands below the first line of a text. -/
def belowFirstLine (t : Text) : Text :=
  (t.dropWhile (· ≠ '\n')).drop 1

theorem belowFirstLine_append {line : Text} (h : '\n' ∉ line) (rest : Text) :
    belowFirstLine (line ++ '\n' :: rest) = rest := by
  have hline : ∀ c ∈ line, decide (c ≠ '\n') = true := fun c hc =>
    decide_eq_true fun heq => h (heq ▸ hc)
  rw [belowFirstLine, List.dropWhile_append_of_pos hline, List.dropWhile_cons_of_neg (by decide),
    List.drop_one, List.tail_cons]

/-- If the names of the roots do not break the first line, the reports are the same
    below it. -/
theorem belowFirstLine_text_respelled (h : s.Respelled t) (hs : '\n' ∉ s.root.shown)
    (ht : '\n' ∉ t.root.shown) (o : Options) :
    belowFirstLine (text o s) = belowFirstLine (text o t) := by
  obtain ⟨rest, hrest, hrest'⟩ := exists_text_respelled h o
  have hword : '\n' ∉ "Scanned folder: ".toList := by decide
  rw [hrest, hrest', belowFirstLine_append (List.not_mem_append hword hs),
    belowFirstLine_append (List.not_mem_append hword ht)]

/-- A report does not depend on how the root is spelled.

    From two roots that lead to the same folder, the same files are discovered in
    the same order, and the surveys are the same but for the root in the paths.
    Their reports name the root first, as it is spelled, and are the same behind
    that. So they are the same below the first line, unless the name of a root
    breaks that line. -/
theorem text_respelled {w : World} (htop : w.top.WellFormed) {p q : Path} {entries : Entries}
    (hp : w.target? p = some (.folder entries)) (hq : w.target? q = some (.folder entries))
    (selection : Selection) :
    List.Forall₂ (SourceFile.Respelled p q) ((w.look p).discover selection p)
      ((w.look q).discover selection q) ∧
    ∃ survey survey',
      Survey.ofRoot selection p (w.look p) = .ok survey ∧ survey.root = p ∧
      Survey.ofRoot selection q (w.look q) = .ok survey' ∧ survey'.root = q ∧
      survey.Respelled survey' ∧
      ∀ o : Options,
        (∃ rest, text o survey = "Scanned folder: ".toList ++ p.shown ++ '\n' :: rest ∧
          text o survey' = "Scanned folder: ".toList ++ q.shown ++ '\n' :: rest) ∧
        ('\n' ∉ p.shown → '\n' ∉ q.shown →
          belowFirstLine (text o survey) = belowFirstLine (text o survey')) := by
  have hlook := World.look_of_target?_folder hp
  have hfolder := World.wellFormed_of_look_folder htop hlook
  have hrespelled := Survey.respelled_ofOutcomes hfolder selection p q
  rw [hlook, World.look_of_target?_folder hq]
  exact ⟨discover_respelled hfolder selection p q, _, _, rfl, rfl, rfl, rfl, hrespelled, fun o =>
    ⟨exists_text_respelled hrespelled o, fun hpline hqline =>
      belowFirstLine_text_respelled hrespelled hpline hqline o⟩⟩

/-- The sample folder by its path from the top, with a step that leads nowhere, and
    by the link to it, with slashes behind. -/
theorem text_respelled_sample : ∃ survey survey',
    Survey.ofRoot .standard (.ofText "/h/d/.".toList)
      (sampleWorld.look (.ofText "/h/d/.".toList)) = .ok survey ∧
    Survey.ofRoot .standard (.ofText "l//".toList) (sampleWorld.look (.ofText "l//".toList)) =
      .ok survey' ∧
    survey.tally = survey'.tally ∧
    belowFirstLine (text ⟨true, true⟩ survey) = belowFirstLine (text ⟨true, true⟩ survey') := by
  have hp : sampleWorld.target? (.ofText "/h/d/.".toList) = some (.folder sampleFolder) := rfl
  have hq : sampleWorld.target? (.ofText "l//".toList) = some (.folder sampleFolder) := rfl
  obtain ⟨-, survey, survey', hok, -, hok', -, hrespelled, htext⟩ :=
    text_respelled wellFormed_sampleWorld hp hq .standard
  exact ⟨survey, survey', hok, hok', hrespelled.tally,
    (htext ⟨true, true⟩).2 (by decide) (by decide)⟩

/-- A world with a folder that has a line feed in its name. -/
def brokenNameWorld : World where
  top := .folder [(Utf8.encode "a\nb".toList, .folder [])]
  here := []

/-- The name of a folder with a line feed in it takes two lines of the report, and
    a slash behind the name is on the second one. -/
theorem below_first_line_differs :
    brokenNameWorld.top.WellFormed ∧
    (Path.ofText "a\nb".toList).components = (Path.ofText "a\nb/".toList).components ∧
    brokenNameWorld.target? (.ofText "a\nb".toList) = some (.folder []) ∧
    brokenNameWorld.target? (.ofText "a\nb/".toList) = some (.folder []) ∧
    ∃ survey survey',
      Survey.ofRoot .standard (.ofText "a\nb".toList)
        (brokenNameWorld.look (.ofText "a\nb".toList)) = .ok survey ∧
      Survey.ofRoot .standard (.ofText "a\nb/".toList)
        (brokenNameWorld.look (.ofText "a\nb/".toList)) = .ok survey' ∧
      belowFirstLine (text ⟨false, false⟩ survey) ≠
        belowFirstLine (text ⟨false, false⟩ survey') := by
  have htop : brokenNameWorld.top.WellFormed := by
    simp only [brokenNameWorld, Node.WellFormed, Entries.WellFormed]
    decide
  refine ⟨htop, by decide, rfl, rfl, _, _, rfl, rfl, ?_⟩
  decide

end Report

end Homonym
