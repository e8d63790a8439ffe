import Homonym.Proofs.Json.Reader
import Homonym.Proofs.Text.Utf8
import Homonym.Survey.Json

/-!
# The document of a survey loses nothing

A survey is read back from its document field by field, each found by its name.
A path comes back byte by byte, because a text has one encoding only. So whatever
is written reads back as what it was (`Faithful`); the only thing that cannot be
written is a path that is no text, and then there is no document at all.

* `Survey.ofDocument?`: the survey that a document holds;
* `Survey.faithful_toJson`: the JSON form of a survey holds all of it;
* `Survey.document_exact`: when a survey has a document, and what can be read
  from it.
-/

namespace Homonym

/-! ### Reading the JSON form -/

namespace Json

/-- The value of a field of an object. -/
def field? (j : Json) (name : String) : Option Json :=
  match j with
  | .object fields => fields.lookup name.toList
  | _ => none

/-- The number in a field of an object. -/
def number? (j : Json) (name : String) : Option Nat :=
  match j.field? name with
  | some (.number n) => some n
  | _ => none

/-- The text in a field of an object. -/
def text? (j : Json) (name : String) : Option Text :=
  match j.field? name with
  | some (.string t) => some t
  | _ => none

/-- The items in a field of an object, each read in the given way. -/
def items? {α : Type} (j : Json) (name : String) (read : Json → Option α) : Option (List α) :=
  match j.field? name with
  | some (.array items) => items.mapM read
  | _ => none

end Json

/-- The path in a field of an object. -/
def Path.ofField? (j : Json) (name : String) : Option Path :=
  (j.text? name).map Path.ofText

/-- The definition that a JSON value is the form of. -/
def Source.Definition.ofJson? (j : Json) : Option Source.Definition := do
  let name ← j.text? "name"
  let first ← j.number? "start_line"
  let last ← j.number? "end_line"
  let excerpt ← j.text? "definition"
  return { name, first, last, excerpt }

/-- The clash that a JSON value is the form of. -/
def Source.Clash.ofJson? (j : Json) : Option Source.Clash := do
  let name ← j.text? "name"
  let sites ← j.items? "occurrences" Source.Definition.ofJson?
  return { name, sites }

/-- What was found in a file, from its JSON form. -/
def Findings.ofJson? (j : Json) : Option Findings := do
  let file ← Path.ofField? j "file"
  let definitions ← j.number? "functions"
  let clashes ← j.items? "duplicates" Source.Clash.ofJson?
  return { file, definitions, clashes }

/-- The file that could not be read, from its JSON form. -/
def Unreadable.ofJson? (j : Json) : Option Unreadable := do
  let file ← Path.ofField? j "file"
  let reason ← j.text? "message"
  return { file, reason }

/-- The numbers that sum a survey up, from their JSON form. -/
def Tally.ofJson? (j : Json) : Option Tally := do
  let files ← j.number? "total_files"
  let clashing ← j.number? "files_with_duplicates"
  let names ← j.number? "duplicate_names"
  let unreadable ← j.number? "errors"
  return { files, clashing, names, unreadable }

namespace Survey

/-- The survey that a JSON value is the form of. -/
def ofJson? (j : Json) : Option Survey := do
  let root ← Path.ofField? j "root"
  let clashing ← j.items? "files_with_duplicates" Findings.ofJson?
  let unreadable ← j.items? "errors" Unreadable.ofJson?
  let tally ← (← j.field? "analysis_summary") |> Tally.ofJson?
  return { root, clashing, unreadable, tally }

/-- The survey that a document holds. -/
def ofDocument? (t : Text) : Option Survey :=
  (Json.read? t).bind ofJson?

end Survey

/-! ### What is written reads back -/

/-- What was written for `a` reads back as `a`, or was refused because a path in
    `a` is no text. -/
def Faithful {α β : Type} (isText : Prop) (read : β → Option α) (a : α)
    (written : Except Failure β) : Prop :=
  (isText ∧ ∃ b, written = .ok b ∧ read b = some a) ∨ (¬isText ∧ written = .error .pathNotText)

/-- A list is written faithfully if its elements are. -/
theorem faithful_mapM {α β : Type} {isText : α → Prop} {read : β → Option α}
    {write : α → Except Failure β} (h : ∀ a, Faithful (isText a) read a (write a)) (l : List α) :
    Faithful (∀ a ∈ l, isText a) (List.mapM read) l (l.mapM write) := by
  induction l with
  | nil => exact .inl ⟨fun _ ha => absurd ha List.not_mem_nil, [], rfl, rfl⟩
  | cons a l ih =>
    rw [List.mapM_cons, List.forall_mem_cons]
    rcases h a with ⟨ha, b, hb, hread⟩ | ⟨ha, hb⟩
    · rcases ih with ⟨hl, bs, hbs, hreads⟩ | ⟨hl, hbs⟩
      · refine .inl ⟨⟨ha, hl⟩, b :: bs, by rw [hb, hbs]; rfl, ?_⟩
        rw [List.mapM_cons, hread, hreads]
        rfl
      · exact .inr ⟨fun hboth => hl hboth.2, by rw [hb, hbs]; rfl⟩
    · exact .inr ⟨fun hboth => ha hboth.1, by rw [hb]; rfl⟩

theorem mapM_map_eq_some {α β : Type} {write : α → β} {read : β → Option α}
    (h : ∀ a, read (write a) = some a) (l : List α) : (l.map write).mapM read = some l := by
  induction l with
  | nil => rfl
  | cons a l ih =>
    rw [List.map_cons, List.mapM_cons, h, ih]
    rfl

/-- A path that is a text. -/
def Path.IsText (p : Path) : Prop :=
  ∃ t, Utf8.encode t = p.spelling

/-- A path is written as the text that it spells, if it spells one. -/
theorem Path.toJson_cases (p : Path) :
    (p.IsText ∧ ∃ t, p.toJson = .ok (.string t) ∧ Path.ofText t = p) ∨
      (¬p.IsText ∧ p.toJson = .error .pathNotText) := by
  rw [Path.toJson, Path.text?]
  cases htext : Utf8.decode? p.spelling with
  | some t =>
    have hspelling := Utf8.decode?_eq_some_iff.1 htext
    refine .inl ⟨⟨t, hspelling⟩, t, rfl, ?_⟩
    rw [Path.ofText, hspelling]
  | none => exact .inr ⟨not_exists.2 (Utf8.decode?_eq_none_iff.1 htext), rfl⟩

/-- The fields of a record are found by their names. -/
theorem Json.field?_record (fields : List (String × Json)) (name : String) :
    (Json.record fields).field? name = fields.lookup name := by
  rw [Json.record, Json.field?]
  induction fields with
  | nil => rfl
  | cons f fields ih =>
    have hname : (name.toList == f.1.toList) = (name == f.1) := by
      rw [Bool.eq_iff_iff, beq_iff_eq, beq_iff_eq, String.toList_inj]
    rw [List.map_cons, List.lookup_cons, List.lookup_cons, hname, ih]

theorem Source.Definition.ofJson?_toJson (d : Source.Definition) :
    Source.Definition.ofJson? d.toJson = some d := by
  simp [ofJson?, toJson, Json.text?, Json.number?, Json.field?_record, List.lookup_cons]

theorem Source.Clash.ofJson?_toJson (c : Source.Clash) :
    Source.Clash.ofJson? c.toJson = some c := by
  have hsites := mapM_map_eq_some Source.Definition.ofJson?_toJson c.sites
  simp [ofJson?, toJson, Json.text?, Json.items?, Json.field?_record, List.lookup_cons, hsites]

theorem Tally.ofJson?_toJson (t : Tally) : Tally.ofJson? t.toJson = some t := by
  simp [ofJson?, toJson, Json.number?, Json.field?_record, List.lookup_cons]

/-- What was found in a file is written if and only if its path is a text, and can
    then be read back. -/
theorem Findings.faithful_toJson (f : Findings) :
    Faithful f.file.IsText Findings.ofJson? f f.toJson := by
  rw [toJson]
  rcases f.file.toJson_cases with ⟨hfile, t, ht, hpath⟩ | ⟨hfile, ht⟩
  · have hclashes := mapM_map_eq_some Source.Clash.ofJson?_toJson f.clashes
    refine .inl ⟨hfile, _, by rw [ht]; rfl, ?_⟩
    simp [ofJson?, Path.ofField?, Json.text?, Json.number?, Json.items?, Json.field?_record,
      List.lookup_cons, hclashes, hpath]
  · exact .inr ⟨hfile, by rw [ht]; rfl⟩

theorem Unreadable.faithful_toJson (u : Unreadable) :
    Faithful u.file.IsText Unreadable.ofJson? u u.toJson := by
  rw [toJson]
  rcases u.file.toJson_cases with ⟨hfile, t, ht, hpath⟩ | ⟨hfile, ht⟩
  · refine .inl ⟨hfile, _, by rw [ht]; rfl, ?_⟩
    simp [ofJson?, Path.ofField?, Json.text?, Json.field?_record, List.lookup_cons, hpath]
  · exact .inr ⟨hfile, by rw [ht]; rfl⟩

namespace Survey

/-- All paths in a survey are texts. -/
structure IsText (s : Survey) : Prop where
  root : s.root.IsText
  clashing : ∀ f ∈ s.clashing, f.file.IsText
  unreadable : ∀ u ∈ s.unreadable, u.file.IsText

/-- The JSON form of a survey holds all of it. -/
theorem faithful_toJson (s : Survey) : Faithful s.IsText ofJson? s s.toJson := by
  rw [toJson]
  rcases s.root.toJson_cases with ⟨hroot, t, ht, hpath⟩ | ⟨hroot, ht⟩
  · rcases faithful_mapM Findings.faithful_toJson s.clashing with
      ⟨hclashing, fs, hfs, hfound⟩ | ⟨hclashing, hfs⟩
    · rcases faithful_mapM Unreadable.faithful_toJson s.unreadable with
        ⟨hunreadable, us, hus, hfailed⟩ | ⟨hunreadable, hus⟩
      · refine .inl ⟨⟨hroot, hclashing, hunreadable⟩, _, by rw [ht, hfs, hus]; rfl, ?_⟩
        simp [ofJson?, Path.ofField?, Json.text?, Json.items?, Json.field?_record, List.lookup_cons,
          hpath, hfound, hfailed, Tally.ofJson?_toJson]
      · exact .inr ⟨fun h => hunreadable h.unreadable, by rw [ht, hfs, hus]; rfl⟩
    · exact .inr ⟨fun h => hclashing h.clashing, by rw [ht, hfs]; rfl⟩
  · exact .inr ⟨fun h => hroot h.root, by rw [ht]; rfl⟩

/-- The document of a survey holds all of it. -/
theorem faithful_document (s : Survey) : Faithful s.IsText ofDocument? s s.document := by
  rw [document]
  rcases s.faithful_toJson with ⟨htext, j, hj, hs⟩ | ⟨htext, hj⟩
  · refine .inl ⟨htext, j.document, by rw [hj]; rfl, ?_⟩
    rw [ofDocument?, Json.read?_of_isDocument (Json.isDocument_document j), Option.bind_some, hs]
  · exact .inr ⟨htext, by rw [hj]; rfl⟩

/-- A document is well-formed. -/
theorem isDocument_of_document {s : Survey} {t : Text} (h : s.document = .ok t) :
    ∃ j, Json.IsDocument j t := by
  rw [document] at h
  cases hj : s.toJson with
  | error failure =>
    rw [hj] at h
    cases h
  | ok j =>
    rw [hj] at h
    cases h
    exact ⟨j, Json.isDocument_document j⟩

/-- A survey can be read back from its document. -/
theorem ofDocument?_of_document {s : Survey} {t : Text} (h : s.document = .ok t) :
    ofDocument? t = some s := by
  rcases s.faithful_document with ⟨-, t', ht', hs⟩ | ⟨-, herror⟩
  · rw [h, Except.ok.injEq] at ht'
    rw [ht', hs]
  · rw [h] at herror
    cases herror

/-- The document of a survey, exactly.

    There is one if and only if the root and the files in the survey are texts,
    and otherwise the failure says that one of them is not. It follows the
    grammar, and the survey is read back from it, so that no other survey has the
    same document. -/
theorem document_exact (s : Survey) :
    ((∃ t, s.document = .ok t) ↔ s.IsText) ∧
    (¬s.IsText → s.document = .error .pathNotText) ∧
    Failure.pathNotText.message = "path contains invalid UTF-8 characters".toList ∧
    (∀ t, s.document = .ok t → (∃ j, Json.IsDocument j t) ∧ ofDocument? t = some s) ∧
    ∀ s' t, s.document = .ok t → s'.document = .ok t → s = s' := by
  have hsame : ∀ s' t, s.document = .ok t → s'.document = .ok t → s = s' := by
    intro s' t ht ht'
    have hread := ofDocument?_of_document ht
    rw [ofDocument?_of_document ht', Option.some.injEq] at hread
    exact hread.symm
  have hread : ∀ t, s.document = .ok t → (∃ j, Json.IsDocument j t) ∧ ofDocument? t = some s :=
    fun t ht => ⟨isDocument_of_document ht, ofDocument?_of_document ht⟩
  rcases s.faithful_document with ⟨htext, t, ht, -⟩ | ⟨htext, herror⟩
  · exact ⟨⟨fun _ => htext, fun _ => ⟨t, ht⟩⟩, fun h => absurd htext h, rfl, hread, hsame⟩
  · refine ⟨⟨fun ⟨t, ht⟩ => ?_, fun h => absurd h htext⟩, fun _ => herror, rfl, hread, hsame⟩
    rw [ht] at herror
    cases herror

end Survey

end Homonym
