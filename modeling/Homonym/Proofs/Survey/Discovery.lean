import Homonym.Proofs.FileTree.Listing
import Homonym.Proofs.FileTree.Look
import Homonym.Proofs.Path.Below
import Homonym.Proofs.Text.Utf8
import Homonym.Survey.Discovery

/-!
# Discovery finds what the listing selects

Discovery does not enter the folders that are excluded. It finds the same files
as going everywhere and selecting afterwards: those files of the listing whose
names match, with no folder on the way that is avoided (`Entries.sources_eq`).
Sorted by path they stand in the order of their places below the root, each of
them once (`exists_found`), so that it does not matter in which order the entries
of the folders are listed (`discover_folder_congr`).

* `discover_exact`: what is discovered at a root that is a folder, a file, or
  neither.
-/

namespace Homonym

/-! ### Selected names -/

namespace Selection

/-- A file name that the selection is for: it is a text that ends in a dot and
    one of the extensions. -/
def Matches (s : Selection) (name : Name) : Prop :=
  ∃ t, Utf8.encode t = name ∧ ∃ e ∈ s.extensions, ('.' :: e) <:+ t

/-- A folder name that the selection is not for: it is an excluded text. -/
def Avoids (s : Selection) (name : Name) : Prop :=
  ∃ t ∈ s.excluded, Utf8.encode t = name

variable {s : Selection}

theorem wants_iff {name : Name} : s.wants name = true ↔ s.Matches name := by
  simp only [wants, Matches, Option.any_eq_true, Utf8.decode?_eq_some_iff, List.any_eq_true,
    List.isSuffixOf_iff_suffix]

theorem prunes_iff {name : Name} : s.prunes name = true ↔ s.Avoids name := by
  simp only [prunes, Avoids, Option.any_eq_true, Utf8.decode?_eq_some_iff, excludes,
    List.contains_iff_mem, and_comm]

theorem extensions_excludeAll (s : Selection) (names : List Text) :
    (s.excludeAll names).extensions = s.extensions := by
  induction names generalizing s with
  | nil => rfl
  | cons name names ih =>
    rw [excludeAll, List.foldl_cons, ← excludeAll, ih, exclude]
    split <;> rfl

theorem mem_excluded_excludeAll_iff {names : List Text} {name : Text} :
    name ∈ (s.excludeAll names).excluded ↔ name ∈ s.excluded ∨ name ∈ names := by
  induction names generalizing s with
  | nil => simp [excludeAll]
  | cons other names ih =>
    have hone : name ∈ (s.exclude other).excluded ↔ name ∈ s.excluded ∨ name = other := by
      rw [exclude]
      split_ifs with hother
      · exact ⟨.inl, fun h => h.elim id fun heq => heq ▸ hother⟩
      · rw [List.mem_append, List.mem_singleton]
    rw [excludeAll, List.foldl_cons, ← excludeAll, ih, hone, List.mem_cons, or_assoc]

/-- Whether a file at a place below a root is selected: its name is wanted, and
    no folder on the way is stayed out of. -/
def admits (s : Selection) : List Name → Bool
  | [] => false
  | [name] => s.wants name
  | folder :: name :: place => !s.prunes folder && s.admits (name :: place)

/-- A place in a folder is admitted if the folder is not pruned and the rest is
    admitted. -/
theorem admits_cons {folder : Name} {place : List Name} (h : place ≠ []) :
    s.admits (folder :: place) = (!s.prunes folder && s.admits place) := by
  obtain ⟨name, place, rfl⟩ := List.exists_cons_of_ne_nil h
  rfl

/-- A place is admitted if no folder on the way is avoided and the last name
    matches. -/
theorem admits_concat_iff {folders : List Name} {name : Name} :
    s.admits (folders ++ [name]) = true ↔
      (∀ folder ∈ folders, ¬s.Avoids folder) ∧ s.Matches name := by
  induction folders with
  | nil => simp [admits, wants_iff]
  | cons folder folders ih =>
    have hne : folders ++ [name] ≠ [] :=
      List.append_ne_nil_of_right_ne_nil _ (List.cons_ne_nil _ _)
    rw [List.cons_append, admits_cons hne, Bool.and_eq_true, Bool.not_eq_true', ih,
      List.forall_mem_cons, ← prunes_iff, Bool.not_eq_true, and_assoc]

theorem admits_iff {place : List Name} : s.admits place = true ↔
    ∃ folders name, place = folders ++ [name] ∧
      (∀ folder ∈ folders, ¬s.Avoids folder) ∧ s.Matches name := by
  constructor
  · intro h
    rcases List.eq_nil_or_concat' place with rfl | ⟨folders, name, rfl⟩
    · exact absurd h (by simp [admits])
    · exact ⟨folders, name, rfl, admits_concat_iff.1 h⟩
  · rintro ⟨folders, name, rfl, h⟩
    exact admits_concat_iff.2 h

end Selection

/-! ### The pruned walk -/

mutual

/-- The walk through a node finds the files of its listing that are selected. -/
theorem Node.sources_eq (s : Selection) (path : Path) (name : Name) : (node : Node) →
    node.sources s path name = (node.files.filter fun f => s.admits (name :: f.1)).map
      fun f => ⟨path.below f.1, f.2⟩
  | .file content => by
    rw [Node.sources, Node.files, List.filter_singleton, Selection.admits]
    cases s.wants name <;> rfl
  | .link _ => rfl
  | .folder entries => by
    -- Below an excluded folder nothing is selected; below any other, the name
    -- of the folder makes no difference.
    have hadmits : ∀ f ∈ Entries.files entries,
        s.admits (name :: f.1) = (!s.prunes name && s.admits f.1) := fun f hf =>
      Selection.admits_cons (Entries.ne_nil_of_mem_files hf)
    rw [Node.sources, Node.files, List.filter_congr hadmits]
    split_ifs with h
    · simp [h]
    · simpa [h] using Entries.sources_eq s path entries

/-- The walk through a folder finds the files of its listing that are
    selected. -/
theorem Entries.sources_eq (s : Selection) (path : Path) : (entries : Entries) →
    Entries.sources s path entries = ((Entries.files entries).filter fun f => s.admits f.1).map
      fun f => ⟨path.below f.1, f.2⟩
  | [] => rfl
  | (name, node) :: rest => by
    rw [Entries.sources, Node.sources_eq s (path.join name) name node,
      Entries.sources_eq s path rest, Entries.files, List.filter_append, List.map_append,
      List.filter_map, List.map_map]
    rfl

end

/-! ### The files found in a folder -/

/-- What is discovered in a folder are the files found at some places, in the
    order of these places: all those where the listing has a file and that are
    selected. -/
theorem exists_found {entries : Entries} (h : (Node.folder entries).WellFormed) (s : Selection)
    (root : Path) : ∃ found : List (List Name × Bytes),
      (Sight.folder entries).discover s root = found.map (fun f => ⟨root.below f.1, f.2⟩) ∧
      found.Pairwise (fun f g => (root.below f.1).order (root.below g.1) = .lt ∧ f.1 < g.1) ∧
      ∀ place content, (place, content) ∈ found ↔
        s.admits place = true ∧ (Node.folder entries).Reaches place (.file content) := by
  set selected := (Entries.files entries).filter fun f => s.admits f.1 with hselected
  set sorted := selected.mergeSort fun f g => (root.below f.1).le (root.below g.1) with hsorted
  have hmem : ∀ place content, (place, content) ∈ sorted ↔
      s.admits place = true ∧ (Node.folder entries).Reaches place (.file content) := by
    intro place content
    rw [hsorted, List.mem_mergeSort, hselected, List.mem_filter, Entries.mem_files_iff, and_comm]
  refine ⟨sorted, ?_, ?_, hmem⟩
  · rw [Sight.discover, Sight.sources, Entries.sources_eq, hsorted, List.map_mergeSort]
    exact fun _ _ _ _ => rfl
  · have hle : sorted.Pairwise fun f g => (root.below f.1).le (root.below g.1) = true := by
      rw [hsorted]
      exact Path.pairwise_mergeSort (fun f : List Name × Bytes => root.below f.1) selected
    have hne : sorted.Pairwise fun f g => f.1 ≠ g.1 := by
      have hnodup : (selected.map Prod.fst).Nodup :=
        (Node.nodup_files (.folder entries) h).sublist (List.filter_sublist.map Prod.fst)
      exact List.pairwise_map.1 (((List.mergeSort_perm _ _).map Prod.fst).nodup_iff.2 hnodup)
    -- The order of the paths is strict because the places differ, and because
    -- their names are proper it is that of the places.
    refine (hle.and hne).imp_of_mem ?_
    rintro ⟨place, content⟩ ⟨place', content'⟩ hf hg ⟨hfg, hne⟩
    have hnames := h.isName ((hmem place content).1 hf).2
    have hnames' := h.isName ((hmem place' content').1 hg).2
    have hlt := Path.order_below_eq_lt_of_le hnames hnames' hfg hne
    exact ⟨hlt, (Path.order_below_eq_lt_iff root hnames hnames').1 hlt⟩

/-- Files in the order of their places are told by which ones they are. -/
theorem eq_of_pairwise_place {found found' : List (List Name × Bytes)}
    (h : found.Pairwise fun f g => f.1 < g.1) (h' : found'.Pairwise fun f g => f.1 < g.1)
    (hmem : ∀ f, f ∈ found ↔ f ∈ found') : found = found' := by
  have hne : ∀ {f g : List Name × Bytes}, f.1 < g.1 → f ≠ g := by
    rintro f _ hfg rfl
    exact List.lt_irrefl f.1 hfg
  -- Both lists have the same members, each once, and in increasing order.
  have hperm : found.Perm found' := (List.perm_ext_iff_of_nodup (h.imp hne) (h'.imp hne)).2 hmem
  exact hperm.eq_of_pairwise
    (fun _ _ _ _ hfg hgf => absurd (List.lt_trans hfg hgf) (List.lt_irrefl _)) h h'

/-- Two folders in which the same files are at the same places give the same
    files in the same order, however their entries are listed. -/
theorem discover_folder_congr {entries entries' : Entries}
    (h : (Node.folder entries).WellFormed) (h' : (Node.folder entries').WellFormed)
    (hsame : ∀ place content, (Node.folder entries).Reaches place (.file content) ↔
      (Node.folder entries').Reaches place (.file content)) (s : Selection) (root : Path) :
    (Sight.folder entries).discover s root = (Sight.folder entries').discover s root := by
  obtain ⟨found, hfound, hlt, hmem⟩ := exists_found h s root
  obtain ⟨found', hfound', hlt', hmem'⟩ := exists_found h' s root
  have hequal : found = found' := by
    refine eq_of_pairwise_place (hlt.imp And.right) (hlt'.imp And.right) fun f => ?_
    rw [hmem f.1 f.2, hmem' f.1 f.2, hsame]
  rw [hfound, hfound', hequal]

/-! ### Discovery at a root -/

/-- At a file, the file itself is discovered, if its name matches. -/
theorem discover_file {s : Selection} {root : Path} {name : Name}
    (hname : root.fileName? = some name) (content : Bytes) :
    (s.Matches name → (Sight.file content).discover s root = [⟨root, content⟩]) ∧
      (¬s.Matches name → (Sight.file content).discover s root = []) := by
  rw [Sight.discover, Sight.sources, hname, Option.any_some, ← Selection.wants_iff]
  constructor
  · intro h
    rw [if_pos h, List.mergeSort_singleton]
  · intro h
    rw [if_neg h, List.mergeSort_nil]

/-- What is discovered at a root of a well-formed tree.

    If the root leads to a folder, perhaps through a link: the files that are
    reached in this folder at places where the last name matches and no other is
    avoided, each once and in the order of their paths, which is that of the
    names in their places. If the root is itself a file: this file, if its name
    matches, wherever it is. If there is nothing, or a link that leads to no
    folder: nothing. And in which order the entries of a folder are listed makes
    no difference. -/
theorem discover_exact {w : World} (htop : w.top.WellFormed) (s : Selection) (root : Path) :
    (∀ entries, w.target? root = some (.folder entries) →
      ∃ found : List (List Name × Bytes),
        (w.look root).discover s root = found.map (fun f => ⟨root.below f.1, f.2⟩) ∧
        (found.map Prod.fst).Pairwise (· < ·) ∧
        (((w.look root).discover s root).map SourceFile.path).Pairwise
          (fun p q => p.order q = .lt) ∧
        ∀ place content, (place, content) ∈ found ↔
          (∃ folders name, place = folders ++ [name] ∧
            (∀ folder ∈ folders, ¬s.Avoids folder) ∧ s.Matches name) ∧
          (Node.folder entries).Reaches place (.file content)) ∧
    (∀ content, w.item? root = some (.file content) →
      ∃ base name, w.locate false root = some (base ++ [name]) ∧
        (s.Matches name → (w.look root).discover s root = [⟨root, content⟩]) ∧
        (¬s.Matches name → (w.look root).discover s root = [])) ∧
    (w.target? root = none ∨ (∃ target, w.item? root = some (.link target)) ∧
      (∀ entries, w.target? root ≠ some (.folder entries)) →
      (w.look root).discover s root = []) ∧
    ∀ entries entries', (Node.folder entries).WellFormed → (Node.folder entries').WellFormed →
      (∀ place content, (Node.folder entries).Reaches place (.file content) ↔
        (Node.folder entries').Reaches place (.file content)) →
      (Sight.folder entries).discover s root = (Sight.folder entries').discover s root := by
  refine ⟨fun entries htarget => ?_, fun content hitem => ?_, fun hnone => ?_,
    fun _ _ h h' hsame => discover_folder_congr h h' hsame s root⟩
  · have hlook := World.look_of_target?_folder htarget
    obtain ⟨found, hfound, hlt, hmem⟩ :=
      exists_found (World.wellFormed_of_look_folder htop hlook) s root
    rw [hlook]
    refine ⟨found, hfound, List.pairwise_map.2 (hlt.imp And.right), ?_, fun place content => ?_⟩
    · rw [hfound, List.map_map]
      exact List.pairwise_map.2 (hlt.imp And.left)
    · rw [hmem, Selection.admits_iff]
  · obtain ⟨base, name, hlocate, hname⟩ := World.exists_name_of_item?_file hitem
    rw [World.look_of_item?_file hitem]
    exact ⟨base, name, hlocate, discover_file hname content⟩
  · have hlook : w.look root = .missing ∨ w.look root = .other := by
      rcases hnone with htarget | ⟨⟨target, hitem⟩, hfolder⟩
      · exact .inl (World.look_eq_missing_iff.2 htarget)
      · exact World.look_of_item?_link hitem hfolder
    rcases hlook with hlook | hlook
    · rw [hlook]
      exact List.mergeSort_nil
    · rw [hlook]
      exact List.mergeSort_nil

/-- A folder with a file `b.py`, and a file `c.py` in an excluded folder. -/
def sampleFolder : Entries :=
  [(Utf8.encode ['b', '.', 'p', 'y'], .file []),
   (Utf8.encode ['v', 'e', 'n', 'v'], .folder [(Utf8.encode ['c', '.', 'p', 'y'], .file [])])]

/-- A world whose top has a folder `h`, which is where one stands. In this folder are
    the sample folder `d` and a link `l` to it, which starts at the top. -/
def sampleWorld : World where
  top := .folder [(Utf8.encode ['h'], .folder
    [(Utf8.encode ['l'], .link (Utf8.encode ['/', 'h', '/', 'd'])),
     (Utf8.encode ['d'], .folder sampleFolder)])]
  here := [Utf8.encode ['h']]

theorem wellFormed_sampleWorld : sampleWorld.top.WellFormed := by
  simp only [sampleWorld, sampleFolder, Node.WellFormed, Entries.WellFormed]
  decide

/-- From the link to the sample folder, `b.py` is discovered and `c.py` is not. The
    same files are discovered from the folder itself by a path from the top, and by
    one that goes above the top. -/
theorem discover_sample :
    (∃ found : List (List Name × Bytes),
      (sampleWorld.look (.ofText ['l'])).discover .standard (.ofText ['l']) =
        found.map (fun f => ⟨Path.below (.ofText ['l']) f.1, f.2⟩) ∧
      ([Utf8.encode ['b', '.', 'p', 'y']], []) ∈ found ∧
      ([Utf8.encode ['v', 'e', 'n', 'v'], Utf8.encode ['c', '.', 'p', 'y']], []) ∉ found) ∧
    ∀ root ∈ [Path.ofText "/h/d".toList, .ofText "../../h/d".toList],
      ∃ f ∈ (sampleWorld.look root).discover .standard root,
        f.path = root.below [Utf8.encode ['b', '.', 'p', 'y']] := by
  have hexact : ∀ root, sampleWorld.target? root = some (.folder sampleFolder) →
      ∃ found : List (List Name × Bytes),
        (sampleWorld.look root).discover .standard root =
          found.map (fun f => ⟨root.below f.1, f.2⟩) ∧
        ([Utf8.encode ['b', '.', 'p', 'y']], []) ∈ found ∧
        ([Utf8.encode ['v', 'e', 'n', 'v'], Utf8.encode ['c', '.', 'p', 'y']], []) ∉ found := by
    intro root htarget
    obtain ⟨found, hfound, -, -, hmem⟩ :=
      (discover_exact wellFormed_sampleWorld .standard root).1 sampleFolder htarget
    refine ⟨found, hfound, (hmem _ _).2 ⟨?_, .down List.mem_cons_self (.here _)⟩, fun hfile => ?_⟩
    · refine ⟨[], _, rfl, by simp, ['b', '.', 'p', 'y'], rfl, ['p', 'y'], ?_, ['b'], rfl⟩
      decide
    · obtain ⟨⟨folders, name, hplace, havoids, -⟩, -⟩ := (hmem _ _).1 hfile
      have hfolders : [Utf8.encode ['v', 'e', 'n', 'v']] = folders :=
        List.append_inj_left' (List.singleton_append.trans hplace) rfl
      subst hfolders
      exact havoids _ List.mem_cons_self ⟨['v', 'e', 'n', 'v'], by decide, rfl⟩
  have htargets : ∀ root ∈ [Path.ofText "/h/d".toList, .ofText "../../h/d".toList],
      sampleWorld.target? root = some (.folder sampleFolder) := by
    rw [List.forall_mem_cons, List.forall_mem_singleton]
    exact ⟨rfl, rfl⟩
  refine ⟨hexact _ rfl, fun root hroot => ?_⟩
  obtain ⟨found, hfound, hmem, -⟩ := hexact root (htargets root hroot)
  rw [hfound]
  exact ⟨_, List.mem_map_of_mem hmem, rfl⟩

end Homonym
