import Homonym.Proofs.Path.Remainder
import Homonym.Proofs.Survey.Discovery

/-!
# How the files that are found are shown

In a report, a file is shown by what its path says below the root of the survey.
The files that are discovered in a folder have paths made of the root and the
names on the way (`exists_place_of_mem_discover`). So what is shown of such a file
are these names, whatever the root looks like, and files whose paths are texts
are never mistaken for each other. A root that is itself a file has nothing below
it and is shown as it is spelled.

* `shownBelow_exact`: what is shown for any path, and for the files discovered at
  a root.
-/

namespace Homonym

/-- A file that is discovered in a folder is at some place in it. -/
theorem exists_place_of_mem_discover {entries : Entries} (h : (Node.folder entries).WellFormed)
    {s : Selection} {root : Path} {f : SourceFile}
    (hf : f ∈ (Sight.folder entries).discover s root) :
    ∃ place, (Node.folder entries).Reaches place (.file f.content) ∧
      f.path = root.below place := by
  obtain ⟨found, hfound, -, hmem⟩ := exists_found h s root
  rw [hfound] at hf
  obtain ⟨⟨place, content⟩, hplace, rfl⟩ := List.mem_map.1 hf
  exact ⟨place, ((hmem place content).1 hplace).2, rfl⟩

/-- A file in a folder is below it by at least one name. -/
theorem Node.Reaches.ne_nil {entries : Entries} {place : List Name} {content : Bytes}
    (h : (Node.folder entries).Reaches place (.file content)) : place ≠ [] := by
  rintro rfl
  cases h

/-- What is shown for a path in a list of files below a root.

    If the path has the components of the root and more, it is shown by a piece of
    its own spelling that has just those other components; otherwise the whole
    path is shown. So a file that is discovered in a folder is shown by the names
    on the way to it, if these are texts, and different files with paths that are
    texts are shown in different ways; and a root that is a file is shown as it is
    spelled. -/
theorem shownBelow_exact :
    (∀ file root : Path,
      (∀ below, below ≠ [] → file.components = root.components ++ below →
        ∃ piece, piece <:+: file.spelling ∧ (Path.mk piece).components = below ∧
          file.shownBelow root = Utf8.shown piece) ∧
      ((∀ below, below ≠ [] → file.components ≠ root.components ++ below) →
        file.shownBelow root = Utf8.shown file.spelling)) ∧
    ∀ w : World, w.top.WellFormed → ∀ (s : Selection) (root : Path),
      (∀ entries, w.target? root = some (.folder entries) →
        (∀ f ∈ (w.look root).discover s root, ∃ place,
          (Node.folder entries).Reaches place (.file f.content) ∧ f.path = root.below place) ∧
        (∀ (names : List Text) (content : Bytes),
          (Node.folder entries).Reaches (names.map Utf8.encode) (.file content) →
          (root.below (names.map Utf8.encode)).shownBelow root = List.intercalate ['/'] names) ∧
        ∀ f ∈ (w.look root).discover s root, ∀ g ∈ (w.look root).discover s root,
          f.path.text? ≠ none → g.path.text? ≠ none →
          f.path.shownBelow root = g.path.shownBelow root → f.path = g.path) ∧
      ∀ content, w.item? root = some (.file content) →
        ∀ f ∈ (w.look root).discover s root,
          f.path = root ∧ f.path.shownBelow root = Utf8.shown root.spelling := by
  refine ⟨fun file root => ⟨fun below => Path.exists_piece_of_shownBelow,
    Path.shownBelow_of_not_below⟩, fun w htop s root =>
    ⟨fun entries htarget => ?_, fun content hitem f hf => ?_⟩⟩
  · have hlook := World.look_of_target?_folder htarget
    have hfolder := World.wellFormed_of_look_folder htop hlook
    rw [hlook]
    refine ⟨fun f => exists_place_of_mem_discover hfolder, fun names content hreaches =>
      Path.shownBelow_of_texts hreaches.ne_nil (hfolder.isName hreaches) rfl, ?_⟩
    intro f hf g hg hftext hgtext hshown
    obtain ⟨place, hplace, hfpath⟩ := exists_place_of_mem_discover hfolder hf
    obtain ⟨place', hplace', hgpath⟩ := exists_place_of_mem_discover hfolder hg
    rw [hfpath] at hftext hshown ⊢
    rw [hgpath] at hgtext hshown ⊢
    rw [Path.place_eq_of_shownBelow hplace.ne_nil (hfolder.isName hplace) hplace'.ne_nil
      (hfolder.isName hplace') hftext hgtext hshown]
  · obtain ⟨base, name, -, hname⟩ := World.exists_name_of_item?_file hitem
    obtain ⟨hmatches, hother⟩ := discover_file (s := s) hname content
    rw [World.look_of_item?_file hitem] at hf
    have hpath : f.path = root := by
      by_cases h : s.Matches name
      · rw [hmatches h, List.mem_singleton] at hf
        rw [hf]
      · rw [hother h] at hf
        exact absurd hf List.not_mem_nil
    rw [hpath]
    -- Nothing is below a file that is the root itself.
    refine ⟨rfl, Path.shownBelow_of_not_below fun below hbelow heq => hbelow ?_⟩
    exact List.self_eq_append_right.1 heq

/-- In `p/.`, the path `p//b.py` is shown as `b.py`, and `q/b.py` is shown whole.
    The file `b.py` in the sample folder is shown by its name, from the link to the
    folder and from the top, too; as a root it is shown as it is spelled. -/
theorem shownBelow_exact_sample :
    (∃ piece, piece <:+: (Path.ofText "p//b.py".toList).spelling ∧
      (Path.mk piece).components = [.name (Utf8.encode "b.py".toList)] ∧
      (Path.ofText "p//b.py".toList).shownBelow (.ofText "p/.".toList) = Utf8.shown piece) ∧
    (Path.ofText "q/b.py".toList).shownBelow (.ofText "p/.".toList) =
      Utf8.shown (Path.ofText "q/b.py".toList).spelling ∧
    sampleWorld.top.WellFormed ∧
    (∀ root ∈ [Path.ofText ['l'], .ofText "/h/d".toList],
      sampleWorld.target? root = some (.folder sampleFolder) ∧
      (root.below [Utf8.encode "b.py".toList]).shownBelow root = "b.py".toList) ∧
    sampleWorld.item? (.ofText "/h/d/b.py".toList) = some (.file []) ∧
    ∀ f ∈ (sampleWorld.look (.ofText "/h/d/b.py".toList)).discover .standard
        (.ofText "/h/d/b.py".toList),
      f.path.shownBelow (.ofText "/h/d/b.py".toList) =
        Utf8.shown (Path.ofText "/h/d/b.py".toList).spelling := by
  have htargets : ∀ root ∈ [Path.ofText ['l'], .ofText "/h/d".toList],
      sampleWorld.target? root = some (.folder sampleFolder) := by
    rw [List.forall_mem_cons, List.forall_mem_singleton]
    exact ⟨rfl, rfl⟩
  have hitem : sampleWorld.item? (.ofText "/h/d/b.py".toList) = some (.file []) := rfl
  have hfirst : (Path.ofText "p/.".toList).components = [.name (Utf8.encode "p".toList)] := by
    decide
  have hexact := shownBelow_exact.2 sampleWorld wellFormed_sampleWorld .standard
  refine ⟨(shownBelow_exact.1 _ _).1 _ (by decide) (by decide),
    (shownBelow_exact.1 _ _).2 fun below _ heq => ?_, wellFormed_sampleWorld,
    fun root hroot => ⟨htargets root hroot, ?_⟩, hitem, fun f hf =>
    ((hexact _).2 [] hitem f hf).2⟩
  · rw [hfirst, List.singleton_append] at heq
    exact absurd (congrArg List.head? heq) (by rw [List.head?_cons]; decide)
  · exact ((hexact root).1 sampleFolder (htargets root hroot)).2.1 ["b.py".toList] []
      (.down List.mem_cons_self (.here _))

end Homonym
