import Homonym.Proofs.Source.Grouping
import Mathlib.Data.List.Count

/-!
# Clashes, name by name

Grouping goes through the definitions once and keeps a group for each name. The
same is found by going through the names instead: each name that is given twice
or more, in the order in which the names are first given, with all the
definitions of that name in their order. So a name is never lost or listed
twice, and a definition is in no clash exactly if no other one has its name.

Definitions that are grouped already stay as they are: a group enrolled behind
others of other names is that group again (`foldl_enrol_sites`).

* `groups_eq_map`: the groups are those of the names, one by one;
* `clashesAmong_eq_map`: so are the clashes;
* `groups_flatMap_sites`: grouping the definitions of some groups again.
-/

namespace Homonym

namespace Source

/-! ### The names of the groups -/

/-- The names of some definitions, each once, in the order in which they are
    first given. -/
def names (ds : List Definition) : List Text :=
  (ds.map Definition.name).eraseDups

theorem mem_names_iff {name : Text} {ds : List Definition} :
    name ∈ names ds ↔ name ∈ ds.map Definition.name :=
  List.mem_eraseDups

/-- One definition more adds its name behind the others, unless the name is among
    them. -/
theorem names_concat (ds : List Definition) (d : Definition) :
    names (ds ++ [d]) = if d.name ∈ names ds then names ds else names ds ++ [d.name] := by
  rw [names, List.map_append, List.eraseDups_append, List.map_singleton, List.removeAll,
    List.filter_singleton, List.elem_eq_contains]
  by_cases h : d.name ∈ names ds
  · rw [if_pos h, List.contains_iff_mem.2 (mem_names_iff.1 h)]
    exact List.append_nil _
  · have hnew : (ds.map Definition.name).contains d.name = false :=
      Bool.eq_false_iff.2 fun hold => h (mem_names_iff.2 (List.contains_iff_mem.1 hold))
    rw [if_neg h, hnew]
    rfl

/-- Enrolling a definition adds its name behind the others, unless it is there
    already. -/
theorem map_name_enrol (d : Definition) (gs : List Clash) :
    (enrol d gs).map Clash.name =
      if d.name ∈ gs.map Clash.name then gs.map Clash.name
      else gs.map Clash.name ++ [d.name] := by
  rcases enrol_cases d gs with ⟨hnew, heq⟩ | ⟨before, g, after, rfl, hg, heq⟩
  · rw [heq, if_neg hnew, List.map_append, List.map_singleton]
  · have hold : d.name ∈ (before ++ g :: after).map Clash.name :=
      hg ▸ List.mem_map_of_mem List.mem_append_cons_self
    rw [heq, if_pos hold, List.map_append, List.map_append, List.map_cons, List.map_cons]

/-- The groups are in the order in which their names are first given. -/
theorem map_name_groups (ds : List Definition) : (groups ds).map Clash.name = names ds := by
  induction ds using List.reverseRecOn with
  | nil => rfl
  | append_singleton ds d ih => rw [groups_concat, map_name_enrol, ih, names_concat]

/-- The groups of some definitions are those of their names, one by one. -/
theorem groups_eq_map (ds : List Definition) :
    groups ds = (names ds).map fun name => ⟨name, named name ds⟩ := by
  have hgroup : ∀ g ∈ groups ds, (⟨g.name, named g.name ds⟩ : Clash) = g := by
    intro g hg
    rw [← (grouped_groups ds).sites g hg]
  rw [← map_name_groups, List.map_map]
  exact ((List.map_congr_left hgroup).trans (List.map_id _)).symm

/-! ### Grouping again -/

/-- A definition whose name is that of the last group alone joins that group. -/
theorem enrol_last {gs : List Clash} {d : Definition} (h : d.name ∉ gs.map Clash.name)
    (ds : List Definition) :
    enrol d (gs ++ [⟨d.name, ds⟩]) = gs ++ [⟨d.name, ds ++ [d]⟩] := by
  induction gs with
  | nil => rw [List.nil_append, enrol, if_pos rfl, List.nil_append]
  | cons g gs ih =>
    rw [List.map_cons, List.mem_cons, not_or] at h
    rw [List.cons_append, enrol, if_neg (Ne.symm h.1), ih h.2, List.cons_append]

/-- A group grows by the definitions of its name as long as it is the last one
    and the others have other names. -/
theorem foldl_enrol_last {gs : List Clash} {name : Text} (h : name ∉ gs.map Clash.name)
    (ds : List Definition) {ds' : List Definition} (hds' : ∀ d ∈ ds', d.name = name) :
    ds'.foldl (fun groups d => enrol d groups) (gs ++ [⟨name, ds⟩]) =
      gs ++ [⟨name, ds ++ ds'⟩] := by
  induction ds' generalizing ds with
  | nil => rw [List.foldl_nil, List.append_nil]
  | cons d ds' ih =>
    obtain ⟨rfl, hds'⟩ := List.forall_mem_cons.1 hds'
    rw [List.foldl_cons, enrol_last h, ih (ds ++ [d]) hds', List.append_assoc,
      List.singleton_append]

/-- Enrolling all the definitions of a group behind groups of other names gives
    this group. -/
theorem foldl_enrol_sites {gs : List Clash} {g : Clash} (hnew : g.name ∉ gs.map Clash.name)
    (hne : g.sites ≠ []) (hsites : ∀ d ∈ g.sites, d.name = g.name) :
    g.sites.foldl (fun groups d => enrol d groups) gs = gs ++ [g] := by
  obtain ⟨name, sites⟩ := g
  obtain ⟨d, ds, rfl⟩ := List.exists_cons_of_ne_nil hne
  obtain ⟨rfl, hds⟩ := List.forall_mem_cons.1 hsites
  -- The first definition opens the group, and the others join it.
  have hopen : enrol d gs = gs ++ [⟨d.name, [d]⟩] := by
    rcases enrol_cases d gs with ⟨-, heq⟩ | ⟨before, g, after, rfl, hg, -⟩
    · exact heq
    · rw [← hg] at hnew
      exact absurd (List.mem_map_of_mem List.mem_append_cons_self) hnew
  rw [List.foldl_cons, hopen, foldl_enrol_last hnew [d] hds, List.singleton_append]

/-- Groups of different names, each of definitions of its name, are the groups of
    all these definitions. -/
theorem groups_flatMap_sites {gs : List Clash} (hnames : (gs.map Clash.name).Nodup)
    (hne : ∀ g ∈ gs, g.sites ≠ []) (hsites : ∀ g ∈ gs, ∀ d ∈ g.sites, d.name = g.name) :
    groups (gs.flatMap Clash.sites) = gs := by
  induction gs using List.reverseRecOn with
  | nil => rfl
  | append_singleton gs g ih =>
    rw [List.map_append, List.map_singleton, List.nodup_append] at hnames
    have hnew : g.name ∉ gs.map Clash.name := fun h =>
      hnames.2.2 _ h _ (List.mem_singleton_self _) rfl
    have hg : g ∈ gs ++ [g] := List.mem_append_right _ (List.mem_singleton_self _)
    have hgs := ih hnames.1 (fun h hh => hne h (List.mem_append_left _ hh))
      (fun h hh => hsites h (List.mem_append_left _ hh))
    rw [groups, List.flatMap_append, List.foldl_append, List.flatMap_singleton, ← groups, hgs]
    exact foldl_enrol_sites hnew (hne g hg) (hsites g hg)

/-! ### Clashes among any definitions -/

/-- There are as many definitions of a name as it is given. -/
theorem length_named (name : Text) (ds : List Definition) :
    (named name ds).length = (ds.map Definition.name).count name := by
  rw [named, List.count, List.countP_map, List.countP_eq_length_filter]
  exact congrArg List.length (List.filter_congr fun d _ => (beq_eq_decide ..).symm)

/-- The clashes are the names given twice or more, in the order in which they are
    first given, each with all its definitions in their order. -/
theorem clashesAmong_eq_map (ds : List Definition) :
    clashesAmong ds = ((names ds).filter fun name => 2 ≤ (ds.map Definition.name).count name).map
      fun name => ⟨name, named name ds⟩ := by
  have hfilter : clashesAmong ds = (groups ds).filter fun g => 1 < g.sites.length := rfl
  rw [hfilter, groups_eq_map, List.filter_map]
  congr 1
  refine List.filter_congr fun name _ => ?_
  rw [Function.comp_apply, length_named]
  rfl

/-- A definition is in no clash exactly if its name is given once. -/
theorem not_mem_sites_iff {ds : List Definition} {d : Definition} (hd : d ∈ ds) :
    (∀ g ∈ clashesAmong ds, d ∉ g.sites) ↔ (ds.map Definition.name).count d.name = 1 := by
  have hpos : 0 < (ds.map Definition.name).count d.name :=
    List.count_pos_iff.2 (List.mem_map_of_mem hd)
  constructor
  · intro hnone
    by_contra hcount
    obtain ⟨g, hg, hname⟩ := exists_clash_iff.2 (show 1 < (named d.name ds).length by
      rw [length_named]
      omega)
    refine hnone g hg ?_
    rw [sites_of_mem_clashesAmong hg, hname]
    exact mem_named_iff.2 ⟨hd, rfl⟩
  · intro hcount g hg hmem
    have hlt := (mem_clashesAmong_iff.1 hg).2
    rw [sites_of_mem_clashesAmong hg] at hmem hlt
    rw [length_named, ← (mem_named_iff.1 hmem).2, hcount] at hlt
    exact Nat.lt_irrefl 1 hlt

/-- Grouping the definitions that are in clash again changes nothing. -/
theorem clashesAmong_flatMap_sites (ds : List Definition) :
    clashesAmong ((clashesAmong ds).flatMap Clash.sites) = clashesAmong ds := by
  have hgroups : groups ((clashesAmong ds).flatMap Clash.sites) = clashesAmong ds := by
    refine groups_flatMap_sites (nodup_clashesAmong ds) (fun g hg => ?_) (fun g hg d hd => ?_)
    · exact (grouped_groups ds).sites_ne_nil (mem_clashesAmong_iff.1 hg).1
    · rw [sites_of_mem_clashesAmong hg] at hd
      exact (mem_named_iff.1 hd).2
  have hfilter : clashesAmong ((clashesAmong ds).flatMap Clash.sites) =
      (groups ((clashesAmong ds).flatMap Clash.sites)).filter fun g => 1 < g.sites.length := rfl
  rw [hfilter, hgroups, List.filter_eq_self]
  exact fun g hg => decide_eq_true (mem_clashesAmong_iff.1 hg).2

end Source

end Homonym
