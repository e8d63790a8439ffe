import Homonym.Proofs.Source.Extent
import Homonym.Source.Clash
import Mathlib.Data.List.Forall2
import Mathlib.Data.List.Induction
import Mathlib.Data.List.Nodup

/-!
# Definitions grouped by name

The definitions are enrolled one by one. What holds of the groups after any
number of them is an invariant (`Grouped`): no name has two groups, the group of
a name has all its definitions in order, and the groups stand in the order of
the definitions that opened them. Each enrolment keeps it (`Grouped.enrol`), so
it holds of the groups of any list of definitions (`grouped_groups`), and the
clashes are those groups that have two definitions or more.

* `clashesAmong_corresponds`: grouping goes by the names alone;
* `clashes_exact`: which names a text has in clash, with which definitions and
  in which order.
-/

namespace Homonym

namespace Source

/-- The definitions of a name. -/
def named (name : Text) (ds : List Definition) : List Definition :=
  ds.filter fun d => d.name = name

theorem mem_named_iff {name : Text} {ds : List Definition} {d : Definition} :
    d ∈ named name ds ↔ d ∈ ds ∧ d.name = name := by
  simp [named]

theorem named_concat_self (ds : List Definition) (d : Definition) :
    named d.name (ds ++ [d]) = named d.name ds ++ [d] := by
  simp [named]

theorem named_concat_of_ne {name : Text} {d : Definition} (ds : List Definition)
    (h : d.name ≠ name) : named name (ds ++ [d]) = named name ds := by
  simp [named, h]

theorem named_eq_nil_iff {name : Text} {ds : List Definition} :
    named name ds = [] ↔ name ∉ ds.map Definition.name := by
  simp [named, List.filter_eq_nil_iff]

/-! ### Enrolment -/

/-- The groups of the definitions, those of a single definition included. -/
def groups (ds : List Definition) : List Clash :=
  ds.foldl (fun groups d => enrol d groups) []

/-- One definition more is enrolled in the groups of the others. -/
theorem groups_concat (ds : List Definition) (d : Definition) :
    groups (ds ++ [d]) = enrol d (groups ds) := by
  rw [groups, List.foldl_append]
  rfl

/-- A definition opens a group behind the others if its name has none, and
    otherwise joins the first one of its name, where all else stays. -/
theorem enrol_cases (d : Definition) (gs : List Clash) :
    (d.name ∉ gs.map Clash.name ∧ enrol d gs = gs ++ [⟨d.name, [d]⟩]) ∨
      ∃ before g after, gs = before ++ g :: after ∧ g.name = d.name ∧
        enrol d gs = before ++ ⟨g.name, g.sites ++ [d]⟩ :: after := by
  induction gs with
  | nil => exact .inl ⟨List.not_mem_nil, rfl⟩
  | cons g gs ih =>
    by_cases hg : g.name = d.name
    · exact .inr ⟨[], g, gs, rfl, hg, by rw [enrol, if_pos hg, List.nil_append]⟩
    · rw [enrol, if_neg hg]
      rcases ih with ⟨hnew, heq⟩ | ⟨before, g', after, rfl, hname, heq⟩
      · refine .inl ⟨?_, by rw [heq, List.cons_append]⟩
        rw [List.map_cons, List.mem_cons, not_or]
        exact ⟨Ne.symm hg, hnew⟩
      · exact .inr ⟨g :: before, g', after, rfl, hname, by rw [heq, List.cons_append]⟩

/-- What holds of the groups `gs` of the definitions `ds`. -/
structure Grouped (ds : List Definition) (gs : List Clash) : Prop where
  /-- No name has two groups. -/
  nodup : (gs.map Clash.name).Nodup
  /-- The names of the groups are those of the definitions. -/
  names : ∀ name, name ∈ gs.map Clash.name ↔ name ∈ ds.map Definition.name
  /-- Each group holds all the definitions of its name, in their order. -/
  sites : ∀ g ∈ gs, g.sites = named g.name ds
  /-- The first definitions of the groups, group by group, stand in the order
      of the definitions. -/
  heads : (gs.filterMap fun g => g.sites.head?).Sublist ds

/-- No group is empty. -/
theorem Grouped.sites_ne_nil {ds : List Definition} {gs : List Clash} (h : Grouped ds gs)
    {g : Clash} (hg : g ∈ gs) : g.sites ≠ [] := by
  rw [h.sites g hg, Ne, named_eq_nil_iff, not_not, ← h.names]
  exact List.mem_map_of_mem hg

/-- A definition whose name has no group yet opens one. -/
theorem Grouped.open {ds : List Definition} {gs : List Clash} (h : Grouped ds gs)
    {d : Definition} (hd : d.name ∉ gs.map Clash.name) :
    Grouped (ds ++ [d]) (gs ++ [⟨d.name, [d]⟩]) where
  nodup := by
    rw [List.map_append, List.nodup_append]
    refine ⟨h.nodup, List.nodup_singleton _, fun name hname name' hname' heq => hd ?_⟩
    rw [List.map_singleton, List.mem_singleton] at hname'
    rwa [heq, hname'] at hname
  names name := by
    rw [List.map_append, List.map_append, List.mem_append, List.mem_append, h.names]
    rfl
  sites g hg := by
    rcases List.mem_append.1 hg with hg | hg
    · have hne : d.name ≠ g.name := fun heq => hd (heq ▸ List.mem_map_of_mem hg)
      rw [named_concat_of_ne ds hne, h.sites g hg]
    · -- A name without a group has had no definition so far.
      obtain rfl := List.mem_singleton.1 hg
      have hnil : named d.name ds = [] := named_eq_nil_iff.2 fun hmem => hd ((h.names _).2 hmem)
      rw [named_concat_self, hnil, List.nil_append]
  heads := by
    rw [List.filterMap_append]
    exact h.heads.append (List.Sublist.refl [d])

/-- A definition whose name has a group joins it. -/
theorem Grouped.join {ds : List Definition} {before after : List Clash} {g : Clash}
    (h : Grouped ds (before ++ g :: after)) {d : Definition} (hg : g.name = d.name) :
    Grouped (ds ++ [d]) (before ++ ⟨g.name, g.sites ++ [d]⟩ :: after) where
  nodup := by simpa using h.nodup
  names name := by
    have hd : d.name ∈ ds.map Definition.name := by
      rw [← h.names, ← hg]
      exact List.mem_map_of_mem List.mem_append_cons_self
    have hsame : (before ++ (⟨g.name, g.sites ++ [d]⟩ : Clash) :: after).map Clash.name =
        (before ++ g :: after).map Clash.name := by simp
    rw [hsame, h.names, List.map_append, List.mem_append, List.map_singleton, List.mem_singleton]
    exact ⟨.inl, fun hname => hname.elim id fun heq => heq ▸ hd⟩
  sites g' hg' := by
    -- The other groups have other names, so `d` is none of their definitions.
    have hother : ∀ o ∈ before ++ after, d.name ≠ o.name := by
      intro o ho heq
      have hnodup := h.nodup
      rw [List.map_append, List.map_cons, List.nodup_middle, List.nodup_cons,
        ← List.map_append] at hnodup
      exact hnodup.1 (hg ▸ heq ▸ List.mem_map_of_mem ho)
    rcases List.mem_append.1 hg' with ho | ho
    · rw [named_concat_of_ne ds (hother g' (List.mem_append_left _ ho)),
        h.sites g' (List.mem_append_left _ ho)]
    · rcases List.mem_cons.1 ho with rfl | ho
      · rw [h.sites g List.mem_append_cons_self, hg, named_concat_self]
      · rw [named_concat_of_ne ds (hother g' (List.mem_append_right _ ho)),
          h.sites g' (List.mem_append_right _ (List.mem_cons_of_mem _ ho))]
  heads := by
    -- The definition joins behind others, so no group has a new first one.
    have hhead : (g.sites ++ [d]).head? = g.sites.head? := by
      obtain ⟨a, as, has⟩ := List.exists_cons_of_ne_nil (h.sites_ne_nil List.mem_append_cons_self)
      rw [has]
      rfl
    have hsame : (before ++ (⟨g.name, g.sites ++ [d]⟩ : Clash) :: after).filterMap
        (fun g => g.sites.head?) = (before ++ g :: after).filterMap (fun g => g.sites.head?) := by
      simp only [List.filterMap_append, List.filterMap_cons, hhead]
    rw [hsame]
    exact h.heads.trans (List.sublist_append_left ds [d])

/-- Enrolling a definition keeps the invariant. -/
theorem Grouped.enrol {ds : List Definition} {gs : List Clash} (h : Grouped ds gs)
    (d : Definition) : Grouped (ds ++ [d]) (Source.enrol d gs) := by
  rcases enrol_cases d gs with ⟨hd, heq⟩ | ⟨before, g, after, rfl, hg, heq⟩
  · rw [heq]
    exact h.open hd
  · rw [heq]
    exact h.join hg

/-- Enrolling definitions one by one groups them. -/
theorem grouped_groups (ds : List Definition) : Grouped ds (groups ds) := by
  induction ds using List.reverseRecOn with
  | nil => exact ⟨List.nodup_nil, fun _ => Iff.rfl, fun _ hg => absurd hg List.not_mem_nil, .slnil⟩
  | append_singleton ds d ih =>
    rw [groups_concat]
    exact ih.enrol d

/-! ### Clashes -/

theorem mem_clashesAmong_iff {ds : List Definition} {g : Clash} :
    g ∈ clashesAmong ds ↔ g ∈ groups ds ∧ 1 < g.sites.length := by
  rw [clashesAmong, List.mem_filter, decide_eq_true_iff]
  rfl

theorem clashesAmong_sublist (ds : List Definition) : (clashesAmong ds).Sublist (groups ds) :=
  List.filter_sublist

/-- The definitions in a clash are all those of its name. -/
theorem sites_of_mem_clashesAmong {ds : List Definition} {g : Clash} (hg : g ∈ clashesAmong ds) :
    g.sites = named g.name ds :=
  (grouped_groups ds).sites g (mem_clashesAmong_iff.1 hg).1

/-- A name clashes if and only if it has two definitions or more. -/
theorem exists_clash_iff {ds : List Definition} {name : Text} :
    (∃ g ∈ clashesAmong ds, g.name = name) ↔ 1 < (named name ds).length := by
  constructor
  · rintro ⟨g, hg, rfl⟩
    rw [← sites_of_mem_clashesAmong hg]
    exact (mem_clashesAmong_iff.1 hg).2
  · intro hlt
    have hname : name ∈ (groups ds).map Clash.name := by
      rw [(grouped_groups ds).names, ← not_not (a := name ∈ _), ← named_eq_nil_iff]
      exact List.ne_nil_of_length_pos (Nat.zero_lt_of_lt hlt)
    obtain ⟨g, hg, rfl⟩ := List.mem_map.1 hname
    refine ⟨g, mem_clashesAmong_iff.2 ⟨hg, ?_⟩, rfl⟩
    rwa [(grouped_groups ds).sites g hg]

theorem nodup_clashesAmong (ds : List Definition) : ((clashesAmong ds).map Clash.name).Nodup :=
  (grouped_groups ds).nodup.sublist ((clashesAmong_sublist ds).map Clash.name)

/-- Clashes stand in the order of their first definitions. -/
theorem clashesAmong_pairwise {R : Definition → Definition → Prop} {ds : List Definition}
    (hR : ds.Pairwise R) :
    (clashesAmong ds).Pairwise fun g h => ∃ a ∈ g.sites.head?, ∃ b ∈ h.sites.head?, R a b := by
  have hheads : ((clashesAmong ds).filterMap fun g => g.sites.head?).Pairwise R :=
    hR.sublist (((clashesAmong_sublist ds).filterMap _).trans (grouped_groups ds).heads)
  refine List.Pairwise.imp_of_mem ?_ (List.pairwise_filterMap.1 hheads)
  intro g h hg hh hgh
  have hsome : ∀ k ∈ clashesAmong ds, ∃ a, k.sites.head? = some a := fun k hk =>
    Option.isSome_iff_exists.1 (List.isSome_head?.2
      ((grouped_groups ds).sites_ne_nil (mem_clashesAmong_iff.1 hk).1))
  obtain ⟨a, ha⟩ := hsome g hg
  obtain ⟨b, hb⟩ := hsome h hh
  exact ⟨a, ha, b, hb, hgh a ha b hb⟩

/-! ### Clashes of corresponding definitions -/

/-- Two groups correspond if they have one name and definitions that are related
    one by one. -/
structure Clash.Corresponds (R : Definition → Definition → Prop) (g h : Clash) : Prop where
  /-- They have the same name. -/
  name_eq : g.name = h.name
  /-- They have as many definitions, each related to the one in its place. -/
  sites : List.Forall₂ R g.sites h.sites

section

variable {R : Definition → Definition → Prop} (hR : ∀ d e, R d e → d.name = e.name)
include hR

/-- Definitions of the same name join groups that correspond. -/
theorem enrol_corresponds {d e : Definition} (hde : R d e) {gs hs : List Clash}
    (h : List.Forall₂ (Clash.Corresponds R) gs hs) :
    List.Forall₂ (Clash.Corresponds R) (enrol d gs) (enrol e hs) := by
  induction h with
  | nil => exact .cons ⟨hR d e hde, .cons hde .nil⟩ .nil
  | cons hg hgs ih =>
    rw [enrol, enrol, hg.name_eq, hR d e hde]
    split
    · exact .cons ⟨rfl, List.rel_append hg.sites (.cons hde .nil)⟩ hgs
    · exact .cons hg ih

/-- Grouping goes by the names alone: definitions that are related one by one,
    each to one of the same name, have clashes that correspond. -/
theorem clashesAmong_corresponds {ds es : List Definition} (h : List.Forall₂ R ds es) :
    List.Forall₂ (Clash.Corresponds R) (clashesAmong ds) (clashesAmong es) := by
  have hgroups : List.Forall₂ (Clash.Corresponds R) (groups ds) (groups es) := by
    refine List.rel_foldl ?_ .nil h
    intro gs hs hgs d e hde
    exact enrol_corresponds hR hde hgs
  refine List.rel_filter ?_ hgroups
  intro g g' hg
  simp only [hg.sites.length_eq]

end

/-! ### Clashes of a text -/

/-- The definitions of a name start in the lines that are headers of it. -/
theorem mem_first_named_iff {source : Text} {name : Text} {i : Nat} :
    i ∈ (named name (definitions source)).map Definition.first ↔
      headerAt? (lines source) i = some name := by
  rw [← exists_definition_iff, List.mem_map]
  constructor
  · rintro ⟨d, hd, rfl⟩
    obtain ⟨hd, hname⟩ := mem_named_iff.1 hd
    exact ⟨d, hd, rfl, hname⟩
  · rintro ⟨d, hd, rfl, hname⟩
    exact ⟨d, mem_named_iff.2 ⟨hd, hname⟩, rfl⟩

theorem named_definitions_pairwise (name : Text) (source : Text) :
    ((named name (definitions source)).map Definition.first).Pairwise (· < ·) :=
  List.pairwise_map.2 ((definitions_pairwise source).sublist List.filter_sublist)

/-- A list of numbers in increasing order has two or more if and only if it has
    two that differ. -/
theorem one_lt_length_iff {is : List Nat} (h : is.Pairwise (· < ·)) :
    1 < is.length ↔ ∃ i j, i < j ∧ i ∈ is ∧ j ∈ is := by
  constructor
  · intro hlt
    obtain ⟨i, j, rest, rfl⟩ : ∃ i j rest, is = i :: j :: rest := by
      match is, hlt with
      | i :: j :: rest, _ => exact ⟨i, j, rest, rfl⟩
    refine ⟨i, j, ?_, List.mem_cons_self, List.mem_cons_of_mem _ List.mem_cons_self⟩
    exact List.rel_of_pairwise_cons h List.mem_cons_self
  · rintro ⟨i, j, hij, hi, hj⟩
    match is, hi, hj with
    | [k], hi, hj =>
      rw [List.mem_singleton] at hi hj
      omega
    | _ :: _ :: _, _, _ => simp

/-- The clashes of a text, exactly: a name is in clash if and only if two lines
    are headers with it, and then once; its definitions are those that start in
    all the lines that are headers with it, in increasing order; and the clashes
    stand in the order of the lines where their first definitions start. -/
theorem clashes_exact (source : Text) :
    (∀ name, (∃ g ∈ clashes source, g.name = name) ↔
      ∃ i j, i < j ∧ headerAt? (lines source) i = some name ∧
        headerAt? (lines source) j = some name) ∧
    ((clashes source).map Clash.name).Nodup ∧
    (∀ g ∈ clashes source,
      (g.sites.map Definition.first).Pairwise (· < ·) ∧
      (∀ i, i ∈ g.sites.map Definition.first ↔ headerAt? (lines source) i = some g.name) ∧
      ∀ d ∈ g.sites, d ∈ definitions source) ∧
    (clashes source).Pairwise fun g h =>
      ∃ a ∈ g.sites.head?, ∃ b ∈ h.sites.head?, a.first < b.first := by
  refine ⟨fun name => ?_, nodup_clashesAmong _, fun g hg => ?_,
    clashesAmong_pairwise (definitions_pairwise source)⟩
  · have hcount := one_lt_length_iff (named_definitions_pairwise name source)
    simp only [List.length_map, mem_first_named_iff] at hcount
    rw [← hcount]
    exact exists_clash_iff
  · rw [sites_of_mem_clashesAmong hg]
    exact ⟨named_definitions_pairwise g.name source, fun _ => mem_first_named_iff,
      fun d hd => (mem_named_iff.1 hd).1⟩

end Source

end Homonym
