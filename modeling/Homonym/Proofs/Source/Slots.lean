import Homonym.Proofs.Source.Names
import Mathlib.Tactic.Common

/-!
# Grouping with slots

To group definitions by name in one pass, the groups are kept in a list that only
grows, together with a map from each name to its *slot*, the index of its group
(`Slots`). A definition whose name has a slot joins the group there; any other one
opens a group behind the others, and its name gets the index of this group.

An index from the map could miss the list, and then there would be no result. It
never does: the map always gives for a name the index of the first group of that
name, if there is one (`Coherent`), whatever names come in whatever order. So each
step is an enrolment (`place_eq_some`), and the whole pass finds the clashes.

* `findClashes?`: the clashes that the pass finds, if no index misses;
* `findClashes?_exact`: it finds those of any definitions.
-/

namespace Homonym

namespace Source

/-- A name is hashed as the string that it is. -/
instance : Hashable Text where
  hash name := hash (String.ofList name)

/-- The groups so far, and where they are. -/
structure Slots where
  /-- The index of the group of each name. -/
  slots : Std.HashMap Text Nat
  /-- The groups. -/
  groups : List Clash

/-- Neither groups nor slots. -/
def Slots.empty : Slots :=
  ⟨∅, []⟩

/-- The groups with one definition more: it joins the group in the slot of its
    name, if its name has one. There is no result if the slot is not there. -/
def Slots.place (s : Slots) (d : Definition) : Option Slots :=
  match s.slots[d.name]? with
  | some slot => do
    let g ← s.groups[slot]?
    return { s with groups := s.groups.set slot { g with sites := g.sites ++ [d] } }
  | none =>
    some { slots := s.slots.insert d.name s.groups.length, groups := s.groups ++ [⟨d.name, [d]⟩] }

/-- The names that are given to two or more of the definitions, found in one
    pass. -/
def findClashes? (ds : List Definition) : Option (List Clash) := do
  let s ← ds.foldlM Slots.place .empty
  return s.groups.filter fun g => 1 < g.sites.length

namespace Slots

/-- The index of the first group of a name. -/
def indexOf? (groups : List Clash) (name : Text) : Option Nat :=
  groups.findIdx? fun g => g.name = name

/-- The slot of a name is the index of its first group. -/
def Coherent (s : Slots) : Prop :=
  ∀ name, s.slots[name]? = indexOf? s.groups name

/-- At the start, no name has a slot and none has a group. -/
theorem coherent_empty : Coherent empty := by
  intro name
  exact Std.HashMap.getElem?_empty

/-- The first group is at the index zero, and all others are one further than
    without it. -/
theorem indexOf?_cons (g : Clash) (groups : List Clash) (name : Text) :
    indexOf? (g :: groups) name =
      if g.name = name then some 0 else (indexOf? groups name).map (· + 1) := by
  rw [indexOf?, List.findIdx?_cons, ← indexOf?]
  by_cases h : g.name = name <;> simp [h]

/-- The index depends on the names of the groups alone. -/
theorem indexOf?_congr {groups groups' : List Clash}
    (h : groups.map Clash.name = groups'.map Clash.name) (name : Text) :
    indexOf? groups name = indexOf? groups' name := by
  have hmap : ∀ gs : List Clash, indexOf? gs name = (gs.map Clash.name).findIdx? (· = name) := by
    intro gs
    rw [List.findIdx?_map]
    rfl
  rw [hmap, hmap, h]

/-- A group behind the others has the index of the end, unless its name has a group
    already. -/
theorem indexOf?_concat (groups : List Clash) (g : Clash) (name : Text) :
    indexOf? (groups ++ [g]) name =
      (indexOf? groups name).or (if g.name = name then some groups.length else none) := by
  rw [indexOf?, List.findIdx?_append, ← indexOf?, ← indexOf?, indexOf?_cons]
  congr 1
  by_cases h : g.name = name
  · rw [if_pos h, if_pos h, Option.map_some, Nat.zero_add]
  · rw [if_neg h, if_neg h]
    rfl

/-- A definition whose name has a group is enrolled in the first one. -/
theorem enrol_of_indexOf? {d : Definition} {groups : List Clash} {slot : Nat}
    (h : indexOf? groups d.name = some slot) : ∃ g, groups[slot]? = some g ∧
      enrol d groups = groups.set slot { g with sites := g.sites ++ [d] } ∧
      (groups.set slot { g with sites := g.sites ++ [d] }).map Clash.name =
        groups.map Clash.name := by
  induction groups generalizing slot with
  | nil => cases h
  | cons first groups ih =>
    rw [indexOf?_cons] at h
    by_cases hname : first.name = d.name
    · rw [if_pos hname] at h
      cases h
      exact ⟨first, rfl, by rw [enrol, if_pos hname]; rfl, rfl⟩
    · rw [if_neg hname, Option.map_eq_some_iff] at h
      obtain ⟨slot, hslot, rfl⟩ := h
      obtain ⟨g, hg, henrol, hnames⟩ := ih hslot
      refine ⟨g, hg, ?_, ?_⟩
      · rw [enrol, if_neg hname, henrol]
        rfl
      · exact congrArg (first.name :: ·) hnames

/-- A definition whose name has no group is enrolled behind all groups. -/
theorem enrol_of_indexOf?_eq_none {d : Definition} {groups : List Clash}
    (h : indexOf? groups d.name = none) : enrol d groups = groups ++ [⟨d.name, [d]⟩] := by
  induction groups with
  | nil => rfl
  | cons first groups ih =>
    rw [indexOf?_cons] at h
    by_cases hname : first.name = d.name
    · rw [if_pos hname] at h
      cases h
    · rw [if_neg hname, Option.map_eq_none_iff] at h
      rw [enrol, if_neg hname, ih h, List.cons_append]

/-- As long as the slots are those of the groups, placing a definition has a result,
    which enrols it, and the slots are again those of the groups. -/
theorem Coherent.place {s : Slots} (h : s.Coherent) (d : Definition) :
    ∃ s', s.place d = some s' ∧ s'.groups = enrol d s.groups ∧ s'.Coherent := by
  rw [Slots.place, h]
  cases hslot : indexOf? s.groups d.name with
  | some slot =>
    obtain ⟨g, hg, henrol, hnames⟩ := enrol_of_indexOf? hslot
    refine ⟨_, by simp only [hg]; rfl, henrol.symm, fun name => ?_⟩
    exact (h name).trans (indexOf?_congr hnames.symm name)
  | none =>
    refine ⟨_, rfl, (enrol_of_indexOf?_eq_none hslot).symm, fun name => ?_⟩
    -- A name that has a slot keeps it, and `d.name` has none yet.
    rw [Std.HashMap.getElem?_insert, indexOf?_concat, h]
    by_cases hname : d.name = name
    · subst hname
      simp [hslot]
    · simp [hname]

/-- The pass over some definitions enrols them one by one. -/
theorem Coherent.foldlM_place {s : Slots} (h : s.Coherent) (ds : List Definition) :
    ∃ s', ds.foldlM Slots.place s = some s' ∧
      s'.groups = ds.foldl (fun groups d => enrol d groups) s.groups ∧ s'.Coherent := by
  induction ds generalizing s with
  | nil => exact ⟨s, rfl, rfl, h⟩
  | cons d ds ih =>
    obtain ⟨s', hplace, hgroups, h'⟩ := h.place d
    obtain ⟨t, hfold, hfinal, ht⟩ := ih h'
    refine ⟨t, ?_, ?_, ht⟩
    · rw [List.foldlM_cons, hplace]
      exact hfold
    · rw [hfinal, hgroups, List.foldl_cons]

end Slots

/-- No index misses, and the pass finds the clashes. -/
theorem findClashes?_eq (ds : List Definition) : findClashes? ds = some (clashesAmong ds) := by
  obtain ⟨s, hfold, hgroups, -⟩ := Slots.coherent_empty.foldlM_place ds
  rw [findClashes?, hfold, clashesAmong]
  change some (s.groups.filter _) = _
  rw [hgroups]
  rfl

/-- What the pass with slots finds in any definitions: it has a result, which is the
    clashes that enrolment gives, and these are the names that two or more of the
    definitions have, in the order in which they are first given, each with all the
    definitions of that name in their order.

    So no such name is missing and none comes twice; the definitions that are in no
    clash are those whose name no other one has; and the definitions in clash, taken
    one clash after the other, have the same clashes again. -/
theorem findClashes?_exact (ds : List Definition) : ∃ clashes,
    findClashes? ds = some clashes ∧ clashes = clashesAmong ds ∧
    clashes =
      (((ds.map Definition.name).eraseDups.filter fun name =>
        2 ≤ (ds.map Definition.name).count name).map fun name =>
          ⟨name, ds.filter fun d => d.name = name⟩) ∧
    (∀ name, name ∈ clashes.map Clash.name ↔ 2 ≤ (ds.map Definition.name).count name) ∧
    (clashes.map Clash.name).Nodup ∧
    (∀ d ∈ ds, (∀ g ∈ clashes, d ∉ g.sites) ↔ (ds.map Definition.name).count d.name = 1) ∧
    findClashes? (clashes.flatMap Clash.sites) = some clashes := by
  refine ⟨clashesAmong ds, findClashes?_eq ds, rfl, clashesAmong_eq_map ds, fun name => ?_,
    nodup_clashesAmong ds, fun d hd => not_mem_sites_iff hd, ?_⟩
  · rw [List.mem_map, exists_clash_iff, length_named]
    rfl
  · rw [findClashes?_eq, clashesAmong_flatMap_sites]

end Source

end Homonym
