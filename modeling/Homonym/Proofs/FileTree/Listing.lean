import Homonym.FileTree.Basic
import Mathlib.Data.List.Nodup

/-!
# All the files in a tree

Everything in a tree is reached from its top by going down from folder to entry
(`Node.Reaches`); a link is not gone through. The listing of a tree has all the
files that are reached, whatever they are called, each with its place
(`Node.mem_files_iff`), and no place twice if the tree is well-formed
(`Node.nodup_files`).
-/

namespace Homonym

/-- The names `place` lead from a node down to another one: every name but the
    last one is that of a folder. -/
inductive Node.Reaches : Node → List Name → Node → Prop
  /-- No name leads to the node itself. -/
  | here (node : Node) : Reaches node [] node
  /-- A name leads to an entry of a folder, and on from there. -/
  | down {entries : Entries} {name : Name} {child node : Node} {place : List Name} :
    (name, child) ∈ entries → Reaches child place node →
      Reaches (.folder entries) (name :: place) node

mutual

/-- The files in a node, with their places. -/
def Node.files : Node → List (List Name × Bytes)
  | .file content => [([], content)]
  | .link _ => []
  | .folder entries => Entries.files entries

/-- The files in a folder with the given entries, with their places. -/
def Entries.files : Entries → List (List Name × Bytes)
  | [] => []
  | (name, node) :: rest => node.files.map (fun f => (name :: f.1, f.2)) ++ Entries.files rest

end

namespace Node

theorem reaches_nil_iff {node node' : Node} : node.Reaches [] node' ↔ node = node' := by
  constructor
  · rintro ⟨⟩
    rfl
  · rintro rfl
    exact .here node

theorem reaches_cons_iff {node node' : Node} {name : Name} {place : List Name} :
    node.Reaches (name :: place) node' ↔
      ∃ entries child, node = .folder entries ∧ (name, child) ∈ entries ∧
        child.Reaches place node' := by
  constructor
  · rintro ⟨⟩
    exact ⟨_, _, rfl, ‹_›, ‹_›⟩
  · rintro ⟨entries, child, rfl, hmem, hchild⟩
    exact .down hmem hchild

/-- What is reached in a folder is reached through its first entry or through
    another one. -/
theorem reaches_folder_cons_iff {name first : Name} {node child : Node} {rest : Entries}
    {place : List Name} : (Node.folder ((first, child) :: rest)).Reaches (name :: place) node ↔
      name = first ∧ child.Reaches place node ∨
        (Node.folder rest).Reaches (name :: place) node := by
  simp only [reaches_cons_iff, folder.injEq]
  constructor
  · rintro ⟨_, child', rfl, hmem, hchild⟩
    rcases List.mem_cons.1 hmem with heq | hmem
    · cases heq
      exact .inl ⟨rfl, hchild⟩
    · exact .inr ⟨rest, child', rfl, hmem, hchild⟩
  · rintro (⟨rfl, hchild⟩ | ⟨_, child', rfl, hmem, hchild⟩)
    · exact ⟨_, child, rfl, List.mem_cons_self, hchild⟩
    · exact ⟨_, child', rfl, List.mem_cons_of_mem _ hmem, hchild⟩

/-- The node at a place is reached by it. -/
theorem reaches_of_get? {node child : Node} {place : List Name} (h : node.get? place = some child) :
    node.Reaches place child := by
  induction place generalizing node with
  | nil =>
    cases h
    exact .here child
  | cons name place ih =>
    rw [get?, Option.bind_eq_some_iff] at h
    obtain ⟨next, hnext, hchild⟩ := h
    cases node with
    | file content => cases hnext
    | link target => cases hnext
    | folder entries =>
      obtain ⟨before, after, rfl, -⟩ := List.lookup_eq_some_iff.1 hnext
      exact .down List.mem_append_cons_self (ih hchild)

end Node

mutual

/-- The listing of a node has the files that are reached from it. -/
theorem Node.mem_files_iff {place : List Name} {content : Bytes} : (node : Node) →
    ((place, content) ∈ node.files ↔ node.Reaches place (.file content))
  | .file content' => by
    cases place with
    | nil => simp [Node.files, Node.reaches_nil_iff, eq_comm]
    | cons name place => simp [Node.files, Node.reaches_cons_iff]
  | .link target => by
    cases place with
    | nil => simp [Node.files, Node.reaches_nil_iff]
    | cons name place => simp [Node.files, Node.reaches_cons_iff]
  | .folder entries => by
    rw [Node.files]
    exact Entries.mem_files_iff entries

/-- The files listed are those that are reached, at the places where they are. -/
theorem Entries.mem_files_iff {place : List Name} {content : Bytes} : (entries : Entries) →
    ((place, content) ∈ Entries.files entries ↔
      (Node.folder entries).Reaches place (.file content))
  | [] => by
    cases place with
    | nil => simp [Entries.files, Node.reaches_nil_iff]
    | cons name place => simp [Entries.files, Node.reaches_cons_iff]
  | (first, child) :: rest => by
    rw [Entries.files, List.mem_append, Entries.mem_files_iff rest]
    cases place with
    | nil => simp [Node.reaches_nil_iff]
    | cons name place =>
      rw [Node.reaches_folder_cons_iff, ← Node.mem_files_iff child]
      simp [eq_comm, and_comm]

end

/-- A file in a folder is not the folder itself. -/
theorem Entries.ne_nil_of_mem_files {entries : Entries} {f : List Name × Bytes}
    (hf : f ∈ Entries.files entries) : f.1 ≠ [] := by
  intro hnil
  have hreaches := (Entries.mem_files_iff entries).1 hf
  rw [hnil, Node.reaches_nil_iff] at hreaches
  cases hreaches

/-! ### Well-formed trees -/

theorem Entries.wellFormed_iff {entries : Entries} : Entries.WellFormed entries ↔
    ∀ e ∈ entries, IsName e.1 ∧ e.2.WellFormed := by
  induction entries with
  | nil => simp [Entries.WellFormed]
  | cons e rest ih =>
    rw [Entries.WellFormed, ih, List.forall_mem_cons, and_assoc]

theorem Node.WellFormed.of_mem {entries : Entries} (h : (Node.folder entries).WellFormed)
    {name : Name} {child : Node} (hmem : (name, child) ∈ entries) :
    IsName name ∧ child.WellFormed := by
  rw [Node.WellFormed, Entries.wellFormed_iff] at h
  exact h.2 _ hmem

/-- What is in a well-formed tree is well-formed. -/
theorem Node.WellFormed.of_reaches {node child : Node} {place : List Name} (h : node.WellFormed)
    (hreaches : node.Reaches place child) : child.WellFormed := by
  induction hreaches with
  | here => exact h
  | down hmem _ ih => exact ih (h.of_mem hmem).2

/-- What is in a well-formed tree is well-formed. -/
theorem Node.WellFormed.get? {node child : Node} {place : List Name} (h : node.WellFormed)
    (hchild : node.get? place = some child) : child.WellFormed :=
  h.of_reaches (reaches_of_get? hchild)

/-- The names in a well-formed tree are proper. -/
theorem Node.WellFormed.isName {node node' : Node} {place : List Name} (h : node.WellFormed)
    (hreaches : node.Reaches place node') : ∀ name ∈ place, IsName name := by
  induction hreaches with
  | here => exact fun _ hname => absurd hname List.not_mem_nil
  | down hmem _ ih =>
    rw [List.forall_mem_cons]
    exact ⟨(h.of_mem hmem).1, ih (h.of_mem hmem).2⟩

/-- The first name of a place in a folder is that of one of its entries. -/
theorem Entries.head_mem_of_mem_files {entries : Entries} {name : Name} {place : List Name}
    {content : Bytes} (h : (name :: place, content) ∈ Entries.files entries) :
    name ∈ entries.map Prod.fst := by
  obtain ⟨_, child, heq, hmem, -⟩ := Node.reaches_cons_iff.1 ((Entries.mem_files_iff entries).1 h)
  cases heq
  exact List.mem_map_of_mem hmem

mutual

/-- The listing of a well-formed tree has no place twice. -/
theorem Node.nodup_files : (node : Node) → node.WellFormed → (node.files.map Prod.fst).Nodup
  | .file _, _ => by
    rw [Node.files]
    exact List.nodup_singleton _
  | .link _, _ => by
    rw [Node.files]
    exact List.nodup_nil
  | .folder entries, h => by
    rw [Node.WellFormed] at h
    rw [Node.files]
    exact Entries.nodup_files entries h.1 h.2

/-- No place is listed twice, as the names in a folder are distinct. -/
theorem Entries.nodup_files : (entries : Entries) → (entries.map Prod.fst).Nodup →
    Entries.WellFormed entries → ((Entries.files entries).map Prod.fst).Nodup
  | [], _, _ => by
    rw [Entries.files]
    exact List.nodup_nil
  | (name, node) :: rest, hnodup, h => by
    rw [List.map_cons, List.nodup_cons] at hnodup
    rw [Entries.WellFormed] at h
    rw [Entries.files, List.map_append, List.map_map, List.nodup_append]
    refine ⟨?_, Entries.nodup_files rest hnodup.2 h.2.2, ?_⟩
    · have hnode := (Node.nodup_files node h.2.1).map (f := List.cons name) List.cons_injective
      rwa [List.map_map] at hnode
    · -- A place in another entry starts with another name.
      intro place hplace place' hplace' heq
      obtain ⟨f, -, rfl⟩ := List.mem_map.1 hplace
      obtain ⟨⟨place, content⟩, hf, rfl⟩ := List.mem_map.1 hplace'
      obtain rfl : name :: f.1 = place := heq
      exact hnodup.1 (Entries.head_mem_of_mem_files hf)

end

end Homonym
