import Homonym.FileTree.Walk
import Homonym.Proofs.FileTree.Listing
import Homonym.Proofs.Path.Below

/-!
# What there is at the end of a path

A path leads to its *item*, with a link at its end kept, and to its *target*,
with the link followed. The two are the same unless the item is a link
(`target?_eq_item?`), and the target never is one (`target?_ne_link`). So what
is seen at the end of a path is told by both of them:

* `look_eq_missing_iff`: nothing, if and only if the path has no target;
* `look_of_target?_folder`: a folder, if that is its target;
* `look_of_item?_file`: a file, if that is its item, which then has the last
  name in the path (`exists_name_of_item?_file`);
* `look_of_item?_link`: no file and no folder, if a link leads to no folder.

Every node of a well-formed tree is the item of a path that starts with a slash,
and of one that goes up to the top first (`item?_absolute`, `item?_rising`).
-/

namespace Homonym

namespace Node

/-! ### Places -/

theorem get?_append (node : Node) (place place' : List Name) :
    node.get? (place ++ place') = (node.get? place).bind (·.get? place') := by
  induction place generalizing node with
  | nil => rfl
  | cons name place ih =>
    rw [List.cons_append, get?, get?]
    cases node.child? name with
    | none => rfl
    | some child => exact ih child

theorem get?_concat (node : Node) (place : List Name) (name : Name) :
    node.get? (place ++ [name]) = (node.get? place).bind (·.child? name) := by
  rw [get?_append]
  congr 1
  funext child
  rw [get?]
  cases child.child? name <;> rfl

/-- What is at one name below a folder is its entry of this name. -/
theorem get?_concat_of_folder {node : Node} {place : List Name} {entries : Entries}
    (h : node.get? place = some (.folder entries)) (name : Name) :
    node.get? (place ++ [name]) = entries.lookup name := by
  rw [get?_concat, h]
  rfl

/-- Above a folder there is a folder, and above the top the top itself. -/
theorem get?_dropLast {node : Node} {place : List Name} {entries : Entries}
    (h : node.get? place = some (.folder entries)) :
    ∃ above, node.get? place.dropLast = some (.folder above) := by
  rcases List.eq_nil_or_concat' place with rfl | ⟨base, name, rfl⟩
  · exact ⟨entries, h⟩
  · rw [List.dropLast_concat]
    rw [get?_concat, Option.bind_eq_some_iff] at h
    obtain ⟨parent, hparent, hchild⟩ := h
    cases parent with
    | file content => exact absurd hchild (by simp [child?])
    | link target => exact absurd hchild (by simp [child?])
    | folder above => exact ⟨above, hparent⟩

/-! ### Legs -/

variable {top : Node}

/-- What is left to go at a link is an end of the steps, and not empty if a link
    at the very end is kept. -/
theorem advance_link {toEnd : Bool} {here base : List Name} {steps rest : List Bytes}
    {target : Bytes} (h : top.advance toEnd here steps = .link base target rest) :
    rest <:+ steps ∧ (toEnd = false → rest ≠ []) := by
  fun_induction advance top toEnd here steps with
  | case1 | case3 | case5 | case6 | case9 => cases h
  | case2 here step rest entries hfolder name hstep target hlookup hgo =>
    cases h
    refine ⟨List.suffix_cons step rest, ?_⟩
    rintro rfl rfl
    exact absurd hgo (by decide)
  | case4 here step rest entries hfolder name hstep node hnode hlookup ih =>
    exact ⟨(ih h).1.trans (List.suffix_cons step rest), (ih h).2⟩
  | case7 here step rest entries hfolder c hc hstep ih =>
    exact ⟨(ih h).1.trans (List.suffix_cons step rest), (ih h).2⟩
  | case8 here step rest entries hfolder hstep ih =>
    exact ⟨(ih h).1.trans (List.suffix_cons step rest), (ih h).2⟩

/-- A leg that keeps a link at the end is the one that follows it, unless there
    is a link at its end. -/
theorem advance_true (here : List Name) (steps : List Bytes)
    (hhere : steps = [] → ∀ t, top.get? here ≠ some (.link t)) :
    (top.advance true here steps = top.advance false here steps ∧
      ∀ place, top.advance false here steps = .reached place →
        ∀ t, top.get? place ≠ some (.link t)) ∨
    ∃ base name target, top.advance false here steps = .reached (base ++ [name]) ∧
      top.get? (base ++ [name]) = some (.link target) ∧
      top.advance true here steps = .link base target [] := by
  -- Both legs take the same steps, up to a link that is the last of them
  -- (`case3`). To end where it started a leg must not start at a link, which is
  -- what `hhere` is for.
  fun_induction advance top false here steps with
  | case1 here =>
    refine .inl ⟨rfl, fun place hplace => ?_⟩
    cases hplace
    exact hhere rfl
  | case2 here step rest entries hfolder name hstep target hlookup hgo =>
    refine .inl ⟨?_, fun _ hplace => by cases hplace⟩
    simp [advance, hfolder, hstep, hlookup]
  | case3 here step rest entries hfolder name hstep target hlookup hgo =>
    obtain rfl : rest = [] := by simpa using hgo
    refine .inr ⟨here, name, target, rfl, ?_, by simp [advance, hfolder, hstep, hlookup]⟩
    rw [get?_concat_of_folder hfolder, hlookup]
  | case4 here step rest entries hfolder name hstep node hnode hlookup ih =>
    have hadvance : top.advance true here (step :: rest) =
        top.advance true (here ++ [name]) rest := by
      simp [advance, hfolder, hstep, hlookup]
    rw [hadvance]
    refine ih fun _ t ht => hnode t ?_
    rw [get?_concat_of_folder hfolder, hlookup] at ht
    exact Option.some.inj ht
  | case5 here step rest entries hfolder name hstep hlookup hrest =>
    refine .inl ⟨by simp [advance, hfolder, hstep, hlookup, hrest], fun place hplace => ?_⟩
    cases hplace
    rw [get?_concat_of_folder hfolder, hlookup]
    simp
  | case6 here step rest entries hfolder name hstep hlookup hrest =>
    refine .inl ⟨?_, fun _ hplace => by cases hplace⟩
    simp [advance, hfolder, hstep, hlookup, hrest]
  | case7 here step rest entries hfolder c hc hstep ih =>
    have hadvance : top.advance true here (step :: rest) =
        top.advance true here.dropLast rest := by
      simp [advance, hfolder, hstep]
    obtain ⟨above, habove⟩ := get?_dropLast hfolder
    rw [hadvance]
    exact ih fun _ => by simp [habove]
  | case8 here step rest entries hfolder hstep ih =>
    have hadvance : top.advance true here (step :: rest) = top.advance true here rest := by
      simp [advance, hfolder, hstep]
    rw [hadvance]
    exact ih fun _ => by simp [hfolder]
  | case9 here step rest hfolder =>
    refine .inl ⟨?_, fun _ hplace => by cases hplace⟩
    simp [advance]

/-- If a leg that keeps a link at the end reaches a file, then by its last step,
    which is the name of the file. -/
theorem advance_file {here place : List Name} {steps : List Bytes} {content : Bytes}
    (h : top.advance false here steps = .reached place) (hsteps : steps ≠ [])
    (hfile : top.get? place = some (.file content)) :
    ∃ base name step, place = base ++ [name] ∧ steps.getLast? = some step ∧
      Path.Component.ofStep? step = some (.name name) := by
  fun_induction advance top false here steps with
  | case1 => exact absurd rfl hsteps
  | case2 | case6 | case9 => cases h
  | case3 here step rest entries hfolder name hstep target hlookup hgo =>
    cases h
    rw [get?_concat_of_folder hfolder, hlookup] at hfile
    cases hfile
  | case4 here step rest entries hfolder name hstep node hnode hlookup ih =>
    cases rest with
    | nil =>
      cases h
      exact ⟨here, name, step, rfl, rfl, hstep⟩
    | cons next rest =>
      rw [List.getLast?_cons_cons]
      exact ih h (List.cons_ne_nil _ _)
  | case5 here step rest entries hfolder name hstep hlookup hrest =>
    cases h
    rw [get?_concat_of_folder hfolder, hlookup] at hfile
    cases hfile
  | case7 here step rest entries hfolder c hc hstep ih =>
    cases rest with
    | nil =>
      cases h
      obtain ⟨above, habove⟩ := get?_dropLast hfolder
      rw [habove] at hfile
      cases hfile
    | cons next rest =>
      rw [List.getLast?_cons_cons]
      exact ih h (List.cons_ne_nil _ _)
  | case8 here step rest entries hfolder hstep ih =>
    cases rest with
    | nil =>
      cases h
      rw [hfolder] at hfile
      cases hfile
    | cons next rest =>
      rw [List.getLast?_cons_cons]
      exact ih h (List.cons_ne_nil _ _)

/-- A leg along the names of a place ends at this place, if there is a node. -/
theorem advance_names {here place : List Name} {node : Node}
    (hnames : ∀ name ∈ place, IsName name) (hnode : top.get? (here ++ place) = some node) :
    top.advance false here place = .reached (here ++ place) := by
  induction place generalizing here with
  | nil => rw [advance, List.append_nil]
  | cons name place ih =>
    have hrest : top.advance false (here ++ [name]) place = .reached (here ++ name :: place) := by
      have happend : here ++ name :: place = here ++ [name] ++ place := List.append_cons ..
      rw [happend] at hnode ⊢
      exact ih (fun n hn => hnames n (List.mem_cons_of_mem _ hn)) hnode
    have hstep := (hnames name List.mem_cons_self).1
    rw [get?_append, Option.bind_eq_some_iff] at hnode
    obtain ⟨parent, hparent, hnode⟩ := hnode
    rw [get?, Option.bind_eq_some_iff] at hnode
    obtain ⟨child, hchild, hnode⟩ := hnode
    cases parent with
    | file content => cases hchild
    | link target => cases hchild
    | folder entries =>
      have hlookup : entries.lookup name = some child := hchild
      cases child with
      | file content => simpa [advance, hparent, hstep, hlookup] using hrest
      | folder entries' => simpa [advance, hparent, hstep, hlookup] using hrest
      | link target =>
        -- A link has nothing below it, so it is the end of the place.
        cases place with
        | nil => simp [advance, hparent, hstep, hlookup]
        | cons name' place => cases hnode

/-- Steps that go back lead to the folders above, and at last to the top. -/
theorem advance_parents {here : List Name} {entries : Entries}
    (hfolder : top.get? here = some (.folder entries)) (n : Nat) (rest : List Bytes) :
    top.advance false here (List.replicate n [Path.dot, Path.dot] ++ rest) =
      top.advance false (here.take (here.length - n)) rest := by
  induction n generalizing here entries with
  | zero => rw [List.replicate_zero, List.nil_append, Nat.sub_zero, List.take_length]
  | succ n ih =>
    obtain ⟨above, habove⟩ := get?_dropLast hfolder
    have hstep : Path.Component.ofStep? [Path.dot, Path.dot] = some .parent := by decide
    have hback : top.advance false here
        ([Path.dot, Path.dot] :: (List.replicate n [Path.dot, Path.dot] ++ rest)) =
        top.advance false here.dropLast (List.replicate n [Path.dot, Path.dot] ++ rest) := by
      simp [advance, hfolder, hstep]
    rw [List.replicate_succ, List.cons_append, hback, ih habove, List.length_dropLast,
      List.dropLast_eq_take, List.take_take]
    congr 2
    omega

/-! ### Journeys -/

theorem steps?_ne_nil {p : Path} {steps : List Bytes} (h : p.steps? = some steps) :
    steps ≠ [] := by
  rw [Path.steps?] at h
  split_ifs at h
  cases h
  exact List.splitOn_ne_nil _ _

/-- Following a link at the end makes no difference if there is no link at the end. -/
theorem advance_true_eq {here : List Name} {steps : List Bytes} {leg : Leg} (hsteps : steps ≠ [])
    (h : top.advance false here steps = leg)
    (hlink : ∀ place t, leg = .reached place → top.get? place ≠ some (.link t)) :
    top.advance true here steps = leg := by
  rcases top.advance_true here steps fun hnil => absurd hnil hsteps with
    ⟨hsame, -⟩ | ⟨base, name, target, hreached, hget, -⟩
  · rw [hsame, h]
  · exact absurd hget (hlink _ target (h.symm.trans hreached))

/-- If a link at the end is followed, there is no link at the place that is reached. -/
theorem advance_true_reached {here place : List Name} {steps : List Bytes} (hsteps : steps ≠ [])
    (h : top.advance true here steps = .reached place) (t : Bytes) :
    top.get? place ≠ some (.link t) := by
  rcases top.advance_true here steps fun hnil => absurd hnil hsteps with
    ⟨hsame, hplace⟩ | ⟨base, name, target, -, -, hlink⟩
  · exact hplace place (hsame.symm.trans h) t
  · rw [hlink] at h
    cases h

/-- Without a link at its end, a journey is the same whether such a link is
    followed or kept. -/
theorem travel_true {budget : Nat} {here : List Name} {steps : List Bytes} (hsteps : steps ≠ [])
    (hlink : ∀ t, (top.travel false budget here steps).bind top.get? ≠ some (.link t)) :
    top.travel true budget here steps = top.travel false budget here steps := by
  -- A leg that does not reach the end is the same for both journeys, and the
  -- last one has no link at its end.
  fun_induction travel top false budget here steps with
  | case1 budget here steps place hleg =>
    have hleg' : top.advance true here steps = .reached place := by
      refine advance_true_eq hsteps hleg fun place' t hplace => ?_
      cases hplace
      exact hlink t
    rw [travel.eq_def, hleg']
  | case2 budget here steps hleg =>
    rw [travel.eq_def, advance_true_eq hsteps hleg fun _ _ hplace => by cases hplace]
  | case3 here steps base target rest hleg budget further hfurther ih =>
    rw [travel.eq_def, advance_true_eq hsteps hleg fun _ _ hplace => by cases hplace]
    simp only [hfurther]
    exact ih (List.append_ne_nil_of_left_ne_nil (steps?_ne_nil hfurther) rest) hlink
  | case4 budget here steps base target rest hleg hstop =>
    rw [travel.eq_def, advance_true_eq hsteps hleg fun _ _ hplace => by cases hplace]
    cases budget with
    | zero => rfl
    | succ budget =>
      cases hfurther : Path.steps? ⟨target⟩ with
      | none => simp only [hfurther]
      | some further => exact (hstop budget further rfl hfurther).elim

/-- A journey that follows a link at its end does not end at one. -/
theorem travel_true_ne_link {budget : Nat} {here : List Name} {steps : List Bytes}
    (hsteps : steps ≠ []) (t : Bytes) :
    (top.travel true budget here steps).bind top.get? ≠ some (.link t) := by
  fun_induction travel top true budget here steps with
  | case1 budget here steps place hleg => exact advance_true_reached hsteps hleg t
  | case2 | case4 => exact Option.some_ne_none _ |>.symm
  | case3 here steps base target rest hleg budget further hfurther ih =>
    exact ih (List.append_ne_nil_of_left_ne_nil (steps?_ne_nil hfurther) rest)

/-- If a journey that keeps a link at the end ends at a file, then by its last
    step, which is the name of the file. -/
theorem travel_file {budget : Nat} {here place : List Name} {steps : List Bytes}
    {content : Bytes} (h : top.travel false budget here steps = some place)
    (hsteps : steps ≠ []) (hfile : top.get? place = some (.file content)) :
    ∃ base name step, place = base ++ [name] ∧ steps.getLast? = some step ∧
      Path.Component.ofStep? step = some (.name name) := by
  fun_induction travel top false budget here steps with
  | case1 budget here steps place' hleg =>
    cases h
    exact advance_file hleg hsteps hfile
  | case2 | case4 => cases h
  | case3 here steps base target rest hleg budget further hfurther ih =>
    -- The steps after a link end as those before it.
    obtain ⟨⟨before, rfl⟩, hrest⟩ := advance_link hleg
    rw [List.getLast?_append_of_ne_nil _ (hrest rfl)]
    rw [List.getLast?_append_of_ne_nil _ (hrest rfl)] at ih
    exact ih h (List.append_ne_nil_of_left_ne_nil (steps?_ne_nil hfurther) rest)

end Node

namespace World

variable {w : World} {p : Path}

/-! ### Items and targets -/

/-- What a path leads to, with a link at its end kept. -/
def item? (w : World) (p : Path) : Option Node :=
  (w.locate false p).bind w.top.get?

/-- What a path leads to, with all links followed. -/
def target? (w : World) (p : Path) : Option Node :=
  (w.locate true p).bind w.top.get?

theorem item?_eq_bind (w : World) (p : Path) : w.item? p = p.steps?.bind fun steps =>
    (w.top.travel false linkLimit (p.start w.here) steps).bind w.top.get? := by
  rw [item?, locate, Option.bind_assoc]

theorem target?_eq_bind (w : World) (p : Path) : w.target? p = p.steps?.bind fun steps =>
    (w.top.travel true linkLimit (p.start w.here) steps).bind w.top.get? := by
  rw [target?, locate, Option.bind_assoc]

theorem target?_eq_item? (hlink : ∀ t, w.item? p ≠ some (.link t)) : w.target? p = w.item? p := by
  rw [item?_eq_bind] at hlink ⊢
  rw [target?_eq_bind]
  cases hp : p.steps? with
  | none => rw [Option.bind_none, Option.bind_none]
  | some steps =>
    rw [hp, Option.bind_some] at hlink
    rw [Option.bind_some, Option.bind_some, Node.travel_true (Node.steps?_ne_nil hp) hlink]

theorem target?_ne_link (p : Path) (t : Bytes) : w.target? p ≠ some (.link t) := by
  rw [target?_eq_bind]
  cases hp : p.steps? with
  | none =>
    rw [Option.bind_none]
    exact (Option.some_ne_none _).symm
  | some steps =>
    rw [Option.bind_some]
    exact Node.travel_true_ne_link (Node.steps?_ne_nil hp) t

/-- A path to a file ends in the name of the file. -/
theorem exists_name_of_item?_file {content : Bytes} (h : w.item? p = some (.file content)) :
    ∃ base name, w.locate false p = some (base ++ [name]) ∧ p.fileName? = some name := by
  obtain ⟨place, hplace, hfile⟩ := Option.bind_eq_some_iff.1 h
  obtain ⟨steps, hsteps, htravel⟩ := Option.bind_eq_some_iff.1 hplace
  obtain ⟨base, name, step, rfl, hlast, hname⟩ :=
    Node.travel_file htravel (Node.steps?_ne_nil hsteps) hfile
  refine ⟨base, name, hplace, Path.fileName?_of_getLast? ?_ hname⟩
  rw [Path.steps?] at hsteps
  split_ifs at hsteps
  cases hsteps
  exact hlast

/-! ### Paths from the top -/

/-- The path that goes along the names of a place from the top. -/
def absolute (place : List Name) : Path :=
  ⟨Path.slash :: List.intercalate [Path.slash] place⟩

/-- The path that goes up `n` folders, and then along the names of a place. -/
def rising (n : Nat) (place : List Name) : Path :=
  ⟨List.intercalate [Path.slash] (List.replicate n [Path.dot, Path.dot] ++ place)⟩

theorem steps?_eq_some (hne : p.spelling ≠ []) (hlimit : p.spelling.length ≤ pathLimit) :
    p.steps? = some (p.spelling.splitOn Path.slash) := by
  rw [Path.steps?, if_neg (not_or.2 ⟨hne, Nat.not_lt_of_le hlimit⟩)]

/-- A path whose steps meet no link leads to the node at the place that they reach. -/
theorem item?_of_advance {steps : List Bytes} (hsteps : p.steps? = some steps)
    {place : List Name} {node : Node} (hnode : w.top.get? place = some node)
    (h : w.top.advance false (p.start w.here) steps = .reached place) :
    w.item? p = some node := by
  rw [item?_eq_bind, hsteps, Option.bind_some, Node.travel.eq_def, h]
  exact hnode

/-- Everything in a tree is at the end of a path from the top. -/
theorem item?_absolute (htop : w.top.WellFormed) {entries : Entries}
    (hfolder : w.top = .folder entries) {place : List Name} {node : Node}
    (hnode : w.top.get? place = some node)
    (hlimit : (absolute place).spelling.length ≤ pathLimit) :
    w.item? (absolute place) = some node := by
  have hnames := htop.isName (Node.reaches_of_get? hnode)
  have hsteps : (absolute place).steps? =
      some ([] :: (List.intercalate [Path.slash] place).splitOn Path.slash) := by
    refine (steps?_eq_some (List.cons_ne_nil _ _) hlimit).trans ?_
    exact congrArg some (List.splitOn_append_cons_self [] _)
  have hget : w.top.get? [] = some (.folder entries) := congrArg some hfolder
  -- The slash in front is a step that stays at the top.
  have hidle : ∀ steps, w.top.advance false [] ([] :: steps) = w.top.advance false [] steps := by
    intro steps
    simp [Node.advance, hget, Path.ofStep?_nil]
  refine item?_of_advance hsteps hnode ((hidle _).trans ?_)
  by_cases hne : place = []
  · subst hne
    exact hidle []
  · rw [List.splitOn_intercalate _ (fun name hname => (hnames name hname).2) hne]
    exact Node.advance_names hnames hnode

/-- Everything in a tree is at the end of a path that goes up to the top first. It
    may go up more often than there are folders. -/
theorem item?_rising (htop : w.top.WellFormed) {entries : Entries}
    (hfolder : w.top.get? w.here = some (.folder entries)) {place : List Name} {node : Node}
    (hnode : w.top.get? place = some node) {n : Nat} (hn : w.here.length ≤ n + 1)
    (hlimit : (rising (n + 1) place).spelling.length ≤ pathLimit) :
    w.item? (rising (n + 1) place) = some node := by
  have hnames := htop.isName (Node.reaches_of_get? hnode)
  have hslash : ∀ step ∈ List.replicate (n + 1) [Path.dot, Path.dot] ++ place,
      Path.slash ∉ step := by
    intro step hstep
    rcases List.mem_append.1 hstep with hstep | hstep
    · rw [List.eq_of_mem_replicate hstep]
      decide
    · exact (hnames step hstep).2
  have hsplit : (rising (n + 1) place).spelling.splitOn Path.slash =
      List.replicate (n + 1) [Path.dot, Path.dot] ++ place :=
    List.splitOn_intercalate _ hslash (List.cons_ne_nil _ _)
  have hhead : (rising (n + 1) place).spelling.head? = some Path.dot := by
    rw [rising, List.replicate_succ, List.cons_append]
    cases List.replicate n [Path.dot, Path.dot] ++ place <;> rfl
  have hstart : (rising (n + 1) place).start w.here = w.here := by
    rw [Path.start, hhead, if_neg (by decide)]
  have hne : (rising (n + 1) place).spelling ≠ [] := fun hnil => by
    rw [hnil] at hhead
    cases hhead
  refine item?_of_advance (steps?_eq_some hne hlimit) hnode ?_
  rw [hsplit, hstart, Node.advance_parents hfolder, Nat.sub_eq_zero_of_le hn]
  exact Node.advance_names hnames hnode

/-! ### Sights -/

/-- What is seen at the end of a path with the given item and target. -/
def sight (item target : Option Node) : Sight :=
  match item with
  | none => .missing
  | some (.file content) => .file content
  | some (.folder entries) => .folder entries
  | some (.link _) =>
    match target with
    | some (.folder entries) => .folder entries
    | some (.file _) => .other
    | _ => .missing

/-- What is seen of a path depends only on what it leads to, with all links followed
    and with the last one kept. -/
theorem look_eq_sight : w.look p = sight (w.item? p) (w.target? p) := by
  -- Generalized first, as the two journeys are long to unfold.
  rw [look, item?, target?]
  generalize (w.locate false p).bind w.top.get? = item
  generalize (w.locate true p).bind w.top.get? = target
  rfl

/-- The folder that a path leads to is seen, through a link at its end, too. -/
theorem look_of_target?_folder {entries : Entries} (h : w.target? p = some (.folder entries)) :
    w.look p = .folder entries := by
  rw [look_eq_sight, h]
  by_cases hlink : ∃ t, w.item? p = some (.link t)
  · obtain ⟨t, ht⟩ := hlink
    rw [ht, sight]
  · rw [target?_eq_item? fun t ht => hlink ⟨t, ht⟩] at h
    rw [h, sight]

theorem eq_folder_of_sight {item target : Option Node} {entries : Entries}
    (h : sight item target = .folder entries) :
    item = some (.folder entries) ∨ target = some (.folder entries) := by
  match item with
  | none | some (.file _) => cases h
  | some (.folder _) =>
    cases h
    exact .inl rfl
  | some (.link _) =>
    match target with
    | none | some (.file _) | some (.link _) => cases h
    | some (.folder _) =>
      cases h
      exact .inr rfl

/-- A folder that is seen at the end of a path is at some place of the tree, so it is
    well-formed if the tree is. -/
theorem wellFormed_of_look_folder (htop : w.top.WellFormed) {entries : Entries}
    (h : w.look p = .folder entries) : (Node.folder entries).WellFormed := by
  rw [look_eq_sight] at h
  rcases eq_folder_of_sight h with hitem | htarget
  · obtain ⟨place, -, hget⟩ := Option.bind_eq_some_iff.1 hitem
    exact htop.get? hget
  · obtain ⟨place, -, hget⟩ := Option.bind_eq_some_iff.1 htarget
    exact htop.get? hget

theorem look_of_item?_file {content : Bytes} (h : w.item? p = some (.file content)) :
    w.look p = .file content := by
  rw [look_eq_sight, h, sight]

/-- A link that leads to no folder is seen as nothing or as something else. -/
theorem sight_link {t : Bytes} {target : Option Node}
    (hfolder : ∀ entries, target ≠ some (.folder entries)) :
    sight (some (.link t)) target = .missing ∨ sight (some (.link t)) target = .other := by
  match target with
  | none | some (.link _) => exact .inl rfl
  | some (.file _) => exact .inr rfl
  | some (.folder entries) => exact absurd rfl (hfolder entries)

/-- Of a link that leads to no folder nothing is seen, or only that there is
    something. -/
theorem look_of_item?_link {t : Bytes} (h : w.item? p = some (.link t))
    (hfolder : ∀ entries, w.target? p ≠ some (.folder entries)) :
    w.look p = .missing ∨ w.look p = .other := by
  rw [look_eq_sight, h]
  exact sight_link hfolder

/-- Nothing is seen exactly where nothing is at the end of all links. -/
theorem sight_eq_missing_iff {item target : Option Node}
    (hsame : (∀ t, item ≠ some (.link t)) → target = item)
    (hlink : ∀ t, target ≠ some (.link t)) : sight item target = .missing ↔ target = none := by
  match item with
  | none | some (.file _) | some (.folder _) =>
    rw [hsame fun t ht => by cases ht]
    simp [sight]
  | some (.link _) =>
    match target with
    | none | some (.file _) | some (.folder _) => simp [sight]
    | some (.link t) => exact absurd rfl (hlink t)

/-- Nothing is seen at the end of a path if and only if it has no target. -/
theorem look_eq_missing_iff : w.look p = .missing ↔ w.target? p = none := by
  rw [look_eq_sight]
  exact sight_eq_missing_iff target?_eq_item? (target?_ne_link p)

end World

end Homonym
