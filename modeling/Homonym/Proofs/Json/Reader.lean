import Homonym.Proofs.Json.Grammar

/-!
# Reading JSON

A document is read character by character, by a machine that keeps what is not
finished yet in a stack of *frames*: the arrays and objects that the next
character stands in, each with what was read of it so far. A string is collected
up to its closing quotation mark and its escapes are undone afterwards; a number
goes on for as long as digits come. The machine refuses a character that cannot
stand where it is.

The reader knows the grammar and nothing of a layout, so it reads a value in
whichever way it is written.

* `read?`: the value that a document holds;
* `read?_of_isDocument`: every document of a value is read as the value.
-/

namespace Homonym

namespace Json

/-! ### Strings without their escapes -/

/-- The codes of the characters inside a string, where a pair of codes still
    stands for one character. -/
def codes? : Text → Option (List Nat)
  | [] => some []
  | '\\' :: 'u' :: d₁ :: d₂ :: d₃ :: d₄ :: rest =>
    (hexNumber? [d₁, d₂, d₃, d₄]).bind fun n => (codes? rest).map (n :: ·)
  | '\\' :: e :: rest => (letters.lookup e).bind fun c => (codes? rest).map (c.toNat :: ·)
  | ['\\'] => none
  | c :: rest => if c.toNat < 0x20 then none else (codes? rest).map (c.toNat :: ·)

/-- The characters with the given codes, pairs put together. -/
def characters? : List Nat → Option Text
  | [] => some []
  | n :: rest =>
    if isHigh n then
      match rest with
      | [] => none
      | m :: rest =>
        if isLow m then (characters? rest).map (Char.ofNat (pairCode n m) :: ·) else none
    else if isLow n then none
    else (characters? rest).map (Char.ofNat n :: ·)

/-- The text that the inside of a string stands for. -/
def unescape? (inner : Text) : Option Text :=
  (codes? inner).bind characters?

/-! ### The machine -/

/-- Something unfinished that a value is read for. -/
inductive Frame where
  /-- An array, with the items before the value, the last one first. -/
  | array (before : List Json)
  /-- An object, with the fields before the value, the last one first, and the
      key of the value. -/
  | object (before : List (Text × Json)) (key : Text)

/-- What a string is read for. -/
inductive Use where
  /-- It is a value. -/
  | value
  /-- It is the key of a field behind the given fields. -/
  | key (before : List (Text × Json))

/-- Where the reader stands between two characters. -/
inductive State where
  /-- A value is due. -/
  | value (frames : List Frame)
  /-- An array has begun: its first item is due, or its end. -/
  | array (frames : List Frame)
  /-- An object has begun: its first key is due, or its end. -/
  | object (frames : List Frame)
  /-- The key of a field behind the given fields is due. -/
  | key (before : List (Text × Json)) (frames : List Frame)
  /-- The colon behind a key is due. -/
  | colon (before : List (Text × Json)) (key : Text) (frames : List Frame)
  /-- A number has begun and is `n` so far. -/
  | number (n : Nat) (frames : List Frame)
  /-- A string has begun and is `inner` so far; a backslash may be the last
      character of it. -/
  | string (inner : Text) (escaped : Bool) (use : Use) (frames : List Frame)
  /-- A value has been read. -/
  | done (v : Json) (frames : List Frame)

/-- The value of a decimal digit. -/
def digitValue (c : Char) : Nat :=
  c.toNat - '0'.toNat

/-- The first character of a value. -/
def start (frames : List Frame) (c : Char) : Option State :=
  if c = '"' then some (.string [] false .value frames)
  else if c = '[' then some (.array frames)
  else if c = '\x7b' then some (.object frames)
  else if c.isDigit then some (.number (digitValue c) frames)
  else none

/-- The character behind a value that says how it goes on. -/
def proceed (v : Json) : List Frame → Char → Option State
  | .array before :: frames, ',' => some (.value (.array (v :: before) :: frames))
  | .array before :: frames, ']' => some (.done (.array (v :: before).reverse) frames)
  | .object before key :: frames, ',' => some (.key ((key, v) :: before) frames)
  | .object before key :: frames, '\x7d' =>
    some (.done (.object ((key, v) :: before).reverse) frames)
  | _, _ => none

/-- A character behind a value. -/
def follow (v : Json) (frames : List Frame) (c : Char) : Option State :=
  if isBlank c then some (.done v frames) else proceed v frames c

/-- What comes of a string that has been read. -/
def Use.finish (frames : List Frame) (t : Text) : Use → State
  | .value => .done (.string t) frames
  | .key before => .colon before t frames

/-- Reads one character. -/
def step : State → Char → Option State
  | .value frames, c => if isBlank c then some (.value frames) else start frames c
  | .array frames, c =>
    if isBlank c then some (.array frames)
    else if c = ']' then some (.done (.array []) frames)
    else start (.array [] :: frames) c
  | .object frames, c =>
    if isBlank c then some (.object frames)
    else if c = '\x7d' then some (.done (.object []) frames)
    else if c = '"' then some (.string [] false (.key []) frames)
    else none
  | .key before frames, c =>
    if isBlank c then some (.key before frames)
    else if c = '"' then some (.string [] false (.key before) frames)
    else none
  | .colon before key frames, c =>
    if isBlank c then some (.colon before key frames)
    else if c = ':' then some (.value (.object before key :: frames))
    else none
  | .number n frames, c =>
    -- Behind the digit zero there is no other one.
    if c.isDigit then if n = 0 then none else some (.number (10 * n + digitValue c) frames)
    else follow (.number n) frames c
  | .string inner escaped use frames, c =>
    if escaped then some (.string (inner ++ [c]) false use frames)
    else if c = '"' then (unescape? inner).map fun t => use.finish frames t
    else some (.string (inner ++ [c]) (c = '\\') use frames)
  | .done v frames, c => follow v frames c

/-- Reads some characters. -/
def State.read (st : State) (t : Text) : Option State :=
  t.foldlM step st

/-- The value that has been read at the end of a document. -/
def State.value? : State → Option Json
  | .done v [] => some v
  | .number n [] => some (.number n)
  | _ => none

/-- The value that a document holds. -/
def read? (t : Text) : Option Json :=
  ((State.value []).read t).bind State.value?

namespace State

theorem read_nil (st : State) : st.read [] = some st :=
  rfl

theorem read_cons (st : State) (c : Char) (t : Text) :
    st.read (c :: t) = (step st c).bind fun st' => st'.read t := by
  rw [read, List.foldlM_cons]
  rfl

theorem read_append (st : State) (s t : Text) :
    st.read (s ++ t) = (st.read s).bind fun st' => st'.read t := by
  rw [read, List.foldlM_append]
  rfl

/-- A state that white space does not change reads over a gap. -/
theorem read_gap {st : State} (h : ∀ c, isBlank c = true → step st c = some st) {w : Text}
    (hw : IsGap w) : st.read w = some st := by
  induction w with
  | nil => rfl
  | cons c w ih =>
    rw [read_cons, h c (hw c List.mem_cons_self), Option.bind_some,
      ih fun c' hc' => hw c' (List.mem_cons_of_mem _ hc')]

end State

/-! ### Strings -/

/-- An escape with four hexadecimal digits is the code that they say. -/
theorem codes?_code {d₁ d₂ d₃ d₄ : Char} {n : Nat} (h : hexNumber? [d₁, d₂, d₃, d₄] = some n)
    (rest : Text) :
    codes? ('\\' :: 'u' :: d₁ :: d₂ :: d₃ :: d₄ :: rest) = (codes? rest).map (n :: ·) := by
  rw [codes?, h, Option.bind_some]

/-- Each escape letter stands for one character, and none of them is the one in
    front of a code. -/
theorem letters_lookup : ∀ p ∈ letters, p.1 ≠ 'u' ∧ letters.lookup p.1 = some p.2 := by
  decide

theorem codes?_letter {e c : Char} (h : (e, c) ∈ letters) (rest : Text) :
    codes? ('\\' :: e :: rest) = (codes? rest).map (c.toNat :: ·) := by
  obtain ⟨hne, hlookup⟩ := letters_lookup (e, c) h
  rw [codes?, hlookup, Option.bind_some]
  rintro d₁ d₂ d₃ d₄ rest' rfl -
  exact hne rfl

theorem codes?_plain {c : Char} (hslash : c ≠ '\\') (hcode : 0x20 ≤ c.toNat) (rest : Text) :
    codes? (c :: rest) = (codes? rest).map (c.toNat :: ·) := by
  rw [codes?, if_neg (Nat.not_lt.2 hcode)]
  all_goals
    intros
    exact hslash ‹_›

/-- The code of a character is none of those that make pairs. -/
theorem isHigh_toNat (c : Char) : isHigh c.toNat = false ∧ isLow c.toNat = false := by
  have hvalid : c.toNat < 0xD800 ∨ 0xDFFF < c.toNat ∧ c.toNat < 0x110000 := c.valid
  constructor
  · simp only [isHigh, Bool.and_eq_false_iff, decide_eq_false_iff_not]
    omega
  · simp only [isLow, Bool.and_eq_false_iff, decide_eq_false_iff_not]
    omega

/-- The code of a character is read as this character, as no character has the code
    of half a pair. -/
theorem characters?_toNat (c : Char) (ns : List Nat) :
    characters? (c.toNat :: ns) = (characters? ns).map (c :: ·) := by
  obtain ⟨hhigh, hlow⟩ := isHigh_toNat c
  rw [characters?.eq_def]
  simp only [hhigh, hlow, Bool.false_eq_true, if_false, Char.ofNat_toNat]

theorem characters?_pair {c : Char} {high low : Nat} (hhigh : isHigh high = true)
    (hlow : isLow low = true) (h : c.toNat = pairCode high low) (ns : List Nat) :
    characters? (high :: low :: ns) = (characters? ns).map (c :: ·) := by
  rw [characters?, if_pos hhigh, if_pos hlow, ← h, Char.ofNat_toNat]

/-- However a character is written inside a string, it is read as what it is. -/
theorem unescape?_append {c : Char} {s : Text} (h : SpellsChar c s) (rest : Text) :
    unescape? (s ++ rest) = (unescape? rest).map (c :: ·) := by
  rw [unescape?, unescape?]
  cases h with
  | plain hquote hslash hcode =>
    rw [List.singleton_append, codes?_plain hslash hcode]
    cases codes? rest with
    | none => rfl
    | some ns => exact characters?_toNat c ns
  | letter h =>
    rw [List.cons_append, List.singleton_append, codes?_letter h]
    cases codes? rest with
    | none => rfl
    | some ns => exact characters?_toNat c ns
  | code h =>
    simp only [List.cons_append, List.nil_append, codes?_code h]
    cases codes? rest with
    | none => rfl
    | some ns => exact characters?_toNat c ns
  | pair hhigh hlow hishigh hislow h =>
    simp only [List.cons_append, List.nil_append, codes?_code hhigh, codes?_code hlow]
    cases codes? rest with
    | none => rfl
    | some ns => exact characters?_pair hishigh hislow h ns

/-- Whatever spells a text in a string is read as this text. -/
theorem unescape?_of_spellsChars {t s : Text} (h : SpellsChars t s) : unescape? s = some t := by
  induction h with
  | nil => rfl
  | cons hc _ ih => rw [unescape?_append hc, ih, Option.map_some]

theorem hexValue?_quote : hexValue? '"' = none ∧ hexValue? '\\' = none := by
  decide

/-- There is no quotation mark and no backslash among digits. -/
theorem plain_of_hexNumber? {ds : Text} {n : Nat} (h : hexNumber? ds = some n) :
    ∀ d ∈ ds, d ≠ '"' ∧ d ≠ '\\' := by
  rw [hexNumber?] at h
  generalize 0 = m at h
  induction ds generalizing m with
  | nil => exact fun _ hd => absurd hd List.not_mem_nil
  | cons d ds ih =>
    rw [List.foldlM_cons] at h
    obtain ⟨m', hm', h⟩ := Option.bind_eq_some_iff.1 h
    rw [List.forall_mem_cons]
    refine ⟨⟨?_, ?_⟩, ih m' h⟩
    · rintro rfl
      rw [hexValue?_quote.1] at hm'
      cases hm'
    · rintro rfl
      rw [hexValue?_quote.2] at hm'
      cases hm'

section

variable (inner : Text) (use : Use) (frames : List Frame)

theorem read_plain {ds : Text} (h : ∀ d ∈ ds, d ≠ '"' ∧ d ≠ '\\') :
    (State.string inner false use frames).read ds =
      some (.string (inner ++ ds) false use frames) := by
  induction ds generalizing inner with
  | nil => rw [State.read_nil, List.append_nil]
  | cons d ds ih =>
    obtain ⟨hd, hds⟩ := List.forall_mem_cons.1 h
    rw [State.read_cons, step, if_neg Bool.false_ne_true, if_neg hd.1, decide_eq_false hd.2,
      Option.bind_some, ih _ hds, List.append_assoc, List.singleton_append]

/-- Whatever stands behind a backslash is collected with it. -/
theorem read_escape (e : Char) (rest : Text) :
    (State.string inner false use frames).read ('\\' :: e :: rest) =
      (State.string (inner ++ ['\\', e]) false use frames).read rest := by
  rw [State.read_cons, step, if_neg Bool.false_ne_true, if_neg (by decide), Option.bind_some,
    State.read_cons, step, if_pos (by decide), Option.bind_some, List.append_assoc]
  rfl

/-- A code is collected with its four digits. -/
theorem read_code {d₁ d₂ d₃ d₄ : Char} {n : Nat} (h : hexNumber? [d₁, d₂, d₃, d₄] = some n)
    (rest : Text) :
    (State.string inner false use frames).read ('\\' :: 'u' :: d₁ :: d₂ :: d₃ :: d₄ :: rest) =
      (State.string (inner ++ ['\\', 'u', d₁, d₂, d₃, d₄]) false use frames).read rest := by
  have hdigits : d₁ :: d₂ :: d₃ :: d₄ :: rest = [d₁, d₂, d₃, d₄] ++ rest := rfl
  rw [read_escape, hdigits, State.read_append, read_plain _ _ _ (plain_of_hexNumber? h),
    Option.bind_some, List.append_assoc]
  rfl

/-- A character inside a string is collected as it is written. -/
theorem read_spellsChar {c : Char} {s : Text} (h : SpellsChar c s) :
    (State.string inner false use frames).read s =
      some (.string (inner ++ s) false use frames) := by
  cases h with
  | plain hquote hslash hcode =>
    exact read_plain inner use frames fun d hd => List.mem_singleton.1 hd ▸ ⟨hquote, hslash⟩
  | letter h => rw [read_escape, State.read_nil]
  | code h => rw [read_code _ _ _ h, State.read_nil]
  | pair hhigh hlow hishigh hislow h =>
    rw [read_code _ _ _ hhigh, read_code _ _ _ hlow, State.read_nil, List.append_assoc]
    rfl

/-- What spells a text is collected as a whole: no quotation mark in it closes the
    string. -/
theorem read_spellsChars {t s : Text} (h : SpellsChars t s) :
    (State.string inner false use frames).read s =
      some (.string (inner ++ s) false use frames) := by
  induction h generalizing inner with
  | nil => rw [State.read_nil, List.append_nil]
  | cons hc _ ih =>
    rw [State.read_append, read_spellsChar inner use frames hc, Option.bind_some, ih,
      List.append_assoc]

end

/-- A string is read as what it stands for, for whatever use it has. -/
theorem read_isString {st : State} {use : Use} {frames : List Frame}
    (hst : step st '"' = some (.string [] false use frames)) {t s : Text} (h : IsString t s) :
    st.read s = some (use.finish frames t) := by
  obtain ⟨inner, hinner, rfl⟩ := h
  rw [List.cons_append, State.read_cons, hst, Option.bind_some, State.read_append,
    read_spellsChars [] use frames hinner, Option.bind_some, List.nil_append, State.read_cons, step,
    if_neg Bool.false_ne_true, if_pos rfl, unescape?_of_spellsChars hinner]
  rfl

/-! ### Before and behind a value -/

/-- A state in which a value is due, with the frames that it is read for. -/
inductive Awaits : List Frame → State → Prop where
  | value (frames : List Frame) : Awaits frames (.value frames)
  | first (frames : List Frame) : Awaits (.array [] :: frames) (.array frames)

/-- A state in which a key is due, behind some fields. -/
inductive AwaitsKey : List (Text × Json) → List Frame → State → Prop where
  | key (before : List (Text × Json)) (frames : List Frame) :
      AwaitsKey before frames (.key before frames)
  | first (frames : List Frame) : AwaitsKey [] frames (.object frames)

/-- A state in which a value has been read, or a number that may still go on. -/
inductive Settled : Json → List Frame → State → Prop where
  | done (v : Json) (frames : List Frame) : Settled v frames (.done v frames)
  | number (n : Nat) (frames : List Frame) : Settled (.number n) frames (.number n frames)

section

variable {v : Json} {frames : List Frame} {st : State}

/-- A gap in front of a value is skipped. -/
theorem Awaits.read_gap (h : Awaits frames st) {w : Text} (hw : IsGap w) : st.read w = some st := by
  cases h with
  | value => exact State.read_gap (fun c hc => by rw [step, if_pos hc]) hw
  | first => exact State.read_gap (fun c hc => by rw [step, if_pos hc]) hw

/-- Where a value is awaited, a character that is not blank starts one, unless it
    closes an array. -/
theorem Awaits.step_eq (h : Awaits frames st) {c : Char} (hblank : isBlank c = false)
    (hend : c ≠ ']') : step st c = start frames c := by
  cases h with
  | value => rw [step, hblank, if_neg Bool.false_ne_true]
  | first => rw [step, hblank, if_neg Bool.false_ne_true, if_neg hend]

theorem AwaitsKey.read_gap {before : List (Text × Json)} (h : AwaitsKey before frames st) {w : Text}
    (hw : IsGap w) : st.read w = some st := by
  cases h with
  | key => exact State.read_gap (fun c hc => by rw [step, if_pos hc]) hw
  | first => exact State.read_gap (fun c hc => by rw [step, if_pos hc]) hw

theorem AwaitsKey.step_eq {before : List (Text × Json)} (h : AwaitsKey before frames st) :
    step st '"' = some (.string [] false (.key before) frames) := by
  cases h with
  | key => rfl
  | first => rfl

/-- Behind a value that is settled, even a number, any character but a digit goes on
    with what the value stands in. -/
theorem Settled.step_eq (h : Settled v frames st) {c : Char} (hc : c.isDigit = false) :
    step st c = follow v frames c := by
  cases h with
  | done => rw [step]
  | number => rw [step, hc, if_neg Bool.false_ne_true]

theorem isDigit_of_isBlank {c : Char} (h : isBlank c = true) : c.isDigit = false := by
  simp only [isBlank, Bool.or_eq_true, decide_eq_true_eq] at h
  rcases h with ((rfl | rfl) | rfl) | rfl <;> rfl

/-- A gap behind a value is skipped, and the value stays settled. -/
theorem Settled.read_gap (h : Settled v frames st) {w : Text} (hw : IsGap w) :
    ∃ st', st.read w = some st' ∧ Settled v frames st' := by
  cases w with
  | nil => exact ⟨st, rfl, h⟩
  | cons c w =>
    obtain ⟨hc, hw⟩ := List.forall_mem_cons.1 hw
    refine ⟨.done v frames, ?_, .done v frames⟩
    rw [State.read_cons, h.step_eq (isDigit_of_isBlank hc), follow, if_pos hc, Option.bind_some]
    exact State.read_gap (fun c hc => by rw [step, follow, if_pos hc]) hw

/-- Behind a value and a gap, the next character says how it goes on. -/
theorem Settled.read_gap_cons (h : Settled v frames st) {w : Text} (hw : IsGap w) {c : Char}
    (hblank : isBlank c = false) (hdigit : c.isDigit = false) (rest : Text) :
    st.read (w ++ c :: rest) = (proceed v frames c).bind fun st' => st'.read rest := by
  obtain ⟨st', hst', h'⟩ := h.read_gap hw
  rw [State.read_append, hst', Option.bind_some, State.read_cons, h'.step_eq hdigit, follow, hblank,
    if_neg Bool.false_ne_true]

end

/-! ### Numbers -/

theorem read_digits (frames : List Frame) {n : Nat} {ds : Text} (hds : ∀ c ∈ ds, c.isDigit = true)
    (hn : n ≠ 0 ∨ ds = []) :
    (State.number n frames).read ds = some (.number (Nat.ofDigitChars 10 ds n) frames) := by
  induction ds generalizing n with
  | nil => rfl
  | cons c ds ih =>
    obtain ⟨hc, hds⟩ := List.forall_mem_cons.1 hds
    have hn : n ≠ 0 := hn.resolve_right (List.cons_ne_nil c ds)
    rw [State.read_cons, step, if_pos hc, if_neg hn, Option.bind_some, ih hds (.inl (by omega))]
    rfl

/-- The digits other than zero have a value other than zero. -/
theorem digitValue_ne_zero {c : Char} (hc : c.isDigit = true) (hne : c ≠ '0') :
    digitValue c ≠ 0 := by
  intro hzero
  have hrange : '0'.toNat ≤ c.toNat ∧ c.toNat ≤ '9'.toNat := by
    rw [Char.isDigit, Bool.and_eq_true, decide_eq_true_iff, decide_eq_true_iff] at hc
    exact hc
  have heq : c.toNat = '0'.toNat := by
    rw [digitValue] at hzero
    omega
  exact hne (Char.toNat_inj.1 heq)

/-- A numeral is read as the number that it stands for. -/
theorem read_isNumeral {frames : List Frame} {st : State} (hst : Awaits frames st) {n : Nat}
    {s : Text} (h : IsNumeral n s) : st.read s = some (.number n frames) := by
  obtain ⟨c, ds, rfl⟩ := List.exists_cons_of_ne_nil h.ne_nil
  obtain ⟨hc, hds⟩ := List.forall_mem_cons.1 h.digits
  have hfirst : digitValue c ≠ 0 ∨ ds = [] := by
    by_cases hzero : c = '0'
    · exact .inr (List.cons.inj (h.no_zero (congrArg some hzero))).2
    · exact .inl (digitValue_ne_zero hc hzero)
  have hstart : step st c = some (.number (digitValue c) frames) := by
    -- A digit is none of the characters that mean something else here.
    have hother : ∀ c' : Char, c'.isDigit = false → c ≠ c' := by
      rintro c' hc' rfl
      rw [hc] at hc'
      cases hc'
    have hblank : isBlank c = false :=
      Bool.eq_false_iff.2 fun hb => by rw [isDigit_of_isBlank hb] at hc; cases hc
    rw [hst.step_eq hblank (hother ']' rfl), start, if_neg (hother '"' rfl),
      if_neg (hother '[' rfl), if_neg (hother '\x7b' rfl), if_pos hc]
  rw [State.read_cons, hstart, Option.bind_some, read_digits frames hds hfirst, ← h.value,
    Nat.ofDigitChars_cons, Nat.mul_zero, Nat.zero_add, digitValue]

/-! ### Documents -/

/-- What the reader makes of a part of a document. -/
def Part.Reads : Part → Text → Prop
  | .value v, s => ∀ frames st, Awaits frames st →
      ∃ st', st.read s = some st' ∧ Settled v frames st'
  | .items vs, s => ∀ before frames st, Awaits (.array before :: frames) st →
      st.read (s ++ [']']) = some (.done (.array (before.reverse ++ vs)) frames)
  | .field key v, s => ∀ before frames st, AwaitsKey before frames st →
      ∃ st', st.read s = some st' ∧ Settled v (.object before key :: frames) st'
  | .fields fs, s => ∀ before frames st, AwaitsKey before frames st →
      st.read (s ++ ['\x7d']) = some (.done (.object (before.reverse ++ fs)) frames)

/-- An item or a field is read over with the gaps around it, up to the character
    that says how it goes on. -/
theorem read_padded {v : Json} {frames : List Frame} {st st' : State} {w s w' : Text}
    (hw : st.read w = some st) (hs : st.read s = some st') (hsettled : Settled v frames st')
    (hw' : IsGap w') {c : Char} (hblank : isBlank c = false) (hdigit : c.isDigit = false)
    (rest : Text) :
    st.read (w ++ s ++ w' ++ c :: rest) = (proceed v frames c).bind fun st => st.read rest := by
  rw [List.append_assoc, List.append_assoc, State.read_append, hw, Option.bind_some,
    State.read_append, hs, Option.bind_some, hsettled.read_gap_cons hw' hblank hdigit]

/-- The colon behind a key is read over with the gaps around it. -/
theorem read_colon {before : List (Text × Json)} {key : Text} {frames : List Frame} {w w' : Text}
    (hw : IsGap w) (hw' : IsGap w') (rest : Text) :
    (State.colon before key frames).read (w ++ (':' :: w' ++ rest)) =
      (State.value (.object before key :: frames)).read rest := by
  have hgap : (State.colon before key frames).read w = some (.colon before key frames) :=
    State.read_gap (fun c hc => by rw [step, if_pos hc]) hw
  have hcolon : step (.colon before key frames) ':' =
      some (.value (.object before key :: frames)) := rfl
  rw [State.read_append, hgap, Option.bind_some, List.cons_append, State.read_cons, hcolon,
    Option.bind_some, State.read_append, (Awaits.value _).read_gap hw', Option.bind_some]

/-- A part of a document is read as what it is, however it is written. -/
theorem Spells.reads {part : Part} {s : Text} (h : Spells part s) : part.Reads s := by
  induction h with
  | number h => exact fun frames st hst => ⟨_, read_isNumeral hst h, .number _ frames⟩
  | string h =>
    intro frames st hst
    have hstart : step st '"' = some (.string [] false .value frames) :=
      hst.step_eq (by decide) (by decide)
    exact ⟨_, read_isString hstart h, .done _ frames⟩
  | emptyArray hw =>
    intro frames st hst
    refine ⟨.done (.array []) frames, ?_, .done _ frames⟩
    have hstart : step st '[' = some (.array frames) := hst.step_eq (by decide) (by decide)
    rw [List.cons_append, State.read_cons, hstart, Option.bind_some, State.read_append,
      (Awaits.first frames).read_gap hw]
    rfl
  | array _ ih =>
    intro frames st hst
    refine ⟨_, ?_, .done _ frames⟩
    have hstart : step st '[' = some (.array frames) := hst.step_eq (by decide) (by decide)
    rw [List.cons_append, State.read_cons, hstart, Option.bind_some]
    exact ih [] frames _ (.first frames)
  | emptyObject hw =>
    intro frames st hst
    refine ⟨.done (.object []) frames, ?_, .done _ frames⟩
    have hstart : step st '\x7b' = some (.object frames) := hst.step_eq (by decide) (by decide)
    rw [List.cons_append, State.read_cons, hstart, Option.bind_some, State.read_append,
      (AwaitsKey.first frames).read_gap hw]
    rfl
  | object _ ih =>
    intro frames st hst
    refine ⟨_, ?_, .done _ frames⟩
    have hstart : step st '\x7b' = some (.object frames) := hst.step_eq (by decide) (by decide)
    rw [List.cons_append, State.read_cons, hstart, Option.bind_some]
    exact ih [] frames _ (.first frames)
  | item hw _ hw' ih =>
    intro before frames st hst
    obtain ⟨st', hst', hsettled⟩ := ih _ _ hst
    rw [read_padded (hst.read_gap hw) hst' hsettled hw' (by decide) (by decide), proceed,
      List.reverse_cons]
    rfl
  | items hw _ hw' _ ih ih' =>
    intro before frames st hst
    obtain ⟨st', hst', hsettled⟩ := ih _ _ hst
    rw [List.append_assoc, List.cons_append,
      read_padded (hst.read_gap hw) hst' hsettled hw' (by decide) (by decide), proceed,
      Option.bind_some, ih' _ _ _ (.value _), List.reverse_cons, List.append_assoc]
    rfl
  | field hkey hw hw' _ ih =>
    intro before frames st hst
    obtain ⟨st', hst', hsettled⟩ := ih _ _ (.value _)
    refine ⟨st', ?_, hsettled⟩
    rw [List.append_assoc, List.append_assoc, State.read_append, read_isString hst.step_eq hkey,
      Option.bind_some, Use.finish, read_colon hw hw', hst']
  | lastField hw _ hw' ih =>
    intro before frames st hst
    obtain ⟨st', hst', hsettled⟩ := ih _ _ _ hst
    rw [read_padded (hst.read_gap hw) hst' hsettled hw' (by decide) (by decide), proceed,
      List.reverse_cons]
    rfl
  | fields hw _ hw' _ ih ih' =>
    intro before frames st hst
    obtain ⟨st', hst', hsettled⟩ := ih _ _ _ hst
    rw [List.append_assoc, List.cons_append,
      read_padded (hst.read_gap hw) hst' hsettled hw' (by decide) (by decide), proceed,
      Option.bind_some, ih' _ _ _ (.key _ _), List.reverse_cons, List.append_assoc]
    rfl

theorem Settled.value?_eq {v : Json} {st : State} (h : Settled v [] st) : st.value? = some v := by
  cases h with
  | done => rfl
  | number => rfl

/-- Every document of a value is read as the value. -/
theorem read?_of_isDocument {v : Json} {t : Text} (h : IsDocument v t) : read? t = some v := by
  obtain ⟨w, s, w', hw, hs, hw', rfl⟩ := h
  obtain ⟨st, hst, hsettled⟩ := hs.reads [] _ (.value [])
  obtain ⟨st', hst', hsettled'⟩ := hsettled.read_gap hw'
  rw [read?, List.append_assoc, State.read_append, (Awaits.value []).read_gap hw, Option.bind_some,
    State.read_append, hst, Option.bind_some, hst', Option.bind_some, hsettled'.value?_eq]

end Json

end Homonym
