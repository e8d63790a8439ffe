import Homonym.Proofs.Source.Extent
import Homonym.Proofs.Source.Lines
import Homonym.Proofs.Text.Utf8

/-!
# Line numbers in machine words

Here the definitions of a text are found by the numbers of its lines, and the
numbers are words of 64 bits. Such a search can go wrong: a sum may have too many
bits, a difference may fall below zero, and lines may be asked for that the text
does not have. Each of these steps gives a result only where
nothing of the kind happens, and so does the search (`located?`).

It never goes wrong in a text of fewer than 2^63 bytes, because such a text has
at most 2^63 lines. The search for the end of a definition carries the number of
the last line visited, which is never above the header nor below the end of the
text. So there is a line above every line that closes a definition, and room for
the five lines of an excerpt.

* `seek_numbersFrom`: where the search for the end of a definition stops;
* `excerpt?_ofNat`: the excerpt, cut out by line numbers;
* `located?_eq`: what is found by line numbers are the definitions of the text.
-/

namespace Homonym

/-- A number of 64 bits. -/
abbrev Word := UInt64

namespace Word

/-- The sum of two words, if it has no more than 64 bits. -/
def add? (a b : Word) : Option Word :=
  if a.toNat + b.toNat < 2 ^ 64 then some (a + b) else none

/-- The difference of two words, if it is not below zero. -/
def sub? (a b : Word) : Option Word :=
  if b ≤ a then some (a - b) else none

variable {m n : Nat}

theorem toNat_ofNat (h : n < 2 ^ 64) : (UInt64.ofNat n).toNat = n :=
  UInt64.toNat_ofNat_of_lt' h

theorem add?_ofNat (h : m + n < 2 ^ 64) :
    add? (UInt64.ofNat m) (UInt64.ofNat n) = some (UInt64.ofNat (m + n)) := by
  have hm : m < 2 ^ 64 := Nat.lt_of_le_of_lt (Nat.le_add_right m n) h
  have hn : n < 2 ^ 64 := Nat.lt_of_le_of_lt (Nat.le_add_left n m) h
  rw [add?, toNat_ofNat hm, toNat_ofNat hn, if_pos h, UInt64.ofNat_add]

theorem add?_one (h : n + 1 < 2 ^ 64) : add? (UInt64.ofNat n) 1 = some (UInt64.ofNat (n + 1)) :=
  add?_ofNat h

theorem sub?_one (h : n + 1 < 2 ^ 64) : sub? (UInt64.ofNat (n + 1)) 1 = some (UInt64.ofNat n) := by
  have hle : UInt64.ofNat 1 ≤ UInt64.ofNat (n + 1) :=
    (UInt64.ofNat_le_iff_le (by decide) h).2 (Nat.le_add_left 1 n)
  have hsub : UInt64.ofNat (n + 1) - UInt64.ofNat 1 = UInt64.ofNat n := by
    rw [← UInt64.ofNat_sub (Nat.le_add_left 1 n), Nat.add_sub_cancel]
  exact (if_pos hle).trans (congrArg some hsub)

end Word

namespace Source

/-! ### The search by line numbers -/

/-- The line with the given number, if the text has one. -/
def lineAt? (ls : List Line) (i : Word) : Option Line :=
  ls[i.toNat]?

/-- The lines from `first` on to the one in front of `stop`, if the text has
    these lines. -/
def slice? (ls : List Line) (first stop : Word) : Option (List Line) :=
  if first ≤ stop ∧ stop.toNat ≤ ls.length then some (ls.extract first.toNat stop.toNat) else none

/-- The lines with their numbers, from `i` on. Behind each line, the number of the
    next one is counted, too. -/
def number? (i : Word) : List Line → Option (List (Word × Line))
  | [] => some []
  | l :: ls => do
    let next ← i.add? 1
    let numbered ← number? next ls
    return (i, l) :: numbered

/-- Where the search for the end of a definition stops. -/
inductive Exit where
  /-- At the line `i`, which closes the definition. -/
  | closed (i : Word)
  /-- At the end of the text; `i` is the last line visited. -/
  | ended (i : Word)
  deriving DecidableEq

/-- Goes through numbered lines for the first one that closes a definition with
    the indentation `indent`. The line visited before them is `i`. -/
def seek (indent : Nat) (i : Word) : List (Word × Line) → Exit
  | [] => .ended i
  | (j, l) :: rest => if l.closes indent then .closed j else seek indent j rest

/-- Where the search stops for the definition with the header in line `first`. -/
def exit? (ls : List Line) (first : Word) : Option Exit := do
  let header ← lineAt? ls first
  let below ← first.add? 1
  let numbered ← number? 0 ls
  return seek header.indent first (numbered.drop below.toNat)

/-- The last line of a definition: the one above the line that closes it, or the
    last one visited. -/
def Exit.last? : Exit → Option Word
  | .closed i => i.sub? 1
  | .ended i => some i

/-- The last line of the definition with the header in line `first`. -/
def lastLine? (ls : List Line) (first : Word) : Option Word := do
  let exit ← exit? ls first
  exit.last?

/-- The line that an excerpt stops in front of. -/
def stop? (first last : Word) : Option Word := do
  let full ← first.add? (.ofNat excerptLines)
  let behind ← last.add? 1
  return if full ≤ behind then full else behind

/-- The excerpt of the definition from the line `first` to the line `last`. -/
def excerpt? (ls : List Line) (first last : Word) : Option Text := do
  let stop ← stop? first last
  let shown ← slice? ls first stop
  return Text.trim (List.intercalate ['\n'] (shown.map Line.raw))

/-- A definition found by line numbers. -/
structure Located where
  /-- The name of the function. -/
  name : Text
  /-- The line of the header. -/
  first : Word
  /-- The last line of the body. -/
  last : Word
  /-- The beginning of the definition. -/
  excerpt : Text
  deriving DecidableEq

/-- The definition that was found. -/
def Located.definition (d : Located) : Definition :=
  { name := d.name, first := d.first.toNat, last := d.last.toNat, excerpt := d.excerpt }

/-- The definition with the given name and the header in line `first`. -/
def locate? (ls : List Line) (name : Text) (first : Word) : Option Located := do
  let last ← lastLine? ls first
  let excerpt ← excerpt? ls first last
  return { name, first, last, excerpt }

/-- The definitions with their headers among the numbered lines. -/
def locatedAmong? (ls : List Line) : List (Word × Line) → Option (List Located)
  | [] => some []
  | (i, header) :: rest =>
    match headerName? header.code with
    | none => locatedAmong? ls rest
    | some name => do
      let d ← locate? ls name i
      let ds ← locatedAmong? ls rest
      return d :: ds

/-- The definitions in a source text, found by line numbers. -/
def located? (source : Text) : Option (List Located) := do
  let numbered ← number? 0 (lines source)
  locatedAmong? (lines source) numbered

/-! ### Numbered lines -/

/-- The lines with their numbers, from `n` on, cut to 64 bits. -/
def numbersFrom (n : Nat) : List Line → List (Word × Line)
  | [] => []
  | l :: ls => (.ofNat n, l) :: numbersFrom (n + 1) ls

theorem drop_numbersFrom (n k : Nat) (ls : List Line) :
    (numbersFrom n ls).drop k = numbersFrom (n + k) (ls.drop k) := by
  induction ls generalizing n k with
  | nil => rw [numbersFrom, List.drop_nil, List.drop_nil, numbersFrom]
  | cons l ls ih =>
    cases k with
    | zero => rfl
    | succ k => rw [numbersFrom, List.drop_succ_cons, ih, List.drop_succ_cons, Nat.add_right_comm,
        Nat.add_assoc]

theorem number?_ofNat {n : Nat} {ls : List Line} (h : n + ls.length < 2 ^ 64) :
    number? (.ofNat n) ls = some (numbersFrom n ls) := by
  induction ls generalizing n with
  | nil => rfl
  | cons l ls ih =>
    rw [List.length_cons] at h
    rw [number?, Word.add?_one (by omega), Option.bind_eq_bind, Option.bind_some, ih (by omega)]
    rfl

section

variable {ls : List Line} (hlength : ls.length ≤ 2 ^ 63) {header : Line} {n : Nat}
include hlength

theorem number?_zero : number? 0 ls = some (numbersFrom 0 ls) := by
  have hzero : 0 + ls.length < 2 ^ 64 := by omega
  exact number?_ofNat hzero

/-! ### The end of a definition -/

omit hlength in
/-- The search stops at the first line that closes the definition, or at the last
    line if there is none. -/
theorem seek_numbersFrom (indent n : Nat) (following : List Line) :
    seek indent (.ofNat n) (numbersFrom (n + 1) following) =
      if following.findIdx (Line.closes indent) < following.length then
        .closed (.ofNat (n + 1 + following.findIdx (Line.closes indent)))
      else .ended (.ofNat (n + following.length)) := by
  -- The line visited last is always the one above the lines still to come.
  induction following generalizing n with
  | nil => rfl
  | cons l rest ih =>
    rw [numbersFrom, seek, List.findIdx_cons, List.length_cons]
    cases l.closes indent with
    | true => simp
    | false =>
      rw [if_neg Bool.false_ne_true, ih]
      simp only [cond_false, Nat.add_lt_add_iff_right, Nat.add_assoc, Nat.add_comm 1]

/-- To find where a body ends, the lines below its header are searched with their
    numbers. -/
theorem exit?_ofNat (hn : ls[n]? = some header) : exit? ls (.ofNat n) =
    some (seek header.indent (.ofNat n) (numbersFrom (n + 1) (ls.drop (n + 1)))) := by
  obtain ⟨hlt, -⟩ := List.getElem?_eq_some_iff.1 hn
  rw [exit?, lineAt?, Word.toNat_ofNat (by omega), hn, Word.add?_one (by omega),
    number?_zero hlength]
  simp only [Option.bind_eq_bind, Option.bind_some]
  rw [Word.toNat_ofNat (by omega), drop_numbersFrom, Nat.zero_add]
  rfl

/-- A line that closes a definition is below its header. -/
theorem lt_of_exit?_eq_closed {first i : Word} (h : exit? ls first = some (.closed i)) :
    first.toNat < i.toNat := by
  obtain ⟨header, hheader⟩ : ∃ header, ls[first.toNat]? = some header := by
    rw [exit?, Option.bind_eq_bind, Option.bind_eq_some_iff] at h
    exact h.imp fun _ => And.left
  obtain ⟨hlt, -⟩ := List.getElem?_eq_some_iff.1 hheader
  rw [← UInt64.ofNat_toNat (x := first), exit?_ofNat hlength hheader, seek_numbersFrom,
    List.length_drop] at h
  split at h
  next hclosed =>
    rw [← Exit.closed.inj (Option.some.inj h), Word.toNat_ofNat (by omega)]
    omega
  next => cases h

/-- The last line of a definition is as far below its header as its body is
    long. -/
theorem lastLine?_ofNat (hn : ls[n]? = some header) :
    lastLine? ls (.ofNat n) = some (.ofNat (n + (body header (ls.drop (n + 1))).length)) := by
  obtain ⟨hlt, -⟩ := List.getElem?_eq_some_iff.1 hn
  have hle : (ls.drop (n + 1)).findIdx (Line.closes header.indent) ≤ (ls.drop (n + 1)).length :=
    List.findIdx_le_length
  rw [lastLine?, exit?_ofNat hlength hn, Option.bind_eq_bind, Option.bind_some, seek_numbersFrom,
    length_body]
  split
  next hclosed =>
    -- There is a line above the one that closes the definition: the header, if no other.
    rw [List.length_drop] at hclosed
    rw [Exit.last?, Nat.add_right_comm, Word.sub?_one (by omega)]
  next hended => rw [Exit.last?, Nat.le_antisymm hle (Nat.le_of_not_lt hended)]

/-! ### Excerpts -/

omit hlength in
/-- The excerpt stops behind five lines or behind the last one, whichever comes
    first. -/
theorem stop?_ofNat {m : Nat} (hm : m + 5 < 2 ^ 64) (hn : n + 1 < 2 ^ 64) :
    stop? (.ofNat m) (.ofNat n) = some (.ofNat (min (m + 5) (n + 1))) := by
  have hfull : Word.add? (.ofNat m) (.ofNat excerptLines) = some (.ofNat (m + 5)) :=
    Word.add?_ofNat hm
  rw [stop?, hfull, Word.add?_one hn]
  simp only [Option.bind_eq_bind, Option.bind_some, UInt64.ofNat_le_iff_le hm hn]
  rw [Nat.min_def, apply_ite UInt64.ofNat]
  rfl

/-- A slice whose bounds are in order and in the lines is found. -/
theorem slice?_ofNat {m : Nat} (hmn : m ≤ n) (hn : n ≤ ls.length) :
    slice? ls (.ofNat m) (.ofNat n) = some (ls.extract m n) := by
  have hm' : m < 2 ^ 64 := by omega
  have hn' : n < 2 ^ 64 := by omega
  have hle : UInt64.ofNat m ≤ UInt64.ofNat n := (UInt64.ofNat_le_iff_le hm' hn').2 hmn
  rw [slice?, Word.toNat_ofNat hm', Word.toNat_ofNat hn', if_pos ⟨hle, hn⟩]

/-- The excerpt of a definition that ends in the text. -/
theorem excerpt?_ofNat {m : Nat} (hmn : m ≤ n) (hn : n < ls.length) :
    excerpt? ls (.ofNat m) (.ofNat n) = some (Text.trim (List.intercalate ['\n']
      ((ls.extract m (min (m + 5) (n + 1))).map Line.raw))) := by
  rw [excerpt?, stop?_ofNat (by omega) (by omega), Option.bind_eq_bind, Option.bind_some,
    slice?_ofNat hlength (by omega) (by omega)]
  rfl

/-- The excerpt of a definition is never empty, and it stops within the text. -/
theorem exists_stop? {first : Word} (hheader : lineAt? ls first = some header) :
    ∃ last stop, lastLine? ls first = some last ∧ stop? first last = some stop ∧
      first < stop ∧ stop.toNat ≤ ls.length := by
  have hextent := isExtent_body hheader
  have hle := hextent.first_le
  have hlt := hextent.last_lt
  have hlast := lastLine?_ofNat hlength hheader
  have hstop := stop?_ofNat (m := first.toNat)
    (n := first.toNat + (body header (ls.drop (first.toNat + 1))).length) (by omega) (by omega)
  rw [UInt64.ofNat_toNat] at hlast hstop
  refine ⟨_, _, hlast, hstop, ?_, ?_⟩
  · rw [UInt64.lt_iff_toNat_lt, Word.toNat_ofNat (by omega)]
    omega
  · rw [Word.toNat_ofNat (by omega)]
    omega

/-! ### Definitions -/

/-- At a header, a definition is found, and it is the one that is read off the
    header. -/
theorem locate?_ofNat (hn : ls[n]? = some header) (name : Text) :
    ∃ d, locate? ls name (.ofNat n) = some d ∧
      d.definition = .ofHeader n name header (ls.drop (n + 1)) := by
  have hextent := isExtent_body hn
  have hle := hextent.first_le
  have hlt := hextent.last_lt
  refine ⟨⟨name, .ofNat n, .ofNat (n + (body header (ls.drop (n + 1))).length),
    excerpt header (ls.drop (n + 1))⟩, ?_, ?_⟩
  · rw [locate?, lastLine?_ofNat hlength hn, Option.bind_eq_bind, Option.bind_some,
      excerpt?_ofNat hlength hle hlt, ← excerpt_eq_extract hn]
    rfl
  · rw [Located.definition, Definition.ofHeader, Word.toNat_ofNat (by omega),
      Word.toNat_ofNat (by omega)]

/-- What is found among the last lines. -/
theorem locatedAmong?_numbersFrom {rest : List Line} (hrest : ls.drop n = rest) :
    ∃ ds, locatedAmong? ls (numbersFrom n rest) = some ds ∧
      ds.map Located.definition = definitionsFrom n rest := by
  -- The lines still to come are the last ones of all, from line `n` on.
  induction rest generalizing n with
  | nil => exact ⟨[], rfl, rfl⟩
  | cons header rest ih =>
    have hn : ls[n]? = some header := by
      rw [← Nat.add_zero n, ← List.getElem?_drop, hrest, List.getElem?_cons_zero]
    have hbelow : ls.drop (n + 1) = rest := by
      rw [← List.drop_drop, hrest, List.drop_succ_cons, List.drop_zero]
    obtain ⟨ds, hds, hdefinitions⟩ := ih hbelow
    rw [numbersFrom, locatedAmong?]
    cases hname : headerName? header.code with
    | none =>
      rw [definitionsFrom_cons_none hname]
      exact ⟨ds, hds, hdefinitions⟩
    | some name =>
      obtain ⟨d, hd, hdefinition⟩ := locate?_ofNat hlength hn name
      refine ⟨d :: ds, ?_, ?_⟩
      · dsimp only
        rw [hd, hds]
        rfl
      · rw [definitionsFrom_cons_some hname, List.map_cons, hdefinition, hdefinitions, hbelow]

end

/-- A text of fewer than 2^63 bytes has at most 2^63 lines. -/
theorem length_lines_le_of_encode {source : Text} (h : (Utf8.encode source).length < 2 ^ 63) :
    (lines source).length ≤ 2 ^ 63 := by
  have hlines := length_lines_le source
  have hbytes := Utf8.length_le_length_encode source
  omega

/-- A definition lies in the lines of its text. -/
theorem first_le_last_lt {source : Text} {d : Definition} (hd : d ∈ definitions source) :
    d.first ≤ d.last ∧ d.last < (lines source).length := by
  obtain ⟨header, hfits⟩ := mem_definitions_iff.1 hd
  exact ⟨hfits.extent.first_le, hfits.extent.last_lt⟩

/-- What is found by line numbers are the definitions of the text. -/
theorem located?_eq {source : Text} (h : (lines source).length ≤ 2 ^ 63) :
    ∃ ds, located? source = some ds ∧ ds.map Located.definition = definitions source := by
  rw [located?, number?_zero h, Option.bind_eq_bind, Option.bind_some]
  exact locatedAmong?_numbersFrom h (List.drop_zero)

end Source

end Homonym
