import Homonym.Proofs.Text.Cut
import Homonym.Text.Utf8
import Mathlib.Algebra.Group.Nat.Defs
import Mathlib.Tactic.Common

/-!
# Decoding undoes encoding

Bytes are decoded to a text if and only if they are what the text is encoded to
(`decode?_eq_some_iff`). In one direction, the reader meets the characters of a
text in its encoding, one by one (`readFrom_encodeChar`). In the other, bytes in
which it meets nothing ill-formed start with the encoding of a character
(`exists_encodeChar`), since the ranges it owes are just those that the bytes of
some character lie in.

A character of ASCII is a byte of its own and no other character has this byte,
so a text and its bytes are cut there alike (`splitOn_encode`).

Bytes that are no text are still shown as one. Characters of ASCII come into it
only from bytes that are these characters (`mem_of_mem_shown`), since any
character of more bytes has a greater code.
-/

namespace Homonym

namespace Utf8

/-! ### The reader -/

/-- Everything that is met in the bytes from a state on. -/
def readFrom : State → Bytes → Reading
  | s, [] => finish s
  | s, b :: bytes => (step s b).1 ++ readFrom (step s b).2 bytes

/-- Feeding bytes one by one, in terms of a reading that goes on from any state. -/
theorem foldl_feed (bytes : Bytes) (done : Reading) (s : State) :
    (finish (bytes.foldl feed (done, s)).2 ++ (bytes.foldl feed (done, s)).1).reverse =
      done.reverse ++ readFrom s bytes := by
  induction bytes generalizing done s with
  | nil => cases s <;> simp [readFrom, finish]
  | cons b bytes ih =>
    rw [List.foldl_cons, feed, ih, readFrom, List.reverse_append, List.reverse_reverse,
      List.append_assoc]

theorem read_eq_readFrom (bytes : Bytes) : read bytes = readFrom .idle bytes :=
  foldl_feed bytes [] .idle

theorem mapM_id_eq_some_iff {r : Reading} {t : Text} : r.mapM id = some t ↔ r = t.map some := by
  induction r generalizing t with
  | nil => cases t <;> simp
  | cons o r ih =>
    cases o with
    | none => cases t <;> simp
    | some c =>
      rw [List.mapM_cons]
      cases t with
      | nil => simp [Option.bind_eq_some_iff]
      | cons c' t =>
        rw [List.map_cons, List.cons.injEq, Option.some.injEq, ← ih]
        simp [Option.bind_eq_some_iff, and_comm]

theorem decode?_eq_some_iff_readFrom {bytes : Bytes} {t : Text} :
    decode? bytes = some t ↔ readFrom .idle bytes = t.map some := by
  rw [decode?, mapM_id_eq_some_iff, read_eq_readFrom]

theorem holds_iff {r : Range} {b : UInt8} :
    r.holds b = true ↔ r.lo.toNat ≤ b.toNat ∧ b.toNat ≤ r.hi.toNat := by
  simp [Range.holds, UInt8.le_iff_toNat_le]

/-- The last byte that is owed completes a character. -/
theorem readFrom_owing_nil {bits : Nat} {next : Range} {b : UInt8} (h : next.holds b = true)
    (bytes : Bytes) : readFrom (.owing bits next []) (b :: bytes) =
      some (Char.ofNat (bits * 0x40 + (b.toNat - 0x80))) :: readFrom .idle bytes := by
  rw [readFrom, step, if_pos h]
  rfl

/-- A byte that is owed, if it is in range, adds six bits. -/
theorem readFrom_owing_cons {bits : Nat} {next next' : Range} {later : List Range} {b : UInt8}
    (h : next.holds b = true) (bytes : Bytes) :
    readFrom (.owing bits next (next' :: later)) (b :: bytes) =
      readFrom (.owing (bits * 0x40 + (b.toNat - 0x80)) next' later) bytes := by
  rw [readFrom, step, if_pos h]
  rfl

theorem readFrom_idle_cons {a : UInt8} {r : Reading} {s : State} (h : first a = (r, s))
    (bytes : Bytes) : readFrom .idle (a :: bytes) = r ++ readFrom s bytes := by
  rw [readFrom, step, h]

/-! ### First bytes -/

/-- The range of the byte that follows the first byte `a` of a character. -/
def second (a : UInt8) : Range :=
  ⟨if a.toNat = 0xE0 then 0xA0 else if a.toNat = 0xF0 then 0x90 else 0x80,
   if a.toNat = 0xED then 0x9F else if a.toNat = 0xF4 then 0x8F else 0xBF⟩

/-- The range of the second byte: that of any trailing byte, but narrower behind
    four first bytes, to rule out characters that have a shorter encoding,
    surrogates, and what is beyond all characters. -/
theorem second_holds_iff {a b : UInt8} : (second a).holds b = true ↔
    0x80 ≤ b.toNat ∧ b.toNat ≤ 0xBF ∧
      (a.toNat = 0xE0 → 0xA0 ≤ b.toNat) ∧ (a.toNat = 0xED → b.toNat ≤ 0x9F) ∧
      (a.toNat = 0xF0 → 0x90 ≤ b.toNat) ∧ (a.toNat = 0xF4 → b.toNat ≤ 0x8F) := by
  rw [holds_iff, second]
  split_ifs <;> simp <;> omega

theorem trailing_holds_iff {b : UInt8} :
    Range.trailing.holds b = true ↔ 0x80 ≤ b.toNat ∧ b.toNat ≤ 0xBF := by
  rw [holds_iff]
  rfl

theorem first_one {a : UInt8} (h : a.toNat < 0x80) :
    first a = ([some (Char.ofNat a.toNat)], .idle) := by
  rw [first, if_pos h]

theorem first_two {a : UInt8} (h : 0xC2 ≤ a.toNat) (h' : a.toNat < 0xE0) :
    first a = ([], .owing (a.toNat - 0xC0) (second a) []) := by
  have hsecond : second a = .trailing := by
    simp (disch := omega) [second, Range.trailing, if_neg]
  rw [hsecond, first, if_neg (by omega), if_neg (by omega), if_pos h']

theorem first_three {a : UInt8} (h : 0xE0 ≤ a.toNat) (h' : a.toNat < 0xF0) :
    first a = ([], .owing (a.toNat - 0xE0) (second a) [.trailing]) := by
  rw [first, if_neg (by omega), if_neg (by omega), if_neg (by omega)]
  split_ifs with h₁ h₂
  · simp [second, h₁]
  · simp [second, h₂]
  · simp (disch := omega) [second, Range.trailing, if_neg, h₁, h₂]

theorem first_four {a : UInt8} (h : 0xF0 ≤ a.toNat) (h' : a.toNat < 0xF5) :
    first a = ([], .owing (a.toNat - 0xF0) (second a) [.trailing, .trailing]) := by
  rw [first, if_neg (by omega), if_neg (by omega), if_neg (by omega), if_neg (by omega),
    if_neg (by omega), if_neg (by omega)]
  split_ifs with h₁ h₂ h₃
  · simp [second, h₁]
  · simp (disch := omega) [second, Range.trailing, if_neg]
  · simp [second, h₃]
  · omega

/-- A byte that is first of no character. -/
theorem first_none {a : UInt8} (h : 0x80 ≤ a.toNat ∧ a.toNat < 0xC2 ∨ 0xF5 ≤ a.toNat) :
    first a = ([none], .idle) := by
  rcases h with ⟨h, h'⟩ | h
  · rw [first, if_neg (by omega), if_pos h']
  · simp (disch := omega) only [first, if_neg]

/-! ### Reading a character -/

theorem toNat_trailing (v : Nat) : (trailing v).toNat = 0x80 + v % 0x40 := by
  rw [trailing, UInt8.toNat_ofNat', Nat.mod_eq_of_lt]
  omega

/-- A number is the code of a character if it is in range and no surrogate. -/
theorem toNat_char (c : Char) : c.toNat < 0xD800 ∨ 0xDFFF < c.toNat ∧ c.toNat < 0x110000 :=
  c.valid

theorem toNat_ofNat_char {v : Nat} (h : v < 0xD800 ∨ 0xDFFF < v ∧ v < 0x110000) :
    (Char.ofNat v).toNat = v := by
  rw [Char.ofNat, dif_pos h]
  rfl

/-- The reader takes the last six bits of a character from a byte that
    continues it. -/
theorem bits_trailing (v : Nat) : v / 0x40 * 0x40 + ((trailing v).toNat - 0x80) = v := by
  rw [toNat_trailing]
  omega

/-- In the encoding of a character, the reader meets that character. -/
theorem readFrom_encodeChar (c : Char) (bytes : Bytes) :
    readFrom .idle (encodeChar c ++ bytes) = some c :: readFrom .idle bytes := by
  have hc := toNat_char c
  have hbyte : ∀ n, n < 0x100 → (UInt8.ofNat n).toNat = n := fun n hn => by
    rw [UInt8.toNat_ofNat', Nat.mod_eq_of_lt hn]
  have hlast : ∀ v, Range.trailing.holds (trailing v) = true := fun v => by
    rw [trailing_holds_iff, toNat_trailing]
    omega
  rw [encodeChar]
  -- By the number of bytes. The range of the second one is what it is because
  -- `c` is no smaller than the numbers of bytes say, and no surrogate.
  split_ifs with h₁ h₂ h₃
  · have ha := hbyte c.toNat (by omega)
    rw [List.cons_append, readFrom_idle_cons (first_one (by omega)), ha, Char.ofNat_toNat]
    rfl
  · have ha := hbyte (0xC0 + c.toNat / 0x40) (by omega)
    set a := UInt8.ofNat (0xC0 + c.toNat / 0x40)
    have hs : (second a).holds (trailing c.toNat) = true := by
      rw [second_holds_iff, ha, toNat_trailing]
      omega
    rw [List.cons_append, readFrom_idle_cons (first_two (by omega) (by omega)), ha,
      Nat.add_sub_cancel_left, List.nil_append, List.cons_append, readFrom_owing_nil hs,
      bits_trailing, Char.ofNat_toNat]
    rfl
  · have ha := hbyte (0xE0 + c.toNat / 0x1000) (by omega)
    set a := UInt8.ofNat (0xE0 + c.toNat / 0x1000)
    have hs : (second a).holds (trailing (c.toNat / 0x40)) = true := by
      rw [second_holds_iff, ha, toNat_trailing]
      omega
    rw [List.cons_append, readFrom_idle_cons (first_three (by omega) (by omega)), ha,
      Nat.add_sub_cancel_left, List.nil_append, List.cons_append, readFrom_owing_cons hs,
      show c.toNat / 0x1000 = c.toNat / 0x40 / 0x40 by omega, bits_trailing, List.cons_append,
      readFrom_owing_nil (hlast _), bits_trailing, Char.ofNat_toNat]
    rfl
  · have ha := hbyte (0xF0 + c.toNat / 0x40000) (by omega)
    set a := UInt8.ofNat (0xF0 + c.toNat / 0x40000)
    have hs : (second a).holds (trailing (c.toNat / 0x1000)) = true := by
      rw [second_holds_iff, ha, toNat_trailing]
      omega
    rw [List.cons_append, readFrom_idle_cons (first_four (by omega) (by omega)), ha,
      Nat.add_sub_cancel_left, List.nil_append, List.cons_append, readFrom_owing_cons hs,
      show c.toNat / 0x40000 = c.toNat / 0x1000 / 0x40 by omega, bits_trailing, List.cons_append,
      readFrom_owing_cons (hlast _), show c.toNat / 0x1000 = c.toNat / 0x40 / 0x40 by omega,
      bits_trailing, List.cons_append, readFrom_owing_nil (hlast _), bits_trailing,
      Char.ofNat_toNat]
    rfl

/-! ### Finding a character -/

theorem ofNat_eq_of_toNat {n : Nat} {b : UInt8} (h : b.toNat = n) : UInt8.ofNat n = b := by
  rw [← h, UInt8.ofNat_toNat]

theorem trailing_eq_of_toNat {v : Nat} {b : UInt8} (h : b.toNat = 0x80 + v % 0x40) :
    trailing v = b :=
  ofNat_eq_of_toNat h

theorem exists_encodeChar_two {a b : UInt8} (h : 0xC2 ≤ a.toNat) (h' : a.toNat < 0xE0)
    (hb : (second a).holds b = true) : ∃ c, encodeChar c = [a, b] := by
  rw [second_holds_iff] at hb
  set v := (a.toNat - 0xC0) * 0x40 + (b.toNat - 0x80) with hv
  refine ⟨Char.ofNat v, ?_⟩
  rw [encodeChar, toNat_ofNat_char (by omega)]
  rw [if_neg (by omega), if_pos (by omega), ofNat_eq_of_toNat (b := a) (by omega),
    trailing_eq_of_toNat (b := b) (by omega)]

theorem exists_encodeChar_three {a b c : UInt8} (h : 0xE0 ≤ a.toNat) (h' : a.toNat < 0xF0)
    (hb : (second a).holds b = true) (hc : Range.trailing.holds c = true) :
    ∃ x, encodeChar x = [a, b, c] := by
  rw [second_holds_iff] at hb
  rw [trailing_holds_iff] at hc
  set v := ((a.toNat - 0xE0) * 0x40 + (b.toNat - 0x80)) * 0x40 + (c.toNat - 0x80) with hv
  -- The range of the second byte rules out overlong forms and surrogates.
  have hlo : 0x800 ≤ v := by omega
  have hhi : v < 0xD800 ∨ 0xDFFF < v ∧ v < 0x10000 := by omega
  refine ⟨Char.ofNat v, ?_⟩
  rw [encodeChar, toNat_ofNat_char (by omega)]
  rw [if_neg (by omega), if_neg (by omega), if_pos (by omega),
    ofNat_eq_of_toNat (b := a) (by omega), trailing_eq_of_toNat (b := b) (by omega),
    trailing_eq_of_toNat (b := c) (by omega)]

theorem exists_encodeChar_four {a b c d : UInt8} (h : 0xF0 ≤ a.toNat) (h' : a.toNat < 0xF5)
    (hb : (second a).holds b = true) (hc : Range.trailing.holds c = true)
    (hd : Range.trailing.holds d = true) : ∃ x, encodeChar x = [a, b, c, d] := by
  rw [second_holds_iff] at hb
  rw [trailing_holds_iff] at hc hd
  set v := (((a.toNat - 0xF0) * 0x40 + (b.toNat - 0x80)) * 0x40 + (c.toNat - 0x80)) * 0x40 +
    (d.toNat - 0x80) with hv
  -- The range of the second byte rules out overlong forms and what is too large.
  have hlo : 0x10000 ≤ v := by omega
  have hhi : v < 0x110000 := by omega
  refine ⟨Char.ofNat v, ?_⟩
  rw [encodeChar, toNat_ofNat_char (by omega)]
  rw [if_neg (by omega), if_neg (by omega), if_neg (by omega),
    ofNat_eq_of_toNat (b := a) (by omega), trailing_eq_of_toNat (b := b) (by omega),
    trailing_eq_of_toNat (b := c) (by omega), trailing_eq_of_toNat (b := d) (by omega)]

/-- If nothing ill-formed is met inside a character, the next byte is one that
    is due. -/
theorem exists_due_of_readFrom {bits : Nat} {next : Range} {later : List Range} {bytes : Bytes}
    (h : none ∉ readFrom (.owing bits next later) bytes) :
    ∃ b rest, bytes = b :: rest ∧ next.holds b = true := by
  cases bytes with
  | nil => exact absurd List.mem_cons_self h
  | cons b rest =>
    refine ⟨b, rest, rfl, ?_⟩
    by_contra hb
    rw [readFrom, step, if_neg hb] at h
    exact h List.mem_cons_self

/-- Bytes in which nothing ill-formed is met start with the encoding of a
    character. -/
theorem exists_encodeChar {a : UInt8} {bytes : Bytes} (h : none ∉ readFrom .idle (a :: bytes)) :
    ∃ c rest, a :: bytes = encodeChar c ++ rest := by
  -- The first byte tells how many are due, and each of these has to come.
  rcases Nat.lt_or_ge a.toNat 0x80 with ha | ha
  · refine ⟨Char.ofNat a.toNat, bytes, ?_⟩
    rw [encodeChar, toNat_ofNat_char (by omega)]
    rw [if_pos ha, UInt8.ofNat_toNat]
    rfl
  rcases Nat.lt_or_ge a.toNat 0xC2 with ha₂ | ha₂
  · rw [readFrom_idle_cons (first_none (.inl ⟨ha, ha₂⟩))] at h
    exact absurd List.mem_cons_self h
  rcases Nat.lt_or_ge a.toNat 0xE0 with ha₃ | ha₃
  · rw [readFrom_idle_cons (first_two ha₂ ha₃)] at h
    obtain ⟨b, rest, rfl, hb⟩ := exists_due_of_readFrom h
    obtain ⟨x, hx⟩ := exists_encodeChar_two ha₂ ha₃ hb
    exact ⟨x, rest, by rw [hx]; rfl⟩
  rcases Nat.lt_or_ge a.toNat 0xF0 with ha₄ | ha₄
  · rw [readFrom_idle_cons (first_three ha₃ ha₄), List.nil_append] at h
    obtain ⟨b, rest, rfl, hb⟩ := exists_due_of_readFrom h
    rw [readFrom_owing_cons hb] at h
    obtain ⟨c, rest, rfl, hc⟩ := exists_due_of_readFrom h
    obtain ⟨x, hx⟩ := exists_encodeChar_three ha₃ ha₄ hb hc
    exact ⟨x, rest, by rw [hx]; rfl⟩
  rcases Nat.lt_or_ge a.toNat 0xF5 with ha₅ | ha₅
  · rw [readFrom_idle_cons (first_four ha₄ ha₅), List.nil_append] at h
    obtain ⟨b, rest, rfl, hb⟩ := exists_due_of_readFrom h
    rw [readFrom_owing_cons hb] at h
    obtain ⟨c, rest, rfl, hc⟩ := exists_due_of_readFrom h
    rw [readFrom_owing_cons hc] at h
    obtain ⟨d, rest, rfl, hd⟩ := exists_due_of_readFrom h
    obtain ⟨x, hx⟩ := exists_encodeChar_four ha₄ ha₅ hb hc hd
    exact ⟨x, rest, by rw [hx]; rfl⟩
  · rw [readFrom_idle_cons (first_none (.inr ha₅))] at h
    exact absurd List.mem_cons_self h

/-! ### Texts -/

theorem encode_cons (c : Char) (t : Text) : encode (c :: t) = encodeChar c ++ encode t :=
  List.flatMap_cons

/-- Every character takes at least one byte. -/
theorem encodeChar_ne_nil (c : Char) : encodeChar c ≠ [] := by
  unfold encodeChar
  dsimp only
  split_ifs <;> exact List.cons_ne_nil _ _

theorem length_le_length_encode (t : Text) : t.length ≤ (encode t).length := by
  induction t with
  | nil => exact Nat.le_refl 0
  | cons c t ih =>
    have hchar := List.length_pos_of_ne_nil (encodeChar_ne_nil c)
    rw [encode_cons, List.length_append, List.length_cons]
    omega

/-- The bytes of a text are read as its characters. -/
theorem readFrom_encode (t : Text) : readFrom .idle (encode t) = t.map some := by
  induction t with
  | nil => rfl
  | cons c t ih => rw [encode_cons, readFrom_encodeChar, ih, List.map_cons]

/-- If the reader meets just the characters of a text, it reads the encoding of
    that text. -/
theorem encode_of_readFrom {bytes : Bytes} {t : Text} (h : readFrom .idle bytes = t.map some) :
    encode t = bytes := by
  have hnone : ∀ (bytes : Bytes) (t : Text), readFrom .idle bytes = t.map some →
      none ∉ readFrom .idle bytes := by
    intro bytes t h
    simp [h]
  -- By induction on the text; each character takes its encoding off the bytes.
  induction t generalizing bytes with
  | nil =>
    cases bytes with
    | nil => rfl
    | cons a bytes =>
      obtain ⟨c, rest, hrest⟩ := exists_encodeChar (hnone _ [] h)
      rw [hrest, readFrom_encodeChar] at h
      exact absurd h (List.cons_ne_nil _ _)
  | cons x t ih =>
    cases bytes with
    | nil => exact absurd h.symm (List.cons_ne_nil _ _)
    | cons a bytes =>
      obtain ⟨c, rest, hrest⟩ := exists_encodeChar (hnone _ (x :: t) h)
      rw [hrest, readFrom_encodeChar, List.map_cons, List.cons.injEq, Option.some.injEq] at h
      rw [hrest, encode_cons, ih h.2, h.1]

/-- Bytes are decoded to a text if and only if they are its encoding. -/
theorem decode?_eq_some_iff {bytes : Bytes} {t : Text} :
    decode? bytes = some t ↔ encode t = bytes := by
  rw [decode?_eq_some_iff_readFrom]
  constructor
  · exact encode_of_readFrom
  · rintro rfl
    exact readFrom_encode t

/-- Bytes are not decoded if and only if they encode no text. -/
theorem decode?_eq_none_iff {bytes : Bytes} :
    decode? bytes = none ↔ ∀ t, encode t ≠ bytes := by
  rw [Option.eq_none_iff_forall_ne_some]
  exact forall_congr' fun t => not_congr decode?_eq_some_iff

/-- A text is shown as it is. -/
theorem shown_encode (t : Text) : shown (encode t) = t := by
  rw [shown, written, read_eq_readFrom, readFrom_encode, List.map_map]
  exact List.map_id t

theorem encode_append (t u : Text) : encode (t ++ u) = encode t ++ encode u :=
  List.flatMap_append

/-- Joining texts and encoding them can be done in either order. -/
theorem encode_intercalate (sep : Text) (ts : List Text) :
    encode (sep.intercalate ts) = (encode sep).intercalate (ts.map encode) := by
  induction ts with
  | nil => rfl
  | cons t ts ih =>
    cases ts with
    | nil => rw [List.intercalate_singleton, List.map_singleton, List.intercalate_singleton]
    | cons t' ts =>
      rw [List.intercalate_cons_cons, encode_append, encode_append, ih]
      exact List.intercalate_cons_cons.symm

/-! ### Cutting a text at a character of ASCII -/

/-- A byte of ASCII in the encoding of a character is that character. -/
theorem toNat_eq_of_mem_encodeChar {c : Char} {b : UInt8} (hb : b.toNat < 0x80)
    (h : b ∈ encodeChar c) : b.toNat = c.toNat := by
  have hc := toNat_char c
  have hbyte : ∀ n, n < 0x100 → (UInt8.ofNat n).toNat = n := fun n hn => by
    rw [UInt8.toNat_ofNat', Nat.mod_eq_of_lt hn]
  have hlast : ∀ v, b ≠ trailing v := by
    rintro v rfl
    rw [toNat_trailing] at hb
    omega
  have hfirst : ∀ n, 0x80 ≤ n → n < 0x100 → b ≠ UInt8.ofNat n := by
    rintro n hn hn' rfl
    rw [hbyte n hn'] at hb
    omega
  rw [encodeChar] at h
  split_ifs at h with h₁ h₂ h₃
  · rw [List.mem_singleton.1 h, hbyte _ (by omega)]
  all_goals
    simp only [List.mem_cons, List.not_mem_nil, hlast, or_false] at h
    exact absurd h (hfirst _ (by omega) (by omega))

/-- If the first byte of a text is one of ASCII, it is the first character. -/
theorem head?_of_head?_encode {c : Char} (hc : c.toNat < 0x80) {t : Text}
    (h : (encode t).head? = some (UInt8.ofNat c.toNat)) : t.head? = some c := by
  have hbyte : (UInt8.ofNat c.toNat).toNat = c.toNat := by
    rw [UInt8.toNat_ofNat', Nat.mod_eq_of_lt (by omega)]
  cases t with
  | nil => cases h
  | cons d t =>
    rw [encode_cons, List.head?_append_of_ne_nil _ (encodeChar_ne_nil d)] at h
    have hcode := toNat_eq_of_mem_encodeChar (by omega) (List.mem_of_mem_head? h)
    rw [hbyte] at hcode
    rw [List.head?_cons, Char.toNat_inj.1 hcode]

/-- The byte of a character of ASCII is in the encoding of a text only if the
    character is in the text. -/
theorem mem_of_mem_encode {c : Char} (hc : c.toNat < 0x80) {t : Text}
    (h : UInt8.ofNat c.toNat ∈ encode t) : c ∈ t := by
  have hbyte : (UInt8.ofNat c.toNat).toNat = c.toNat := by
    rw [UInt8.toNat_ofNat', Nat.mod_eq_of_lt (by omega)]
  obtain ⟨d, hd, hmem⟩ := List.mem_flatMap.1 h
  have hcode := toNat_eq_of_mem_encodeChar (by omega) hmem
  rw [hbyte] at hcode
  rwa [Char.toNat_inj.1 hcode]

/-- To cut a text at a character of ASCII is to cut its bytes at that one. -/
theorem splitOn_encode {c : Char} (hc : c.toNat < 0x80) (t : Text) :
    (encode t).splitOn (UInt8.ofNat c.toNat) = (t.splitOn c).map encode := by
  have hsep : encode [c] = [UInt8.ofNat c.toNat] := by
    rw [encode, List.flatMap_singleton, encodeChar, if_pos hc]
  have hjoined : [c].intercalate (t.splitOn c) = t := List.intercalate_splitOn c
  nth_rewrite 1 [← hjoined]
  rw [encode_intercalate, hsep]
  refine List.splitOn_intercalate _ ?_ (List.map_eq_nil_iff.not.2 (List.splitOn_ne_nil c t))
  intro piece hpiece hmem
  obtain ⟨u, hu, rfl⟩ := List.mem_map.1 hpiece
  exact not_mem_of_mem_splitOn hu (mem_of_mem_encode hc hmem)

/-! ### Bytes as they are shown -/

/-- What is owed is a character outside ASCII, whatever bytes are to come. -/
def State.Wide : State → Prop
  | .idle => True
  | .owing bits next later => ∀ b, next.holds b = true →
      0x80 ≤ (bits * 0x40 + (b.toNat - 0x80)) * 0x40 ^ later.length

/-- The cases of a first byte: it is a character of ASCII, or no character yet
    and then what it leaves owed is wide. -/
theorem first_cases (a : UInt8) :
    (a.toNat < 0x80 ∧ first a = ([some (Char.ofNat a.toNat)], .idle)) ∨
      ((∀ c, some c ∉ (first a).1) ∧ (first a).2.Wide) := by
  by_cases h₁ : a.toNat < 0x80
  · exact .inl ⟨h₁, first_one h₁⟩
  refine .inr ?_
  by_cases h₂ : a.toNat < 0xC2 ∨ 0xF5 ≤ a.toNat
  · rw [first_none (by omega)]
    simp [State.Wide]
  -- The least value owed is that of the least byte that may come second.
  have hwide : ∀ bits later, first a = ([], .owing bits (second a) later) →
      (∀ b, (second a).holds b = true →
        0x80 ≤ (bits * 0x40 + (b.toNat - 0x80)) * 0x40 ^ later.length) →
      (∀ c, some c ∉ (first a).1) ∧ (first a).2.Wide := by
    intro bits later hfirst hbits
    rw [hfirst]
    exact ⟨fun c => List.not_mem_nil, hbits⟩
  by_cases h₃ : a.toNat < 0xE0
  · refine hwide _ _ (first_two (by omega) h₃) fun b hb => ?_
    simp only [List.length_nil]
    omega
  by_cases h₄ : a.toNat < 0xF0
  · refine hwide _ _ (first_three (by omega) h₄) fun b hb => ?_
    rw [second_holds_iff] at hb
    simp only [List.length_cons, List.length_nil]
    omega
  · refine hwide _ _ (first_four (by omega) (by omega)) fun b hb => ?_
    rw [second_holds_iff] at hb
    simp only [List.length_cons, List.length_nil]
    omega

/-- A number that is read as a character other than the null character is the
    code of that character. -/
theorem eq_toNat_of_ofNat_eq {n : Nat} {c : Char} (hc : 0 < c.toNat) (h : Char.ofNat n = c) :
    n = c.toNat := by
  by_cases hn : n < 0xD800 ∨ 0xDFFF < n ∧ n < 0x110000
  · rw [← h, toNat_ofNat_char hn]
  · rw [Char.ofNat, dif_neg hn] at h
    rw [← h] at hc
    exact absurd hc (Nat.lt_irrefl 0)

section

variable {c : Char} (hpos : 0 < c.toNat) (hc : c.toNat < 0x80)
include hpos hc

/-- A byte with which a character of ASCII is read is that character, and what
    is owed stays wide. -/
theorem step_wide {s : State} (hs : s.Wide) (b : UInt8) :
    (step s b).2.Wide ∧ (some c ∈ (step s b).1 → b = UInt8.ofNat c.toNat) := by
  have hfirst : (first b).2.Wide ∧ (some c ∈ (first b).1 → b = UInt8.ofNat c.toNat) := by
    rcases first_cases b with ⟨-, heq⟩ | ⟨hnone, hwide⟩
    · rw [heq]
      refine ⟨trivial, fun hmem => ?_⟩
      rw [List.mem_singleton, Option.some.injEq] at hmem
      exact (ofNat_eq_of_toNat (eq_toNat_of_ofNat_eq hpos hmem.symm)).symm
    · exact ⟨hwide, fun hmem => absurd hmem (hnone c)⟩
  cases s with
  | idle => exact hfirst
  | owing bits next later =>
    rw [step]
    split
    next hb =>
      have hbits := hs b hb
      cases later with
      | nil =>
        refine ⟨trivial, fun hmem => ?_⟩
        rw [List.mem_singleton, Option.some.injEq] at hmem
        have hvalue := eq_toNat_of_ofNat_eq hpos hmem.symm
        rw [List.length_nil, Nat.pow_zero, Nat.mul_one] at hbits
        omega
      | cons next' later =>
        refine ⟨fun b' _ => ?_, fun hmem => absurd hmem List.not_mem_nil⟩
        rw [List.length_cons, Nat.pow_succ', ← Nat.mul_assoc] at hbits
        exact Nat.le_trans hbits (Nat.mul_le_mul_right _ (Nat.le_add_right _ _))
    next =>
      refine ⟨hfirst.1, fun hmem => hfirst.2 ?_⟩
      rcases List.mem_cons.1 hmem with hmem | hmem
      · cases hmem
      · exact hmem

/-- A character of ASCII that is read from some bytes is one of them. -/
theorem mem_of_mem_readFrom {s : State} (hs : s.Wide) {bytes : Bytes}
    (h : some c ∈ readFrom s bytes) : UInt8.ofNat c.toNat ∈ bytes := by
  induction bytes generalizing s with
  | nil => cases s <;> simp [readFrom, finish] at h
  | cons b bytes ih =>
    obtain ⟨hwide, hmem⟩ := step_wide hpos hc hs b
    rw [readFrom, List.mem_append] at h
    rcases h with h | h
    · rw [hmem h]
      exact List.mem_cons_self
    · exact List.mem_cons_of_mem _ (ih hwide h)

/-- A character of ASCII that is shown for some bytes is one of these bytes. -/
theorem mem_of_mem_shown {bytes : Bytes} (h : c ∈ shown bytes) : UInt8.ofNat c.toNat ∈ bytes := by
  rw [shown, written, read_eq_readFrom] at h
  obtain ⟨o, ho, heq⟩ := List.mem_map.1 h
  cases o with
  | none =>
    -- The character shown for an ill-formed part is none of ASCII.
    rw [← heq] at hc
    exact absurd hc (by decide)
  | some c' =>
    obtain rfl : c' = c := heq
    exact mem_of_mem_readFrom hpos hc (s := .idle) trivial ho

end

end Utf8

end Homonym
