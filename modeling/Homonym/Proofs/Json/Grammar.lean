import Homonym.Json.Basic
import Mathlib.Tactic.Common

/-!
# The grammar of JSON

A JSON value can be written in many ways: with white space between any two of
its parts, and with a choice of escapes for every character of a string. The
grammar says which texts are a value (`Spells`), and nothing about how they are
laid out. It is the grammar of all JSON, restricted to the values that there are
here: natural numbers, strings, arrays and objects.

* `Spells`: the texts of a value, of the items of an array, and of the fields of
  an object;
* `IsDocument`: the texts of a value with white space around it;
* `isDocument_document`: a value that is laid out follows the grammar.
-/

namespace Homonym

namespace Json

/-! ### Numbers and strings -/

/-- White space between the parts of a document. -/
def isBlank (c : Char) : Bool :=
  c = ' ' || c = '\t' || c = '\n' || c = '\r'

/-- A text of white space alone. -/
def IsGap (t : Text) : Prop :=
  ∀ c ∈ t, isBlank c = true

/-- A text is the number `n`: decimal digits, with no zero in front. -/
structure IsNumeral (n : Nat) (s : Text) : Prop where
  /-- There is a digit. -/
  ne_nil : s ≠ []
  /-- There are only digits. -/
  digits : ∀ c ∈ s, c.isDigit = true
  /-- Only the number zero starts with the digit zero. -/
  no_zero : s.head? = some '0' → s = ['0']
  /-- The digits are those of the number. -/
  value : Nat.ofDigitChars 10 s 0 = n

/-- The characters with an escape of their own, each behind the letter of its
    escape. -/
def letters : List (Char × Char) :=
  [('"', '"'), ('\\', '\\'), ('/', '/'), ('b', '\x08'), ('f', '\x0c'), ('n', '\n'), ('r', '\r'),
   ('t', '\t')]

/-- The value of a digit in base sixteen, in lower or upper case. -/
def hexValue? (c : Char) : Option Nat :=
  if c.isDigit then some (c.toNat - '0'.toNat)
  else if 'a' ≤ c ∧ c ≤ 'f' then some (c.toNat - 'a'.toNat + 10)
  else if 'A' ≤ c ∧ c ≤ 'F' then some (c.toNat - 'A'.toNat + 10)
  else none

/-- The number that some digits in base sixteen are. -/
def hexNumber? (digits : Text) : Option Nat :=
  digits.foldlM (fun n c => (hexValue? c).map (16 * n + ·)) 0

/-- Codes that make up a character as the first one of a pair. -/
def isHigh (n : Nat) : Bool :=
  0xD800 ≤ n && n < 0xDC00

/-- Codes that make up a character as the second one of a pair. -/
def isLow (n : Nat) : Bool :=
  0xDC00 ≤ n && n < 0xE000

/-- The code of the character that a pair of codes makes up. -/
def pairCode (high low : Nat) : Nat :=
  0x10000 + (high - 0xD800) * 0x400 + (low - 0xDC00)

/-- The texts that stand for a character inside a string. -/
inductive SpellsChar : Char → Text → Prop where
  /-- The character itself. -/
  | plain (c : Char) (hquote : c ≠ '"') (hslash : c ≠ '\\') (hcode : 0x20 ≤ c.toNat) :
      SpellsChar c [c]
  /-- An escape with a letter. -/
  | letter {c e : Char} (h : (e, c) ∈ letters) : SpellsChar c ['\\', e]
  /-- The code of the character, in four digits. -/
  | code {c d₁ d₂ d₃ d₄ : Char} (h : hexNumber? [d₁, d₂, d₃, d₄] = some c.toNat) :
      SpellsChar c ['\\', 'u', d₁, d₂, d₃, d₄]
  /-- A pair of codes. -/
  | pair {c d₁ d₂ d₃ d₄ e₁ e₂ e₃ e₄ : Char} {high low : Nat}
      (hhigh : hexNumber? [d₁, d₂, d₃, d₄] = some high)
      (hlow : hexNumber? [e₁, e₂, e₃, e₄] = some low)
      (hishigh : isHigh high = true) (hislow : isLow low = true) (h : c.toNat = pairCode high low) :
      SpellsChar c ['\\', 'u', d₁, d₂, d₃, d₄, '\\', 'u', e₁, e₂, e₃, e₄]

/-- The texts that stand for a text inside a string. -/
inductive SpellsChars : Text → Text → Prop where
  | nil : SpellsChars [] []
  | cons {c : Char} {t s s' : Text} (hc : SpellsChar c s) (ht : SpellsChars t s') :
      SpellsChars (c :: t) (s ++ s')

/-- A text is the string `t`, in its quotation marks. -/
def IsString (t s : Text) : Prop :=
  ∃ inner, SpellsChars t inner ∧ s = '"' :: inner ++ ['"']

/-! ### Values -/

/-- What a part of a document can be. -/
inductive Part where
  /-- A value. -/
  | value (v : Json)
  /-- The items of an array, one at least, without the brackets. -/
  | items (vs : List Json)
  /-- A field of an object. -/
  | field (key : Text) (v : Json)
  /-- The fields of an object, one at least, without the brackets. -/
  | fields (fs : List (Text × Json))

/-- The texts that a part of a document can be written as. -/
inductive Spells : Part → Text → Prop where
  | number {n : Nat} {s : Text} (h : IsNumeral n s) : Spells (.value (.number n)) s
  | string {t s : Text} (h : IsString t s) : Spells (.value (.string t)) s
  | emptyArray {w : Text} (hw : IsGap w) : Spells (.value (.array [])) ('[' :: w ++ [']'])
  | array {vs : List Json} {s : Text} (h : Spells (.items vs) s) :
      Spells (.value (.array vs)) ('[' :: s ++ [']'])
  | emptyObject {w : Text} (hw : IsGap w) : Spells (.value (.object [])) ('\x7b' :: w ++ ['\x7d'])
  | object {fs : List (Text × Json)} {s : Text} (h : Spells (.fields fs) s) :
      Spells (.value (.object fs)) ('\x7b' :: s ++ ['\x7d'])
  | item {v : Json} {w s w' : Text} (hw : IsGap w) (hv : Spells (.value v) s) (hw' : IsGap w') :
      Spells (.items [v]) (w ++ s ++ w')
  | items {v : Json} {vs : List Json} {w s w' s' : Text} (hw : IsGap w)
      (hv : Spells (.value v) s) (hw' : IsGap w') (hvs : Spells (.items vs) s') :
      Spells (.items (v :: vs)) (w ++ s ++ w' ++ ',' :: s')
  | field {key : Text} {v : Json} {q w w' s : Text} (hkey : IsString key q) (hw : IsGap w)
      (hw' : IsGap w') (hv : Spells (.value v) s) :
      Spells (.field key v) (q ++ w ++ ':' :: w' ++ s)
  | lastField {key : Text} {v : Json} {w s w' : Text} (hw : IsGap w)
      (hf : Spells (.field key v) s) (hw' : IsGap w') :
      Spells (.fields [(key, v)]) (w ++ s ++ w')
  | fields {key : Text} {v : Json} {fs : List (Text × Json)} {w s w' s' : Text} (hw : IsGap w)
      (hf : Spells (.field key v) s) (hw' : IsGap w') (hfs : Spells (.fields fs) s') :
      Spells (.fields ((key, v) :: fs)) (w ++ s ++ w' ++ ',' :: s')

/-- A text is a document that holds a value: the value with white space around
    it. -/
def IsDocument (v : Json) (t : Text) : Prop :=
  ∃ w s w', IsGap w ∧ Spells (.value v) s ∧ IsGap w' ∧ t = w ++ s ++ w'

/-! ### What is laid out -/

theorem isGap_nil : IsGap [] :=
  fun _ hc => absurd hc List.not_mem_nil

theorem isGap_newLine (depth : Nat) : IsGap (newLine depth) := by
  intro c hc
  rcases List.mem_cons.1 hc with rfl | hc
  · rfl
  · rw [List.eq_of_mem_replicate hc]
    rfl

theorem eq_zero_of_digitChar_eq_zero : ∀ n < 10, Nat.digitChar n = '0' → n = 0 := by
  decide

/-- Digits start with a zero only for the number zero. -/
theorem eq_zero_of_head?_toDigits {n : Nat} (h : (Nat.toDigits 10 n).head? = some '0') : n = 0 := by
  induction n using Nat.strongRecOn with
  | ind n ih =>
    rcases Nat.lt_or_ge n 10 with hlt | hge
    · rw [Nat.toDigits_of_lt_base hlt, List.head?_cons, Option.some.injEq] at h
      exact eq_zero_of_digitChar_eq_zero n hlt h
    · -- All digits but the last are those of a tenth of the number.
      rw [Nat.toDigits_of_base_le (by decide) hge, List.head?_append,
        Option.or_of_isSome (List.isSome_head?.2 Nat.toDigits_ne_nil)] at h
      have := ih (n / 10) (by omega) h
      omega

/-- The digits of a number are a numeral for it, as they have no zero in front. -/
theorem isNumeral_ofNat (n : Nat) : IsNumeral n (Text.ofNat n) where
  ne_nil := Nat.toDigits_ne_nil
  digits _ hc := Nat.isDigit_of_mem_toDigits (by decide) (by decide) hc
  no_zero h := by
    rw [eq_zero_of_head?_toDigits h]
    rfl
  value := Nat.ofDigitChars_ten_toDigits

theorem hexValue?_hexDigit : ∀ n < 16, hexValue? (hexDigit n) = some n := by
  decide

/-- A character below U+0020 is escaped by its code in two digits. -/
theorem hexNumber?_escape {c : Char} (h : c.toNat < 0x20) :
    hexNumber? ['0', '0', hexDigit (c.toNat / 16), hexDigit (c.toNat % 16)] = some c.toNat := by
  have hhigh := hexValue?_hexDigit (c.toNat / 16) (by omega)
  have hlow := hexValue?_hexDigit (c.toNat % 16) (by omega)
  have hzero : hexValue? '0' = some 0 := rfl
  simp only [hexNumber?, List.foldlM_cons, List.foldlM_nil, hhigh, hlow, hzero, Option.map_some,
    Option.bind_eq_bind, Option.bind_some, Option.pure_def, Option.some.injEq]
  omega

theorem spellsChar_escape (c : Char) : SpellsChar c (escape c) := by
  rw [escape]
  split_ifs with hquote hslash hb hf hn hr ht hcode
  · exact .letter (by subst hquote; decide)
  · exact .letter (by subst hslash; decide)
  · exact .letter (by subst hb; decide)
  · exact .letter (by subst hf; decide)
  · exact .letter (by subst hn; decide)
  · exact .letter (by subst hr; decide)
  · exact .letter (by subst ht; decide)
  · exact .code (hexNumber?_escape hcode)
  · exact .plain c hquote hslash (Nat.le_of_not_lt hcode)

/-- A quoted text is a string that spells the text. -/
theorem isString_quote (t : Text) : IsString t (quote t) := by
  refine ⟨t.flatMap escape, ?_, rfl⟩
  induction t with
  | nil => exact .nil
  | cons c t ih => exact .cons (spellsChar_escape c) ih

/-- Items with commas and gaps between them. -/
theorem spells_intercalate_items {w w' : Text} (hw : IsGap w) (hw' : IsGap w') {v : Json}
    {vs : List Json} {s : Text} {ss : List Text} (hv : Spells (.value v) s)
    (h : List.Forall₂ (fun v s => Spells (.value v) s) vs ss) :
    Spells (.items (v :: vs)) (w ++ List.intercalate (',' :: w) (s :: ss) ++ w') := by
  induction h generalizing v s with
  | nil =>
    rw [List.intercalate_singleton]
    exact .item hw hv hw'
  | cons hv' _ ih =>
    have hitems := Spells.items hw hv isGap_nil (ih hv')
    rw [List.intercalate_cons_cons]
    simpa only [List.append_nil, List.append_assoc, List.cons_append] using hitems

/-- Fields with commas and gaps between them. -/
theorem spells_intercalate_fields {w w' : Text} (hw : IsGap w) (hw' : IsGap w')
    {f : Text × Json} {fs : List (Text × Json)} {s : Text} {ss : List Text}
    (hf : Spells (.field f.1 f.2) s)
    (h : List.Forall₂ (fun f s => Spells (.field f.1 f.2) s) fs ss) :
    Spells (.fields (f :: fs)) (w ++ List.intercalate (',' :: w) (s :: ss) ++ w') := by
  induction h generalizing f s with
  | nil =>
    rw [List.intercalate_singleton]
    exact .lastField hw hf hw'
  | cons hf' _ ih =>
    have hfields := Spells.fields hw hf isGap_nil (ih hf')
    rw [List.intercalate_cons_cons]
    simpa only [List.append_nil, List.append_assoc, List.cons_append] using hfields

/-- Values that are spelled spell an array, once they are enclosed in brackets. -/
theorem spells_enclose_array (depth : Nat) {vs : List Json} {ss : List Text}
    (h : List.Forall₂ (fun v s => Spells (.value v) s) vs ss) :
    Spells (.value (.array vs)) (enclose '[' ']' depth ss) := by
  cases h with
  | nil => exact .emptyArray isGap_nil
  | cons hv h =>
    exact .array (spells_intercalate_items (isGap_newLine _) (isGap_newLine _) hv h)

/-- Fields that are spelled spell an object, once they are enclosed in braces. -/
theorem spells_enclose_object (depth : Nat) {fs : List (Text × Json)} {ss : List Text}
    (h : List.Forall₂ (fun f s => Spells (.field f.1 f.2) s) fs ss) :
    Spells (.value (.object fs)) (enclose '\x7b' '\x7d' depth ss) := by
  cases h with
  | nil => exact .emptyObject isGap_nil
  | cons hf h =>
    exact .object (spells_intercalate_fields (isGap_newLine _) (isGap_newLine _) hf h)

mutual

/-- A value that is laid out follows the grammar. -/
theorem spells_layOut (depth : Nat) : (v : Json) → Spells (.value v) (layOut depth v)
  | .number n => by
    rw [layOut]
    exact .number (isNumeral_ofNat n)
  | .string t => by
    rw [layOut]
    exact .string (isString_quote t)
  | .array items => by
    rw [layOut]
    exact spells_enclose_array depth (spells_layOutItems (depth + 1) items)
  | .object fields => by
    rw [layOut]
    exact spells_enclose_object depth (spells_layOutFields (depth + 1) fields)

theorem spells_layOutItems (depth : Nat) : (vs : List Json) →
    List.Forall₂ (fun v s => Spells (.value v) s) vs (layOutItems depth vs)
  | [] => by
    rw [layOutItems]
    exact .nil
  | v :: vs => by
    rw [layOutItems]
    exact .cons (spells_layOut depth v) (spells_layOutItems depth vs)

theorem spells_layOutFields (depth : Nat) : (fs : List (Text × Json)) →
    List.Forall₂ (fun f s => Spells (.field f.1 f.2) s) fs (layOutFields depth fs)
  | [] => by
    rw [layOutFields]
    exact .nil
  | (key, v) :: fs => by
    rw [layOutFields]
    refine .cons ?_ (spells_layOutFields depth fs)
    have hblank : IsGap [' '] := fun c hc => List.mem_singleton.1 hc ▸ rfl
    have hfield := Spells.field (isString_quote key) isGap_nil hblank (spells_layOut depth v)
    rwa [List.append_nil, List.append_assoc] at hfield

end

/-- The document that holds a value follows the grammar. -/
theorem isDocument_document (v : Json) : IsDocument v (document v) :=
  ⟨[], layOut 0 v, [], isGap_nil, spells_layOut 0 v, isGap_nil, (List.append_nil _).symm⟩

end Json

end Homonym
