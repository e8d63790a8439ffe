import Homonym.Proofs.Report.Reading
import Homonym.Proofs.Source.Words

/-!
# Line numbers in a report

People count lines from one, so a report shows each line number one greater than
it is. This sum, like all that is done with line numbers before, is taken here in
words of 64 bits, where it gives a result only if it fits (`siteLine?`). In a text
of fewer than 2^63 bytes all of it fits: nothing goes wrong from the numbering of
the lines to the line in the report, and the numbers shown there are those of
lines of the text.

* `siteLine?_eq`: the line of a definition in a report, in words;
* `numbers_fit`: what is done with line numbers, step by step.
-/

namespace Homonym

namespace Report

/-- The line of a definition found by line numbers, the `i`-th one of its name,
    if its line numbers fit when counted from one. -/
def siteLine? (i : Nat) (d : Source.Located) : Option Text := do
  let first ← d.first.add? 1
  let last ← d.last.add? 1
  return "      ".toList ++ Text.ofNat i ++ ". Line ".toList ++ Text.ofNat first.toNat ++
    '-' :: Text.ofNat last.toNat

/-- If the numbers of its lines are words, the line of a definition is written, with
    no sum that overflows. -/
theorem siteLine?_eq {d : Source.Located} (hfirst : d.first.toNat + 1 < 2 ^ 64)
    (hlast : d.last.toNat + 1 < 2 ^ 64) (i : Nat) :
    siteLine? i d = some (siteLine i d.definition) := by
  have hfirst' : d.first.add? 1 = some (.ofNat (d.first.toNat + 1)) := by
    rw [← Word.add?_one hfirst, UInt64.ofNat_toNat]
  have hlast' : d.last.add? 1 = some (.ofNat (d.last.toNat + 1)) := by
    rw [← Word.add?_one hlast, UInt64.ofNat_toNat]
  rw [siteLine?, hfirst', hlast']
  simp only [Option.bind_eq_bind, Option.bind_some, Word.toNat_ofNat hfirst,
    Word.toNat_ofNat hlast]
  rfl

theorem head?_siteRows (snippets : Bool) (i : Nat) (d : Source.Definition) :
    (siteRows snippets i d).head? = some (.plain (siteLine i d)) :=
  rfl

/-- In a text of fewer than 2^63 bytes, nothing that is done with line numbers
    goes wrong. The search by line numbers gives a result, which is the
    definitions of the text, and each of them has its line in a report. Where the
    search for the end of a definition stops at a line that closes it, that line
    is below the header. The excerpt of a definition is never empty and stops
    within the text. All these numbers fit in 64 bits, with room for what is added
    to them, and the numbers that a report shows are those of lines of the text,
    counted from one. -/
theorem numbers_fit {source : Text} (h : (Utf8.encode source).length < 2 ^ 63) :
    (∃ ds, Source.located? source = some ds ∧
      ds.map Source.Located.definition = Source.definitions source ∧
      ∀ d ∈ ds, ∀ i, siteLine? i d = some (siteLine i d.definition)) ∧
    (∀ first i, Source.exit? (Source.lines source) first = some (.closed i) →
      1 ≤ first.toNat + 1 ∧ first.toNat + 1 ≤ i.toNat) ∧
    (∀ first header, Source.lineAt? (Source.lines source) first = some header →
      ∃ last stop, Source.lastLine? (Source.lines source) first = some last ∧
        Source.stop? first last = some stop ∧ first < stop ∧
        stop.toNat ≤ (Source.lines source).length) ∧
    (∀ l ∈ Source.lines source, l.indent < 2 ^ 64) ∧
    ∀ d ∈ Source.definitions source,
      d.first + 5 < 2 ^ 64 ∧ d.first + 1 < 2 ^ 64 ∧ d.last + 1 < 2 ^ 64 ∧
      ∀ snippets i, ∃ m n, (siteRows snippets i d).head? = some (.plain ("      ".toList ++
          Text.ofNat i ++ ". Line ".toList ++ Text.ofNat m ++ '-' :: Text.ofNat n)) ∧
        1 ≤ m ∧ m ≤ n ∧ n ≤ (Source.lines source).length := by
  have hlength := Source.length_lines_le_of_encode h
  refine ⟨?_, fun first i hexit => ?_, fun first header hheader => ?_, fun l hl => ?_,
    fun d hd => ?_⟩
  · obtain ⟨ds, hds, hdefinitions⟩ := Source.located?_eq hlength
    refine ⟨ds, hds, hdefinitions, fun d hd i => ?_⟩
    have hmem : d.definition ∈ Source.definitions source :=
      hdefinitions ▸ List.mem_map_of_mem hd
    obtain ⟨hle, hlt⟩ : d.first.toNat ≤ d.last.toNat ∧ d.last.toNat < _ :=
      Source.first_le_last_lt hmem
    exact siteLine?_eq (by omega) (by omega) i
  · exact ⟨Nat.le_add_left 1 _, Source.lt_of_exit?_eq_closed hlength hexit⟩
  · exact Source.exists_stop? hlength hheader
  · have hraw := Source.length_raw_le hl
    have hindent := l.indent_le
    have hbytes := Utf8.length_le_length_encode source
    omega
  · obtain ⟨hle, hlt⟩ := Source.first_le_last_lt hd
    refine ⟨by omega, by omega, by omega, fun snippets i => ⟨d.first + 1, d.last + 1, ?_, ?_⟩⟩
    · exact head?_siteRows snippets i d
    · omega

/-- A header right below another one, in the last line. -/
def adjacent : Text :=
  "def a():\ndef b():".toList

/-- The second header closes the first definition, and is the last line there
    is. -/
theorem numbers_fit_adjacent : (Utf8.encode adjacent).length < 2 ^ 63 ∧
    (∃ ds, Source.located? adjacent = some ds ∧
      ds.map Source.Located.definition =
        [⟨['a'], 0, 0, "def a():".toList⟩, ⟨['b'], 1, 1, "def b():".toList⟩] ∧
      ∀ d ∈ ds, ∀ i, siteLine? i d = some (siteLine i d.definition)) ∧
    (Source.exit? (Source.lines adjacent) 0 = some (.closed 1) ∧
      1 ≤ (0 : Word).toNat + 1 ∧ (0 : Word).toNat + 1 ≤ (1 : Word).toNat) ∧
    ∃ last stop, Source.lastLine? (Source.lines adjacent) 1 = some last ∧
      Source.stop? 1 last = some stop ∧ (1 : Word) < stop ∧
      stop.toNat ≤ (Source.lines adjacent).length := by
  have hsize : (Utf8.encode adjacent).length < 2 ^ 63 := by decide
  have hclosed : Source.exit? (Source.lines adjacent) 0 = some (.closed 1) := by decide
  have hheader : Source.lineAt? (Source.lines adjacent) 1 = some ⟨"def b():".toList⟩ := by decide
  have hfound : Source.definitions adjacent =
      [⟨['a'], 0, 0, "def a():".toList⟩, ⟨['b'], 1, 1, "def b():".toList⟩] := by decide
  obtain ⟨hlocated, hbelow, hexcerpt, -⟩ := numbers_fit hsize
  exact ⟨hsize, hfound ▸ hlocated, ⟨hclosed, hbelow 0 1 hclosed⟩, hexcerpt 1 _ hheader⟩

end Report

end Homonym
