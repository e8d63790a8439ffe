import Homonym.Path.Relative
import Homonym.Proofs.Text.Cut
import Homonym.Proofs.Text.Utf8

/-!
# What a path below a folder is shown with

The text shown for a file is taken from the spelling of its path. Where the path
is cut and put together again, only slashes and dots can come in, and those are
no characters that a terminal would take for anything else.

* `Path.mem_spelling_of_relativeTo?`: the bytes of what is left of a path;
* `Path.mem_spelling_of_mem_shownBelow`: the characters of ASCII that are shown
  for a file.
-/

namespace Homonym

namespace Path

theorem skipSteps_isSuffix (n : Nat) (steps : List Bytes) : skipSteps n steps <:+ steps := by
  fun_induction skipSteps n steps with
  | case1 steps => exact List.suffix_rfl
  | case2 => exact List.suffix_rfl
  | case3 n step steps hidle ih => exact ih.trans (List.suffix_cons _ _)
  | case4 n step steps hidle ih => exact ih.trans (List.suffix_cons _ _)

theorem dropIdleEnd_isPrefix (steps : List Bytes) : dropIdleEnd steps <+: steps := by
  rw [dropIdleEnd, ← List.reverse_suffix, List.reverse_reverse]
  exact List.dropWhile_suffix _

/-- What is left of a path has its last steps. -/
theorem Layout.steps_drop_isSuffix (n : Nat) (l : Layout) : (l.drop n).steps <:+ l.steps := by
  cases n with
  | zero => exact List.suffix_rfl
  | succ n => exact (List.dropWhile_suffix _).trans (skipSteps_isSuffix _ _)

/-- The bytes of a spelling come from the steps, but for slashes and dots. -/
theorem Layout.mem_spelling {l : Layout} {b : UInt8} (h : b ∈ l.spelling) :
    b = slash ∨ b = dot ∨ ∃ step ∈ l.steps, b ∈ step := by
  have hsteps : ∀ steps : List Bytes, b ∈ List.intercalate [slash] steps →
      b = slash ∨ ∃ step ∈ steps, b ∈ step := fun steps hb =>
    (mem_of_mem_intercalate hb).imp_left List.mem_singleton.1
  rw [Layout.spelling] at h
  split at h
  next => exact (hsteps _ h).imp_right .inr
  next =>
    rcases List.mem_cons.1 h with rfl | h
    · exact .inl rfl
    · exact (hsteps _ h).imp_right .inr
  next =>
    rcases hsteps _ h with rfl | ⟨step, hstep, hb⟩
    · exact .inl rfl
    · rcases List.mem_cons.1 hstep with rfl | hstep
      · exact .inr (.inl (List.mem_singleton.1 hb))
      · exact .inr (.inr ⟨step, hstep, hb⟩)

/-- The steps of a path are pieces of its spelling. -/
theorem mem_splitOn_of_mem_steps {p : Path} {step : Bytes} (h : step ∈ p.layout.steps) :
    step ∈ p.spelling.splitOn slash := by
  rw [layout] at h
  split at h
  next => exact absurd h List.not_mem_nil
  next first steps hsplit =>
    rw [hsplit]
    split_ifs at h
    · exact List.mem_cons_of_mem _ h
    · exact List.mem_cons_of_mem _ h
    · exact h

/-- The bytes of what is left of a path are bytes of its spelling, or slashes
    and dots. -/
theorem mem_spelling_of_relativeTo? {file root rest : Path} (h : file.relativeTo? root = some rest)
    {b : UInt8} (hb : b ∈ rest.spelling) : b = slash ∨ b = dot ∨ b ∈ file.spelling := by
  rw [relativeTo?, Option.ite_none_right_eq_some] at h
  obtain rfl := Option.some.inj h.2
  refine (Layout.mem_spelling hb).imp_right fun hb => hb.imp_right fun ⟨step, hstep, hb⟩ => ?_
  have hfile : step ∈ file.layout.steps :=
    (Layout.steps_drop_isSuffix _ _).subset ((dropIdleEnd_isPrefix _).subset hstep)
  exact subset_of_mem_splitOn (mem_splitOn_of_mem_steps hfile) hb

/-- A character of ASCII that is shown for a file is one of its spelling, or a
    slash or a dot. -/
theorem mem_spelling_of_mem_shownBelow {c : Char} (hpos : 0 < c.toNat) (hc : c.toNat < 0x80)
    {file root : Path} (h : c ∈ file.shownBelow root) :
    UInt8.ofNat c.toNat = slash ∨ UInt8.ofNat c.toNat = dot ∨
      UInt8.ofNat c.toNat ∈ file.spelling := by
  have hwhole : c ∈ file.shown → UInt8.ofNat c.toNat ∈ file.spelling :=
    Utf8.mem_of_mem_shown hpos hc
  rw [shownBelow] at h
  split at h
  next rest hrest =>
    split at h
    next => exact .inr (.inr (hwhole h))
    next => exact mem_spelling_of_relativeTo? hrest (Utf8.mem_of_mem_shown hpos hc h)
  next => exact .inr (.inr (hwhole h))

end Path

end Homonym
