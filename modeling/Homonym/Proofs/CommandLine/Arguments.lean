import Homonym.CommandLine.Request
import Homonym.Proofs.Text.Utf8
import Mathlib.Data.List.Count
import Mathlib.Data.List.Forall2
import Mathlib.Data.List.TakeWhile

/-!
# Arguments say what was written with them

A path, flags and values can be written as arguments in many ways: the options
may come in any order, a flag may have a letter, and a value may stand in the
argument of its setting or in one of its own. Whichever way is taken, the
arguments are read as what was written with them. Options and values are texts,
of which the arguments hold the bytes; the path may be any bytes.

An option is written as one argument or two (`Choice.Spelled`). Between options
nothing is pending, so reading the arguments of one changes the draft by just
this option (`Draft.foldlM_add_of_spelled`), and reading all of them, by all the
options one by one (`Draft.foldlM_add_flatten`). What the draft comes to depends
on the flags and on the order of the values of each setting, but not on how they
are mixed.

* `Writes`: how a request is written as arguments;
* `parse_writes`: reading them gives the request back.
-/

namespace Homonym

namespace CommandLine

/-! ### Writing options -/

/-- An option as it is given, with its value. -/
inductive Choice where
  | flag (f : Flag)
  | value (s : Setting) (v : Text)
  deriving DecidableEq

/-- The arguments that an option can be written as. -/
inductive Choice.Spelled : Choice → List Bytes → Prop where
  /-- A flag is written out. -/
  | word (f : Flag) : Spelled (.flag f) [Utf8.encode (Key.flag f).long]
  /-- The flag that has a letter is given by it. -/
  | letter : Spelled (.flag .verbose) [Utf8.encode ['-', 'v']]
  /-- The value stands behind an equals sign, if it is not empty. -/
  | joined (s : Setting) {v : Text} (h : v ≠ []) :
      Spelled (.value s v) [Utf8.encode ((Key.setting s).long ++ '=' :: v)]
  /-- The value is an argument of its own, if it starts with no dash. -/
  | apart (s : Setting) {v : Text} (h : v.head? ≠ some '-') :
      Spelled (.value s v) [Utf8.encode (Key.setting s).long, Utf8.encode v]

/-- The value that an option gives to a setting, if it gives it one. -/
def Choice.value? (s : Setting) : Choice → Option Text
  | .flag _ => none
  | .value s' v => if s' = s then some v else none

/-- The arguments write out a request with the given path, flags and values: each
    flag that is set stands there once, the values of each setting are in order,
    and behind all the options come the divider and the path. -/
def Writes (path : Path) (flags : Flags) (extensions excludes : List Text)
    (arguments : List Bytes) : Prop :=
  ∃ (choices : List Choice) (spellings : List (List Bytes)),
    List.Forall₂ Choice.Spelled choices spellings ∧
    arguments = spellings.flatten ++ [Utf8.encode ['-', '-'], path.spelling] ∧
    (∀ f, choices.count (.flag f) = if flags.has f then 1 else 0) ∧
    choices.filterMap (Choice.value? .extension) = extensions ∧
    choices.filterMap (Choice.value? .exclude) = excludes

/-! ### Reading one option -/

/-- The options have words of ASCII, without an equals sign. -/
theorem Key.bytes_word (k : Key) : Utf8.encode k.word ≠ [] ∧ equals ∉ Utf8.encode k.word := by
  rcases k with (_ | _ | _ | _ | _) | (_ | _) | _ | _ <;> decide

/-- An option is found by its word. -/
theorem Key.ofWord?_word (k : Key) : Key.ofWord? k.word = some k := by
  rcases k with (_ | _ | _ | _ | _) | (_ | _) | _ | _ <;> decide

theorem Key.encode_long (k : Key) :
    Utf8.encode k.long = dash :: dash :: Utf8.encode k.word :=
  rfl

namespace Token

/-- What follows two dashes is an option written out. -/
theorem ofArgument_dashes {bytes : Bytes} (h : bytes ≠ []) :
    ofArgument (dash :: dash :: bytes) = .ofLong bytes := by
  have hne : dash :: dash :: bytes ≠ [dash, dash] := fun heq =>
    h (List.cons.inj (List.cons.inj heq).2).2
  rw [ofArgument, if_neg hne, if_pos (by simp)]
  rfl

variable {word : Bytes} (h : equals ∉ word)
include h

/-- Without an equals sign an option is all word. -/
theorem ofLong_word : ofLong word = .long word none := by
  have hword : ∀ b ∈ word, decide (b ≠ equals) = true := fun b hb =>
    decide_eq_true fun heq => h (heq ▸ hb)
  rw [ofLong, List.takeWhile_eq_self_iff.2 hword, List.dropWhile_eq_nil_iff.2 hword]
  rfl

/-- The word ends at the first equals sign, and the value starts behind it. -/
theorem ofLong_append (value : Bytes) :
    ofLong (word ++ equals :: value) = .long word (some value) := by
  have hword : ∀ b ∈ word, decide (b ≠ equals) = true := fun b hb =>
    decide_eq_true fun heq => h (heq ▸ hb)
  rw [ofLong, List.takeWhile_append_of_pos hword, List.dropWhile_append_of_pos hword,
    List.takeWhile_cons_of_neg (by decide), List.append_nil,
    List.dropWhile_cons_of_neg (by decide)]
  rfl

omit h

/-- An option written out is read as its word. -/
theorem ofArgument_long (k : Key) :
    ofArgument (Utf8.encode k.long) = .long (Utf8.encode k.word) none := by
  rw [k.encode_long, ofArgument_dashes k.bytes_word.1, ofLong_word k.bytes_word.2]

/-- An option written out with a value is read as its word and this value, even if
    there are equals signs in the value. -/
theorem ofArgument_long_append (k : Key) (v : Text) :
    ofArgument (Utf8.encode (k.long ++ '=' :: v)) =
      .long (Utf8.encode k.word) (some (Utf8.encode v)) := by
  rw [Utf8.encode_append, k.encode_long, List.cons_append, List.cons_append,
    ofArgument_dashes (List.append_ne_nil_of_left_ne_nil k.bytes_word.1 _)]
  exact ofLong_append k.bytes_word.2 (Utf8.encode v)

/-- An argument without a dash in front is plain. -/
theorem ofArgument_of_head? {argument : Bytes} (h : argument.head? ≠ some dash) :
    ofArgument argument = .plain argument := by
  have hdivider : argument ≠ [dash, dash] := fun heq => h (by rw [heq]; rfl)
  have hlong : ¬[dash, dash].isPrefixOf argument = true := by
    rw [List.isPrefixOf_iff_prefix]
    rintro ⟨rest, rfl⟩
    exact h rfl
  rw [ofArgument, if_neg hdivider, if_neg hlong, if_neg fun hand => h hand.1]

end Token

namespace Draft

theorem settle_of_nothing {d : Draft} (h : d.pending = .nothing) : d.settle = .ok d := by
  rw [settle, h]

/-- Between two options, nothing is pending and the divider is still to come. -/
structure Open (d : Draft) : Prop where
  pending : d.pending = .nothing
  literal : d.literal = false

/-- The draft with one more option. -/
def choose (d : Draft) : Choice → Draft
  | .flag f => { d with flags := d.flags.give f }
  | .value .extension v => { d with extensions := d.extensions ++ [v], pending := .nothing }
  | .value .exclude v => { d with excludes := d.excludes ++ [v], pending := .nothing }

/-- Behind an option, nothing is pending again. -/
theorem Open.choose {d : Draft} (h : d.Open) (c : Choice) : (d.choose c).Open := by
  rcases c with f | ⟨_ | _, v⟩
  · exact ⟨h.pending, h.literal⟩
  · exact ⟨rfl, h.literal⟩
  · exact ⟨rfl, h.literal⟩

/-- A value that is a text is added at once. -/
theorem addValue_encode (d : Draft) (s : Setting) (v : Text) :
    d.addValue s (Utf8.encode v) = d.choose (.value s v) := by
  have hdecode : Utf8.decode? (Utf8.encode v) = some v := Utf8.decode?_eq_some_iff.2 rfl
  rw [addValue.eq_def, hdecode]
  cases s <;> rfl

/-- In front of the divider, an argument is taken by its shape. -/
theorem Open.add {d : Draft} (h : d.Open) (argument : Bytes) :
    d.add argument = d.addToken (.ofArgument argument) := by
  rw [Draft.add, h.literal]
  rfl

/-- A flag that was not given before is given. -/
theorem Open.addKey_flag {d : Draft} (h : d.Open) {f : Flag} (hf : d.flags.has f = false) :
    d.addKey (.flag f) = .ok (d.choose (.flag f)) := by
  rw [addKey, settle_of_nothing h.pending]
  exact if_neg (Bool.eq_false_iff.1 hf)

/-- An option is found by the bytes of its word. -/
theorem ofWord?_encode_word (k : Key) :
    (Utf8.decode? (Utf8.encode k.word)).bind Key.ofWord? = some k := by
  rw [Utf8.decode?_eq_some_iff.2 rfl]
  exact k.ofWord?_word

/-- An option written out is taken as the option that it stands for. -/
theorem Open.add_long {d : Draft} (h : d.Open) (k : Key) :
    d.add (Utf8.encode k.long) = d.addKey k := by
  simp only [h.add, Token.ofArgument_long, addToken, ofWord?_encode_word]

/-- A setting with a value behind an equals sign takes this value. -/
theorem Open.add_long_append {d : Draft} (h : d.Open) (s : Setting) (v : Text) :
    d.add (Utf8.encode ((Key.setting s).long ++ '=' :: v)) = .ok (d.choose (.value s v)) := by
  simp only [h.add, Token.ofArgument_long_append, addToken, ofWord?_encode_word]
  rw [addKeyValue, settle_of_nothing h.pending]
  change (d.addValue s (Utf8.encode v)).settle = _
  rw [addValue_encode, settle_of_nothing (h.choose _).pending]

/-- A setting without a value takes the next argument as its value. -/
theorem Open.add_setting {d : Draft} (h : d.Open) (s : Setting) {v : Text}
    (hv : v.head? ≠ some '-') :
    [Utf8.encode (Key.setting s).long, Utf8.encode v].foldlM Draft.add d =
      .ok (d.choose (.value s v)) := by
  have hkey : d.addKey (.setting s) = .ok { d with pending := .value s } := by
    rw [addKey, settle_of_nothing h.pending]
    rfl
  have hplain : (Utf8.encode v).head? ≠ some dash := fun hhead =>
    hv (Utf8.head?_of_head?_encode (c := '-') (by decide) hhead)
  have hvalue : Draft.add { d with pending := .value s } (Utf8.encode v) =
      .ok (d.choose (.value s v)) := by
    rw [Draft.add, if_neg (by rw [h.literal]; decide), Token.ofArgument_of_head? hplain]
    change Except.ok (addValue { d with pending := .value s } s (Utf8.encode v)) = _
    rw [addValue_encode]
    cases s <;> rfl
  rw [List.foldlM_cons, h.add_long, hkey]
  change [Utf8.encode v].foldlM Draft.add { d with pending := .value s } = _
  rw [List.foldlM_cons, hvalue]
  rfl

/-- Reading the arguments of an option adds this option to the draft, unless it is
    a flag that was given before. -/
theorem foldlM_add_of_spelled {d : Draft} (h : d.Open) {c : Choice} {ts : List Bytes}
    (hspelled : c.Spelled ts) (hnew : ∀ f, c = .flag f → d.flags.has f = false) :
    ts.foldlM Draft.add d = .ok (d.choose c) := by
  have hone : ∀ t, [t].foldlM Draft.add d = d.add t := by
    intro t
    rw [List.foldlM_cons]
    cases d.add t <;> rfl
  cases hspelled with
  | word f => rw [hone, h.add_long, h.addKey_flag (hnew f rfl)]
  | letter =>
    have hletter : d.add (Utf8.encode ['-', 'v']) = d.addKey (.flag .verbose) := by
      rw [h.add]
      change (d.addKey (.flag .verbose) >>= _) = _
      cases d.addKey (.flag .verbose) <;> rfl
    rw [hone, hletter, h.addKey_flag (hnew _ rfl)]
  | joined s hv => rw [hone, h.add_long_append]
  | apart s hv => exact h.add_setting s hv

end Draft

/-! ### Reading all options -/

theorem Flags.has_give (fs : Flags) (f g : Flag) :
    (fs.give f).has g = (decide (f = g) || fs.has g) := by
  cases f <;> cases g <;> rfl

/-- Flags are determined by which of them are given. -/
theorem Flags.eq_of_has {fs fs' : Flags} (h : ∀ f, fs.has f = fs'.has f) : fs = fs' := by
  obtain ⟨⟩ := fs
  obtain ⟨⟩ := fs'
  exact Flags.mk.injEq .. |>.mpr
    ⟨h .showSnippets, h .failOnDuplicates, h .json, h .noColor, h .verbose⟩

namespace Draft

/-- Reading the arguments of options adds all of them to the draft, as long as no
    flag is given twice. -/
theorem foldlM_add_flatten {choices : List Choice} {spellings : List (List Bytes)}
    (hspelled : List.Forall₂ Choice.Spelled choices spellings) {d : Draft} (h : d.Open)
    (honce : ∀ f, choices.count (.flag f) + (d.flags.has f).toNat ≤ 1) :
    spellings.flatten.foldlM Draft.add d = .ok (choices.foldl choose d) := by
  induction hspelled generalizing d with
  | nil => rfl
  | @cons c ts choices spellings hc hrest ih =>
    have hnew : ∀ f, c = .flag f → d.flags.has f = false := by
      rintro f rfl
      have hf := honce f
      rw [List.count_cons_self] at hf
      exact Bool.toNat_eq_zero.1 (by omega)
    -- The flag just given is not among the options to come.
    have hrest : ∀ f, choices.count (.flag f) + ((d.choose c).flags.has f).toNat ≤ 1 := by
      intro f
      have hf := honce f
      rcases c with g | ⟨_ | _, v⟩
      · rw [List.count_cons] at hf
        rw [choose, Flags.has_give]
        by_cases hfg : g = f
        · subst hfg
          simp only [BEq.rfl, if_true, decide_true, Bool.true_or, Bool.toNat_true] at hf ⊢
          omega
        · simpa [hfg] using hf
      · rwa [List.count_cons_of_ne (by simp)] at hf
      · rwa [List.count_cons_of_ne (by simp)] at hf
    rw [List.flatten_cons, List.foldlM_append, foldlM_add_of_spelled h hc hnew]
    exact ih (h.choose c) hrest

/-- Options one by one: the path stays, each setting gets its values in the order in
    which they are given, and the flags given are those from before and those among
    the options. -/
theorem foldl_choose (choices : List Choice) (d : Draft) :
    (choices.foldl choose d).path = d.path ∧
    (choices.foldl choose d).extensions =
      d.extensions ++ choices.filterMap (Choice.value? .extension) ∧
    (choices.foldl choose d).excludes =
      d.excludes ++ choices.filterMap (Choice.value? .exclude) ∧
    ∀ f, (choices.foldl choose d).flags.has f = true ↔
      d.flags.has f = true ∨ .flag f ∈ choices := by
  induction choices generalizing d with
  | nil => simp
  | cons c choices ih =>
    obtain ⟨hpath, hextensions, hexcludes, hflags⟩ := ih (d.choose c)
    rw [List.foldl_cons, hpath, hextensions, hexcludes]
    rcases c with g | ⟨_ | _, v⟩
    · refine ⟨rfl, rfl, rfl, fun f => ?_⟩
      rw [hflags, choose, Flags.has_give, Bool.or_eq_true, decide_eq_true_iff, List.mem_cons,
        Choice.flag.injEq, eq_comm (a := g), or_left_comm, or_assoc]
    · refine ⟨rfl, ?_, rfl, fun f => ?_⟩
      · simp [choose, Choice.value?]
      · rw [hflags]
        simp [choose]
    · refine ⟨rfl, rfl, ?_, fun f => ?_⟩
      · simp [choose, Choice.value?]
      · rw [hflags]
        simp [choose]

/-- Behind any options, nothing is pending. -/
theorem Open.foldl_choose {d : Draft} (h : d.Open) (choices : List Choice) :
    (choices.foldl Draft.choose d).Open := by
  induction choices generalizing d with
  | nil => exact h
  | cons c choices ih => exact ih (h.choose c)

/-- Behind the options, the divider and a path that is not empty complete the
    request. -/
theorem Open.finish {d : Draft} (h : d.Open) (hnone : d.path = none) {path : Path}
    (hpath : path.spelling ≠ []) :
    ([Utf8.encode ['-', '-'], path.spelling].foldlM Draft.add d >>= Draft.finish) =
      .ok { root := path
            extensions := if d.extensions.isEmpty then Selection.defaultExtensions
              else d.extensions
            excludes := d.excludes
            flags := d.flags } := by
  have hdivider : d.add (Utf8.encode ['-', '-']) = .ok { d with literal := true } := by
    rw [h.add]
    rfl
  have hadd : Draft.add { d with literal := true } path.spelling =
      .ok { d with path := some path, pending := .path, literal := true } := by
    have hsettle : settle { d with literal := true } = .ok { d with literal := true } :=
      settle_of_nothing h.pending
    rw [Draft.add, if_pos rfl, addPath, if_neg (by rw [hnone]; decide), hsettle]
    rfl
  rw [List.foldlM_cons, hdivider]
  change ([path.spelling].foldlM Draft.add { d with literal := true } >>= Draft.finish) = _
  rw [List.foldlM_cons, hadd]
  change Draft.finish { d with path := some path, pending := .path, literal := true } = _
  rw [Draft.finish, settle]
  change (if some path = some ⟨[]⟩ then _ else _) >>= _ = _
  rw [if_neg fun heq => hpath (congrArg Path.spelling (Option.some.inj heq))]
  rfl

end Draft

/-! ### What was written is read -/

theorem Flags.has_default (f : Flag) : ({} : Flags).has f = false := by
  cases f <;> rfl

/-- What was written is read, in whichever way it was written. -/
theorem Writes.parse_eq {path : Path} (hpath : path.spelling ≠ []) {flags : Flags}
    {extensions excludes : List Text} {arguments : List Bytes}
    (h : Writes path flags extensions excludes arguments) :
    parse arguments = .ok
      { root := path
        extensions := if extensions.isEmpty then Selection.defaultExtensions else extensions
        excludes
        flags } := by
  obtain ⟨choices, spellings, hspelled, rfl, hcount, rfl, rfl⟩ := h
  have hopen : ({} : Draft).Open := ⟨rfl, rfl⟩
  have honce : ∀ f, choices.count (.flag f) + (({} : Flags).has f).toNat ≤ 1 := by
    intro f
    rw [hcount, Flags.has_default]
    split <;> decide
  obtain ⟨hnone, hextensions, hexcludes, hhas⟩ := Draft.foldl_choose choices {}
  -- The flags given are those that were to be written.
  have hflags : (choices.foldl Draft.choose {}).flags = flags := by
    refine Flags.eq_of_has fun f => Bool.eq_iff_iff.2 ?_
    rw [hhas, Flags.has_default, ← List.count_pos_iff, hcount]
    cases flags.has f <;> simp
  rw [parse, List.foldlM_append, Draft.foldlM_add_flatten hspelled hopen honce]
  refine ((hopen.foldl_choose choices).finish hnone hpath).trans ?_
  rw [hextensions, hexcludes, hflags, List.nil_append, List.nil_append]

/-- Every option can be written. -/
theorem Choice.exists_spelled (c : Choice) : ∃ ts, c.Spelled ts := by
  cases c with
  | flag f => exact ⟨_, .word f⟩
  | value s v =>
    by_cases hv : v = []
    · exact ⟨_, .apart s (by rw [hv]; decide)⟩
    · exact ⟨_, .joined s hv⟩

/-- Any options can be written one after the other. -/
theorem Choice.exists_spellings (choices : List Choice) :
    ∃ spellings, List.Forall₂ Choice.Spelled choices spellings := by
  induction choices with
  | nil => exact ⟨[], .nil⟩
  | cons c choices ih =>
    obtain ⟨ts, hts⟩ := c.exists_spelled
    obtain ⟨spellings, hspellings⟩ := ih
    exact ⟨ts :: spellings, .cons hts hspellings⟩

/-- Whatever is to be written can be written. -/
theorem exists_writes (path : Path) (flags : Flags) (extensions excludes : List Text) :
    ∃ arguments, Writes path flags extensions excludes arguments := by
  set given : List Flag :=
    [.showSnippets, .failOnDuplicates, .json, .noColor, .verbose].filter flags.has
  obtain ⟨spellings, hspellings⟩ := Choice.exists_spellings
    (given.map .flag ++ (extensions.map (.value .extension) ++ excludes.map (.value .exclude)))
  refine ⟨_, _, spellings, hspellings, rfl, fun f => ?_, ?_, ?_⟩
  · have hvalue : ∀ s (vs : List Text), (vs.map (Choice.value s)).count (.flag f) = 0 := by
      intro s vs
      simp [List.count_eq_zero]
    have hflag : Function.Injective Choice.flag := fun _ _ h => Choice.flag.inj h
    rw [List.count_append, List.count_append, hvalue, hvalue, List.count_map_of_injective _ _ hflag]
    split
    next hf =>
      rw [List.count_filter hf]
      cases f <;> rfl
    next hf =>
      rw [List.count_eq_zero.2 fun hmem => hf (List.mem_filter.1 hmem).2]
  · simp [List.filterMap_map, Function.comp_def, Choice.value?]
  · simp [List.filterMap_map, Function.comp_def, Choice.value?]

/-- Reading arguments undoes writing them, whatever the order of the options.

    Any path that is not empty, any flags and any values can be written as
    arguments; they are read as just this path, these flags and these values,
    with the standard extension if there is none; and so all the ways of writing
    them are read alike. -/
theorem parse_writes {path : Path} (hpath : path.spelling ≠ []) (flags : Flags)
    (extensions excludes : List Text) :
    (∃ arguments, Writes path flags extensions excludes arguments) ∧
    (∀ arguments, Writes path flags extensions excludes arguments →
      parse arguments = .ok
        { root := path
          extensions := if extensions = [] then ["py".toList] else extensions
          excludes
          flags }) ∧
    ∀ arguments arguments', Writes path flags extensions excludes arguments →
      Writes path flags extensions excludes arguments' → parse arguments = parse arguments' := by
  refine ⟨exists_writes path flags extensions excludes, fun arguments h => ?_,
    fun arguments arguments' h h' => ?_⟩
  · rw [h.parse_eq hpath]
    cases extensions <;> rfl
  · rw [h.parse_eq hpath, h'.parse_eq hpath]

/-- A value that looks like an option, an empty value and a path that looks like
    a flag, with a flag in between; and a path that is no text. -/
theorem parse_writes_sample : (Path.ofText ['-', 'v']).spelling ≠ [] ∧
    parse (["--exclude=--ext".toList, "-v".toList, "--ext".toList, [], "--".toList,
      "-v".toList].map Utf8.encode) =
        .ok ⟨.ofText "-v".toList, [[]], ["--ext".toList], { verbose := true }⟩ ∧
    parse [Utf8.encode "--".toList, [0x2F, 0xFF]] =
      .ok ⟨⟨[0x2F, 0xFF]⟩, ["py".toList], [], {}⟩ := by
  have hpath : (Path.ofText ['-', 'v']).spelling ≠ [] := by decide
  have hraw : (Path.mk [0x2F, 0xFF]).spelling ≠ [] := by decide
  refine ⟨hpath, (parse_writes hpath { verbose := true } [[]] ["--ext".toList]).2.1 _ ?_,
    (parse_writes hraw {} [] []).2.1 _ ?_⟩
  · refine ⟨[.value .exclude "--ext".toList, .flag .verbose, .value .extension []], _,
      .cons (.joined .exclude (by decide))
        (.cons .letter (.cons (.apart .extension (by decide)) .nil)),
      by decide, fun f => ?_, by decide, by decide⟩
    cases f <;> decide
  · refine ⟨[], [], .nil, by decide, fun f => ?_, rfl, rfl⟩
    cases f <;> decide

end CommandLine

end Homonym
