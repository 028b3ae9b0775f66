/-
  SymbolNav/Proofs/CommandLine/Levels.lean
  ========================================
  **What a line is read as is told by what its words spell.**

  `Reads` says what the pieces of a line give, level by level, and knows nothing of
  words, of values that are still awaited or of arguments that have not been looked
  at.  The reader does the same for every spelling of the pieces (`Line.readWords`):
  word after word it is in the state that the pieces so far tell (`progress`).

  Every line that is accepted and has no two dashes spells some pieces
  (`exists_line`).
-/
import SymbolNav.Proofs.CommandLine.Words
import Mathlib.Data.List.TakeWhile

namespace SymbolNav.CommandLine

/-! ### Readings in which everything has been looked at -/

/-- What a level has read when it has taken these pieces. -/
def progress (l : Level) (ps : List Piece) : Reading :=
  { Reading.start l with
    settings := settingsOf ps
    switches := switchesOf ps
    arguments := argumentsOf ps
    plain := ps.any Piece.isMarked }

/-- The same with an option behind it that lacks its value. -/
def Reading.lacking (r : Reading) : Option Setting → Reading
  | none => r
  | some o => { r with pending := some (.setting o none) }

section Pieces

variable {env : Option String} {l : Level} {ps qs : List Piece} {r : Reading}
  {rs : List Reading} {us ws : List String} {o : Setting} {value w : String}

theorem attach_progress (fits : Fits l ps) :
    (progress l ps).attach o value = .ok r ↔
      Fits l (ps ++ [.setting o value]) ∧ progress l (ps ++ [.setting o value]) = r := by
  have next : { progress l ps with settings := settingsOf ps ++ [(o, value)] } =
      progress l (ps ++ [.setting o value]) := by
    simp [progress, settingsOf, switchesOf, argumentsOf, Piece.setting?, Piece.switch?,
      Piece.argument?, Piece.isMarked]
  have opened : (progress l ps).attach o value = (progress l ps).accept o value := rfl
  rw [opened, Reading.accept_eq_ok, fits_setting fits, ← next]
  rfl

theorem expect_progress : (progress l ps).expect o = .ok ((progress l ps).lacking (some o)) := rfl

theorem switch_progress {s : Switch} (known : l.knows s = true) (fits : Fits l ps) :
    (progress l ps).switch s = .ok r ↔
      Fits l (ps ++ [.switch s]) ∧ progress l (ps ++ [.switch s]) = r := by
  have next : { progress l ps with switches := switchesOf ps ++ [s] } =
      progress l (ps ++ [.switch s]) := by
    simp [progress, settingsOf, switchesOf, argumentsOf, Piece.setting?, Piece.switch?,
      Piece.argument?, Piece.isMarked]
  have opened : (progress l ps).switch s =
      if s = .help then .error .help
      else if s = .version then .error (.version l.versionText)
      else if (switchesOf ps).contains s then .error .argumentConflict
      else .ok (progress l (ps ++ [.switch s])) := by
    rw [← next]
    cases s <;> rfl
  rw [opened, fits_switch fits, Level.takes, known]
  split_ifs with help version twice
  · simp [help]
  · simp [version]
  · simp_all
  · simp_all

/-- An argument is taken if there is a place for it and, for the first one of a question, if it
names a kind. -/
theorem argument_progress {p : Piece} (is : p.argument? = some w) (fits : Fits l ps) (b : Bool) :
    (∃ r', Reading.argument { progress l ps with plain := b } w = .ok r' ∧ r'.resolve = .ok r) ↔
      Fits l (ps ++ [p]) ∧ { progress l (ps ++ [p]) with plain := b } = r := by
  have next : { progress l ps with arguments := argumentsOf ps ++ [w], plain := b } =
      { progress l (ps ++ [p]) with plain := b } := by
    cases p with
    | setting | switch => cases is
    | word | marked =>
      cases is
      simp [progress, settingsOf, switchesOf, argumentsOf, Piece.setting?, Piece.switch?,
        Piece.argument?]
  have looked : Reading.resolve { progress l ps with pending := some (.argument w), plain := b } =
      Reading.acceptArgument { progress l ps with plain := b } w := rfl
  have same : Reading.resolve { progress l ps with plain := b } =
      .ok { progress l ps with plain := b } := rfl
  simp only [Reading.argument_eq_ok, same]
  rw [fits_argument is fits, ← next]
  constructor
  · rintro ⟨r', ⟨room, t, same, rfl⟩, given⟩
    cases same
    rw [looked, Reading.acceptArgument_eq_ok] at given
    exact ⟨⟨room, given.1⟩, given.2⟩
  · rintro ⟨⟨room, known⟩, rfl⟩
    refine ⟨_, ⟨room, _, rfl, rfl⟩, ?_⟩
    rw [looked, Reading.acceptArgument_eq_ok]
    exact ⟨known, rfl⟩

theorem letters_progress {cs : List Char} {lacks : Option Setting}
    (by_letter : Letters cs qs lacks) (fits : Fits l ps) :
    (progress l ps).letters cs = .ok r ↔
      Fits l (ps ++ qs) ∧ (progress l (ps ++ qs)).lacking lacks = r := by
  induction by_letter generalizing ps with
  | nil =>
    rw [List.append_nil]
    simp [Reading.letters, fits, Reading.lacking]
  | @switch c s cs qs lacks is rest ih =>
    simp only [Reading.letters, is, bind_eq_ok,
      switch_progress (l.knows_letter is) fits]
    rw [List.append_cons ps _ qs]
    constructor
    · rintro ⟨r', ⟨fits', rfl⟩, given⟩
      exact (ih fits').mp given
    · intro given
      have fits' := given.1.before
      exact ⟨_, ⟨fits', rfl⟩, (ih fits').mpr given⟩
  | @attached c o value is given plain =>
    have opened : (progress l ps).letters (c :: value) =
        (progress l ps).attach o (String.ofList value) := by
      simp only [Reading.letters, Switch.ofLetter?_setting is, is]
      split
      · exact absurd rfl given
      · exact absurd rfl plain
      · rfl
    rw [opened]
    exact attach_progress fits
  | @equals c o value is =>
    have opened : (progress l ps).letters (c :: '=' :: value) =
        (progress l ps).attach o (String.ofList value) := by
      simp only [Reading.letters, Switch.ofLetter?_setting is, is]
    rw [opened]
    exact attach_progress fits
  | @lacking c o is =>
    have opened : (progress l ps).letters [c] = (progress l ps).expect o := by
      simp only [Reading.letters, Switch.ofLetter?_setting is, is]
    rw [opened, expect_progress, List.append_nil]
    simp [fits]

/-! Options behind two dashes. -/

theorem Setting.no_equals (o : Setting) : ∀ c ∈ o.name.toList, decide (c ≠ '=') = true := by
  apply List.all_eq_true.mp
  cases o <;> rfl

theorem Switch.no_equals (s : Switch) : ∀ c ∈ s.name.toList, decide (c ≠ '=') = true := by
  apply List.all_eq_true.mp
  cases s <;> rfl

theorem named_equals (r : Reading) (o : Setting) (value : List Char) :
    r.named (o.name.toList ++ '=' :: value) = r.attach o (String.ofList value) := by
  have name : (o.name.toList ++ '=' :: value).takeWhile (· ≠ '=') = o.name.toList := by
    rw [List.takeWhile_append_of_pos o.no_equals]
    simp
  have rest : (o.name.toList ++ '=' :: value).dropWhile (· ≠ '=') = '=' :: value := by
    rw [List.dropWhile_append_of_pos o.no_equals]
    simp
  simp only [Reading.named, name, rest, Level.setting?_eq_some.mpr rfl]
  rfl

theorem named_alone (r : Reading) (o : Setting) : r.named o.name.toList = r.expect o := by
  have name : o.name.toList.takeWhile (· ≠ '=') = o.name.toList :=
    List.takeWhile_eq_self_iff.mpr o.no_equals
  have rest : o.name.toList.dropWhile (· ≠ '=') = [] :=
    List.dropWhile_eq_nil_iff.mpr o.no_equals
  simp only [Reading.named, name, rest, Level.setting?_eq_some.mpr rfl]
  rfl

theorem named_switch (r : Reading) (s : Switch) :
    r.named s.name.toList = if r.level.knows s then r.switch s else .error .unknownArgument := by
  have name : s.name.toList.takeWhile (· ≠ '=') = s.name.toList :=
    List.takeWhile_eq_self_iff.mpr s.no_equals
  have rest : s.name.toList.dropWhile (· ≠ '=') = [] :=
    List.dropWhile_eq_nil_iff.mpr s.no_equals
  simp only [Reading.named, name, rest, Level.setting?_switch]
  cases known : r.level.knows s with
  | true =>
    rw [Level.switch?_eq_some.mpr ⟨rfl, known⟩]
    rfl
  | false =>
    cases found : r.level.switch? s.name.toList with
    | none => rfl
    | some t =>
      obtain ⟨same, known'⟩ := Level.switch?_eq_some.mp found
      have : s = t := by
        revert same
        cases s <;> cases t <;> decide
      subst this
      rw [known] at known'
      cases known'

/-! The words of an option, one after the other. -/

theorem unmarked_of_argumentsOf (none : argumentsOf ps = []) : ps.any Piece.isMarked = false := by
  rw [List.any_eq_false]
  intro p member marked
  cases p with
  | setting | switch | word => cases marked
  | marked w =>
    have : w ∈ argumentsOf ps := List.mem_filterMap.mpr ⟨_, member, rfl⟩
    rw [none] at this
    cases this

/-- A step that comes to one reading, if to any, decides about the words behind it. -/
theorem bind_step {x : Except Rejection Reading} {given : Prop} {next : Reading}
    {k : Reading → Except Rejection (List Reading)}
    (step : ∀ r, x = .ok r ↔ given ∧ next = r) :
    x >>= k = .ok rs ↔ given ∧ k next = .ok rs := by
  simp only [bind_eq_ok, step]
  constructor
  · rintro ⟨r, ⟨h, rfl⟩, rest⟩
    exact ⟨h, rest⟩
  · rintro ⟨h, rest⟩
    exact ⟨next, ⟨h, rfl⟩, rest⟩

/-- The word behind an option that lacks its value. -/
theorem readWords_value (free : IsFree value) (fits : Fits l ps)
    (unmarked : ps.any Piece.isMarked = false) :
    readWords env ((progress l ps).lacking (some o)) (value :: ws) = .ok rs ↔
      Fits l (ps ++ [.setting o value]) ∧
        readWords env (progress l (ps ++ [.setting o value])) ws = .ok rs := by
  have lacks : ((progress l ps).lacking (some o)).awaits = true := rfl
  have keeps : ((progress l ps).lacking (some o)).Keeps value := by
    refine .inl ?_
    rw [lacks, Bool.or_true, Bool.true_or]
  have supplied : (((progress l ps).lacking (some o)).supply value).resolve =
      (progress l ps).attach o value := rfl
  rw [readWords_keeps keeps, Reading.word_free unmarked free, if_pos lacks]
  refine (looksFirst_readWords ws (((progress l ps).lacking (some o)).supply value) rfl rs).trans ?_
  rw [supplied, ← bind_eq_ok]
  exact bind_step fun r => attach_progress fits

theorem Letters.head {c : Char} {cs : List Char} {lacks : Option Setting}
    (by_letter : Letters (c :: cs) ps lacks) : c ≠ '-' := by
  rintro rfl
  cases by_letter with
  | switch is | attached is | equals is | lacking is => cases is

theorem readWords_options (spelled : Spells us qs) (fits : Fits l ps)
    (unmarked : ps.any Piece.isMarked = false) :
    readWords env (progress l ps) (us ++ ws) = .ok rs ↔
      Fits l (ps ++ qs) ∧ readWords env (progress l (ps ++ qs)) ws = .ok rs := by
  have spoken : (progress l ps).plain = false := unmarked
  cases spelled with
  | switch s =>
    have some : s.name ≠ "" := by
      cases s <;> decide
    have dash : ("--" ++ s.name).toList.head? = Option.some '-' := by simp
    rw [List.singleton_append, readWords_keeps (Reading.keeps_dash dash),
      Reading.word_named spoken some, named_switch]
    cases known : (progress l ps).level.knows s with
    | true => exact bind_step fun r => switch_progress known fits
    | false =>
      constructor
      · intro h
        cases h
      · rintro ⟨fits', -⟩
        have taken := fits'.taken s (by simp [switchesOf, Piece.switch?])
        have : l.knows s = false := known
        simp [Level.takes, this] at taken
  | equals o value =>
    have some : o.name ++ ("=" ++ value) ≠ "" := by
      cases o <;> simp [Setting.name]
    have dash : ("--" ++ (o.name ++ ("=" ++ value))).toList.head? = Option.some '-' := by simp
    have split : (o.name ++ ("=" ++ value)).toList = o.name.toList ++ '=' :: value.toList := by
      simp
    rw [List.singleton_append, readWords_keeps (Reading.keeps_dash dash),
      Reading.word_named spoken some, split, named_equals, String.ofList_toList]
    exact bind_step fun r => attach_progress fits
  | @named o value free =>
    have some : o.name ≠ "" := by
      cases o <;> decide
    have dash : ("--" ++ o.name).toList.head? = Option.some '-' := by simp
    rw [List.cons_append, readWords_keeps (Reading.keeps_dash dash),
      Reading.word_named spoken some, named_alone, expect_progress]
    exact readWords_value free fits unmarked
  | @letters c cs _ by_letter =>
    have dash : (String.ofList ('-' :: c :: cs)).toList.head? = Option.some '-' := by simp
    rw [List.singleton_append, readWords_keeps (Reading.keeps_dash dash),
      Reading.word_letters spoken by_letter.head]
    exact bind_step fun r => letters_progress by_letter fits
  | @lettersNext c cs qs o value by_letter free =>
    have dash : (String.ofList ('-' :: c :: cs)).toList.head? = Option.some '-' := by simp
    have unmarked' : (ps ++ qs).any Piece.isMarked = false := by
      rw [List.any_append, unmarked, unmarked_of_argumentsOf by_letter.argumentsOf]
      rfl
    rw [List.cons_append, readWords_keeps (Reading.keeps_dash dash),
      Reading.word_letters spoken by_letter.head, ← List.append_assoc]
    refine (bind_step fun r => letters_progress by_letter fits).trans ?_
    constructor
    · rintro ⟨fits', rest⟩
      exact (readWords_value free fits' unmarked').mp rest
    · rintro ⟨fits', rest⟩
      exact ⟨fits'.before, (readWords_value free fits'.before unmarked').mpr ⟨fits', rest⟩⟩

/-- An argument, behind two dashes or not. -/
theorem readWords_argument {p : Piece} {b : Bool} (is : p.argument? = some w) (fits : Fits l ps)
    (keeps : Reading.Keeps { progress l ps with plain := b } w) (free : b = true ∨ IsFree w) :
    readWords env { progress l ps with plain := b } (w :: ws) = .ok rs ↔
      Fits l (ps ++ [p]) ∧
        readWords env { progress l (ps ++ [p]) with plain := b } ws = .ok rs := by
  have word : Reading.word { progress l ps with plain := b } w =
      Reading.argument { progress l ps with plain := b } w := by
    rcases free with rfl | free
    · exact Reading.word_plain rfl
    · cases b with
      | true => exact Reading.word_plain rfl
      | false => exact Reading.word_free rfl free
  rw [readWords_keeps keeps, word, bind_eq_ok]
  constructor
  · rintro ⟨r', taken, rest⟩
    have given : r'.awaits = false := by
      obtain ⟨-, t, -, rfl⟩ := Reading.argument_eq_ok.mp taken
      rfl
    obtain ⟨t, looked, rest⟩ := (looksFirst_readWords ws r' given rs).mp rest
    obtain ⟨fits', rfl⟩ := (argument_progress is fits b).mp ⟨r', taken, looked⟩
    exact ⟨fits', rest⟩
  · rintro ⟨fits', rest⟩
    obtain ⟨r', taken, looked⟩ := (argument_progress is fits b).mpr ⟨fits', rfl⟩
    have given : r'.awaits = false := (Reading.resolved looked).given
    exact ⟨r', taken, (looksFirst_readWords ws r' given rs).mpr ⟨_, looked, rest⟩⟩

theorem progress_plain {b : Bool} (marked : ps.any Piece.isMarked = b) :
    { progress l ps with plain := b } = progress l ps := by
  rw [← marked]
  rfl

theorem readWords_word (free : IsFree w) (fits : Fits l ps)
    (unmarked : ps.any Piece.isMarked = false) (keeps : (progress l ps).Keeps w) :
    readWords env (progress l ps) (w :: ws) = .ok rs ↔
      Fits l (ps ++ [.word w]) ∧ readWords env (progress l (ps ++ [.word w])) ws = .ok rs := by
  have unmarked' : (ps ++ [Piece.word w]).any Piece.isMarked = false := by
    rw [List.any_append, unmarked]
    rfl
  rw [← progress_plain unmarked] at keeps ⊢
  rw [← progress_plain unmarked']
  exact readWords_argument rfl fits keeps (.inr free)

theorem readWords_marked (fits : Fits l ps) (unmarked : ps.any Piece.isMarked = false) :
    readWords env (progress l ps) ("--" :: w :: ws) = .ok rs ↔
      Fits l (ps ++ [.marked w]) ∧ readWords env (progress l (ps ++ [.marked w])) ws = .ok rs := by
  have marked : (ps ++ [Piece.marked w]).any Piece.isMarked = true := by simp [Piece.isMarked]
  rw [readWords_dashes unmarked, ← progress_plain marked]
  exact readWords_argument rfl fits (.inl rfl) (.inl rfl)

end Pieces

/-! ### Level by level -/

/-- A level that has been read and finished. -/
def reading (env : Option String) (l : Level) (ps : List Piece) : Reading :=
  { progress l ps with
    environment := if (settingsOf ps).any (fun s => s.1 = .config) then none else env }

/-- Everything that has to be said at a level has been said. -/
structure Finishes (env : Option String) (l : Level) (wentBelow : Bool) (ps : List Piece) :
    Prop where
  environment : ∀ value ∈ env, (settingsOf ps).any (fun s => s.1 = .config) = true ∨
    Setting.allows .config value = true
  wentBelow : l.hasBelow = true → wentBelow = true
  placed : l.arity ≤ (argumentsOf ps).length

/-- What the pieces of a line give, level by level. -/
inductive Reads (env : Option String) : Level → List Piece → List Reading → Prop
  | last {l : Level} {ps : List Piece} (fits : Fits l ps) (finishes : Finishes env l false ps) :
      Reads env l ps [reading env l ps]
  | deeper {l lower : Level} {w : String} {ps qs : List Piece} {rs : List Reading}
      (fits : Fits l ps) (finishes : Finishes env l true ps) (named : l.below? w = some lower)
      (rest : Reads env lower qs rs) :
      Reads env l (ps ++ .word w :: qs) (reading env l ps :: rs)

section Levels

variable {env : Option String} {l lower : Level} {ps qs : List Piece} {r : Reading}
  {rs : List Reading} {ws : List String} {w : String}

theorem fillIn_progress : (progress l ps).fillIn env = .ok r ↔
    (∀ value ∈ env, (settingsOf ps).any (fun s => s.1 = .config) = true ∨
      Setting.allows .config value = true) ∧ reading env l ps = r := by
  cases env with
  | none => simp [Reading.fillIn, reading, progress, Reading.start]
  | some value =>
    have opened : (progress l ps).fillIn (some value) =
        if (settingsOf ps).any (fun s => s.1 = .config) then .ok (progress l ps)
        else if Setting.allows .config value then
          .ok { progress l ps with environment := some value }
        else .error .invalidValue := rfl
    rw [opened, reading]
    split_ifs with given allowed
    · simp [given, progress, Reading.start]
    · simp [allowed]
    · simp [given, allowed]

theorem check_reading {wentBelow : Bool} : (reading env l ps).check wentBelow = .ok r ↔
    ((l.hasBelow = true → wentBelow = true) ∧ l.arity ≤ (argumentsOf ps).length) ∧
      reading env l ps = r := by
  have level : (reading env l ps).level = l := rfl
  have arguments : (reading env l ps).arguments = argumentsOf ps := rfl
  rw [Reading.check, level, arguments]
  by_cases placed : l.arity ≤ (argumentsOf ps).length
  · rw [if_neg (Nat.not_lt.mpr placed)]
    cases l.hasBelow <;> cases wentBelow <;> simp [placed]
  · rw [if_pos (Nat.not_le.mp placed)]
    cases l.hasBelow <;> cases wentBelow <;> simp [placed]

theorem finish_progress {wentBelow : Bool} :
    (progress l ps).finish env wentBelow = .ok r ↔
      Finishes env l wentBelow ps ∧ reading env l ps = r := by
  have opened : (progress l ps).finish env wentBelow =
      (progress l ps).fillIn env >>= Reading.check wentBelow := rfl
  rw [opened, bind_eq_ok]
  constructor
  · rintro ⟨t, isFilled, isChecked⟩
    obtain ⟨environment, rfl⟩ := fillIn_progress.mp isFilled
    obtain ⟨⟨went, placed⟩, same⟩ := check_reading.mp isChecked
    exact ⟨⟨environment, went, placed⟩, same⟩
  · rintro ⟨⟨environment, went, placed⟩, same⟩
    have isFilled : (progress l ps).fillIn env = .ok (reading env l ps) :=
      fillIn_progress.mpr ⟨environment, rfl⟩
    exact ⟨_, isFilled, check_reading.mpr ⟨⟨went, placed⟩, same⟩⟩

/-- No words are left. -/
theorem readWords_end : readWords env (progress l ps) [] = .ok rs ↔
    Finishes env l false ps ∧ [reading env l ps] = rs := by
  rw [readWords]
  refine (bind_step fun r => finish_progress).trans (and_congr_right fun _ => ?_)
  exact ⟨Except.ok.inj, congrArg _⟩

/-- A free word at a level with levels below has to name one of them. -/
theorem readWords_above (above : l.hasBelow = true) (free : IsFree w) (fits : Fits l ps)
    (unmarked : ps.any Piece.isMarked = false) :
    readWords env (progress l ps) (w :: ws) = .ok rs ↔ Finishes env l true ps ∧
      ∃ lower inner, l.below? w = some lower ∧ readWords env (.start lower) ws = .ok inner ∧
        reading env l ps :: inner = rs := by
  cases named : l.below? w with
  | some lower =>
    rw [readWords_below (r := progress l ps) unmarked rfl named]
    simp only [bind_eq_ok, finish_progress]
    constructor
    · rintro ⟨inner, inside, r, ⟨finishes, rfl⟩, same⟩
      exact ⟨finishes, lower, inner, rfl, inside, Except.ok.inj same⟩
    · rintro ⟨finishes, lower', inner, same, inside, rfl⟩
      cases same
      exact ⟨inner, inside, _, ⟨finishes, rfl⟩, rfl⟩
  | none =>
    constructor
    · intro given
      by_cases help : w = "help"
      · subst help
        rw [readWords_help (r := progress l ps) unmarked rfl above] at given
        cases given
      · have fits' := ((readWords_word free fits unmarked (.inr ⟨named, help⟩)).mp given).1
        have none' := fits'.argumentsOf_eq_nil above
        simp [argumentsOf, Piece.argument?] at none'
    · rintro ⟨-, lower, inner, same, -⟩
      cases same

/-- The arguments of a line tell where a level ends. -/
theorem split_unique {ps' qs' : List Piece} {w' : String} (none : argumentsOf ps = [])
    (none' : argumentsOf ps' = []) (same : ps ++ .word w :: qs = ps' ++ .word w' :: qs') :
    ps = ps' ∧ w = w' ∧ qs = qs' := by
  induction ps generalizing ps' with
  | nil =>
    cases ps' with
    | nil =>
      cases same
      exact ⟨rfl, rfl, rfl⟩
    | cons p ps' =>
      cases same
      cases none'
  | cons p ps ih =>
    cases ps' with
    | nil =>
      cases same
      cases none
    | cons p' ps' =>
      obtain ⟨rfl, behind⟩ := List.cons.inj same
      have drop : ∀ {xs : List Piece}, argumentsOf (p :: xs) = [] → argumentsOf xs = [] := by
        intro xs none
        exact (List.append_eq_nil_iff.mp ((argumentsOf_append [p] xs) ▸ none)).2
      obtain ⟨rfl, rfl, rfl⟩ := ih (drop none) (drop none') behind
      exact ⟨rfl, rfl, rfl⟩

/-- What is read where no level below is named. -/
theorem reads_end (ends : l.hasBelow = true → ∀ w, .word w ∉ ps) :
    Reads env l ps rs ↔ Fits l ps ∧ Finishes env l false ps ∧ [reading env l ps] = rs := by
  constructor
  · intro reads
    cases reads with
    | last fits finishes => exact ⟨fits, finishes, rfl⟩
    | @deeper _ lower w ps qs rs fits finishes named rest =>
      exact absurd (by simp) (ends (Level.below?_given named).1 w)
  · rintro ⟨fits, finishes, rfl⟩
    exact .last fits finishes

/-- What is read at a level with levels below, one of which has to be named. -/
theorem reads_above (above : l.hasBelow = true) (none : argumentsOf ps = []) :
    Reads env l (ps ++ .word w :: qs) rs ↔ Fits l ps ∧ Finishes env l true ps ∧
      ∃ lower inner, l.below? w = some lower ∧ Reads env lower qs inner ∧
        reading env l ps :: inner = rs := by
  constructor
  · intro reads
    generalize all : ps ++ .word w :: qs = whole at reads
    cases reads with
    | last fits finishes => cases finishes.wentBelow above
    | deeper fits finishes named rest =>
      obtain ⟨rfl, rfl, rfl⟩ := split_unique none (fits.argumentsOf_eq_nil above) all
      exact ⟨fits, finishes, _, _, named, rest, rfl⟩
  · rintro ⟨fits, finishes, lower, inner, named, rest, rfl⟩
    exact .deeper fits finishes named rest

/-- Pieces that end before the next level is named fit. -/
theorem Reads.before (reads : Reads env l (ps ++ qs) rs)
    (ends : l.hasBelow = true → argumentsOf ps = []) : Fits l ps := by
  generalize all : ps ++ qs = whole at reads
  cases reads with
  | last fits finishes =>
    subst all
    exact fits.before
  | @deeper _ lower w ps' qs' rs fits finishes named rest =>
    have none := ends (Level.below?_given named).1
    rcases List.append_eq_append_iff.mp all with ⟨mid, rfl, -⟩ | ⟨mid, rfl, behind⟩
    · exact fits.before
    · cases mid with
      | nil =>
        rw [List.append_nil]
        exact fits
      | cons p mid =>
        obtain ⟨rfl, -⟩ := List.cons.inj behind
        simp [argumentsOf, Piece.argument?] at none

theorem no_word (none : argumentsOf ps = []) : .word w ∉ ps := by
  intro member
  have : w ∈ argumentsOf ps := List.mem_filterMap.mpr ⟨_, member, rfl⟩
  rw [none] at this
  cases this

/-- Pieces that end before the next level is named have to fit, and the rest is read behind them. -/
theorem reads_onward (ends : l.hasBelow = true → argumentsOf ps = [])
    (behind : Fits l ps →
      (readWords env (progress l ps) ws = .ok rs ↔ Reads env l (ps ++ qs) rs)) :
    Fits l ps ∧ readWords env (progress l ps) ws = .ok rs ↔ Reads env l (ps ++ qs) rs := by
  constructor
  · rintro ⟨fits, given⟩
    exact (behind fits).mp given
  · intro reads
    have fits := reads.before ends
    exact ⟨fits, (behind fits).mpr reads⟩

/-- However the pieces of a line are spelled, the reader reads them. -/
theorem Line.readWords (line : Line ws qs) (fits : Fits l ps)
    (unmarked : ps.any Piece.isMarked = false) :
    readWords env (progress l ps) ws = .ok rs ↔ Reads env l (ps ++ qs) rs := by
  induction line generalizing l ps rs with
  | nil =>
    rw [List.append_nil, readWords_end, reads_end]
    · simp [fits]
    · intro above w
      exact no_word (fits.argumentsOf_eq_nil above)
  | marked w =>
    rw [readWords_marked fits unmarked, readWords_end, reads_end]
    intro above w'
    rw [List.mem_append, not_or]
    refine ⟨no_word (fits.argumentsOf_eq_nil above), ?_⟩
    simp
  | @word w ws qs free rest ih =>
    cases above : l.hasBelow with
    | false =>
      have keeps : (progress l ps).Keeps w := by
        have bottom : (progress l ps).level.hasBelow = false := above
        refine .inl ?_
        rw [bottom, Bool.not_false, Bool.or_true]
      rw [readWords_word free fits unmarked keeps, List.append_cons ps _ qs]
      apply reads_onward
      · intro above'
        rw [above] at above'
        cases above'
      · intro fits'
        apply ih fits'
        rw [List.any_append, unmarked]
        rfl
    | true =>
      have inside : ∀ lower inner, CommandLine.readWords env (.start lower) ws = .ok inner ↔
          Reads env lower ([] ++ qs) inner := by
        intro lower inner
        exact ih (Fits.nil lower) rfl
      rw [reads_above above (fits.argumentsOf_eq_nil above),
        readWords_above above free fits unmarked]
      simp only [inside, List.nil_append, fits, true_and]
  | @options us ws qs qs' spelled rest ih =>
    rw [← List.append_assoc, readWords_options spelled fits unmarked]
    apply reads_onward
    · intro above
      rw [argumentsOf_append, fits.argumentsOf_eq_nil above, spelled.argumentsOf]
      rfl
    · intro fits'
      apply ih fits'
      rw [List.any_append, unmarked, unmarked_of_argumentsOf spelled.argumentsOf]
      rfl

end Levels

end SymbolNav.CommandLine
