/-
  SymbolNav/Proofs/CommandLine/Anywhere.lean
  ==========================================
  **The shared options may stand anywhere.**

  Two lines with the same commands, arguments and options of their own, and with the
  same shared options at any places, mean the same, if each shared option is said at
  most once (`read_rearranged`).  A level of the one line takes other shared options
  than that level of the other; what they mean is told by all levels together
  (`Reads.invocation`), and each level takes whatever it gets (`Reads.rearranged`).

  The settings file that the environment names is looked at on every level that says
  none.  A name that cannot be used does not keep a line from being accepted if every
  level says another; as a line has two levels at least, this takes the option twice
  (`Reads.usable`).

  The last argument may stand behind two dashes, at the end of the line, and is then
  any text at all (`Reads.marked`).
-/
import SymbolNav.Proofs.CommandLine.Accepted
import SymbolNav.Proofs.CommandLine.Levels
import Mathlib.Data.List.Perm.Basic

namespace SymbolNav.CommandLine

/-! ### What all levels mean together -/

/-- The last value of an option among pieces. -/
def said (ps : List Piece) (o : Setting) : Option String :=
  ((settingsOf ps).reverse.find? (fun s => s.1 = o)).map (·.2)

section Meaning

variable {env : Option String} {l : Level} {ps qs : List Piece} {rs : List Reading}
  {o : Setting} {w : String}

theorem settingsOf_word : settingsOf (.word w :: ps) = settingsOf ps := rfl

theorem switchesOf_word : switchesOf (.word w :: ps) = switchesOf ps := rfl

theorem Reads.settings (reads : Reads env l ps rs) :
    rs.flatMap (·.settings) = settingsOf ps := by
  induction reads with
  | last fits finishes => simp [reading, progress]
  | deeper fits finishes named rest ih =>
    rw [List.flatMap_cons, ih, settingsOf_append, settingsOf_word]
    rfl

theorem Reads.verbose (reads : Reads env l ps rs) :
    rs.any (·.switches.contains .verbose) = (switchesOf ps).contains .verbose := by
  induction reads with
  | last fits finishes => simp [reading, progress]
  | deeper fits finishes named rest ih =>
    rw [List.any_cons, ih, switchesOf_append, switchesOf_word, List.contains_append]
    rfl

theorem Reads.ne_nil (reads : Reads env l ps rs) : rs ≠ [] := by
  cases reads <;> exact List.cons_ne_nil _ _

/-- The environment counts where no level says a settings file, and it is the same for all. -/
theorem Reads.environment (reads : Reads env l ps rs)
    (unsaid : (settingsOf ps).any (fun s => s.1 = .config) = false) :
    rs.findSome? (·.environment) = env := by
  have level : ∀ {l : Level} {ps : List Piece},
      (settingsOf ps).any (fun s => s.1 = .config) = false →
        (reading env l ps).environment = env := by
    intro l ps unsaid
    simp only [reading, unsaid, Bool.false_eq_true, if_false]
  induction reads with
  | last fits finishes =>
    rw [List.findSome?_cons, level unsaid]
    cases env <;> rfl
  | deeper fits finishes named rest ih =>
    rw [settingsOf_append, settingsOf_word, List.any_append, Bool.or_eq_false_iff] at unsaid
    rw [List.findSome?_cons, level unsaid.1, ih unsaid.2]
    cases env <;> rfl

theorem Reads.lastSetting? (reads : Reads env l ps rs) : lastSetting? rs o = said ps o := by
  unfold CommandLine.lastSetting? said
  rw [reads.settings]

/-- The invocation that a line makes: the command comes from its last level, everything else from
all pieces together. -/
theorem Reads.invocation (reads : Reads env l ps rs) :
    invocation? rs = (rs.getLast?.bind Reading.command?).map fun command =>
      { command
        config := ((said ps .config).or env).map Path.mk
        root := (said ps .root).map Path.mk
        format := ((said ps .format).bind Format.ofName?).getD .text
        verbose := (switchesOf ps).contains .verbose } := by
  have config : (CommandLine.lastSetting? rs .config).or (rs.findSome? (·.environment)) =
      (said ps .config).or env := by
    rw [reads.lastSetting?]
    cases isSaid : said ps .config with
    | some value => rfl
    | none =>
      refine reads.environment ?_
      rw [said, Option.map_eq_none_iff, List.find?_eq_none] at isSaid
      rw [List.any_eq_false]
      intro s member
      exact isSaid s (List.mem_reverse.mpr member)
  rw [invocation?, config, reads.lastSetting?, reads.lastSetting?, reads.verbose]
  cases rs.getLast? with
  | none => rfl
  | some r =>
    cases h : r.command? with
    | none => simp [h]
    | some c => simp [h]

end Meaning

/-! ### Shared options at other places -/

/-- Each shared option is said at most once. -/
structure Once (ps : List Piece) : Prop where
  settings : ((settingsOf ps).map Prod.fst).Nodup
  verbose : (switchesOf ps).count .verbose ≤ 1

section Shared

variable {env : Option String} {l : Level} {ps ps' qs : List Piece} {rs : List Reading}
  {o : Setting} {w : String}

theorem Once.left (once : Once (ps ++ qs)) : Once ps := by
  obtain ⟨settings, verbose⟩ := once
  rw [settingsOf_append, List.map_append] at settings
  rw [switchesOf_append, List.count_append] at verbose
  exact ⟨settings.of_append_left, by omega⟩

theorem Once.right (once : Once (ps ++ qs)) : Once qs := by
  obtain ⟨settings, verbose⟩ := once
  rw [settingsOf_append, List.map_append] at settings
  rw [switchesOf_append, List.count_append] at verbose
  exact ⟨settings.of_append_right, by omega⟩

theorem settingsOf_perm (same : (shared ps').Perm (shared ps)) :
    (settingsOf ps').Perm (settingsOf ps) := by
  rw [← settingsOf_shared ps, ← settingsOf_shared ps']
  exact same.filterMap _

theorem count_verbose (ps : List Piece) :
    (switchesOf ps).count .verbose = (switchesOf (shared ps)).count .verbose := by
  rw [switchesOf_shared, List.count_filter (by simp)]

theorem count_verbose_perm (same : (shared ps').Perm (shared ps)) :
    (switchesOf ps').count .verbose = (switchesOf ps).count .verbose := by
  rw [count_verbose ps, count_verbose ps']
  exact (same.filterMap _).count_eq _

theorem Once.perm (once : Once ps) (same : (shared ps').Perm (shared ps)) : Once ps' := by
  refine ⟨?_, ?_⟩
  · exact ((settingsOf_perm same).map Prod.fst).nodup_iff.mpr once.settings
  · rw [count_verbose_perm same]
    exact once.verbose

/-- Of options that are said once, the value is told by membership. -/
theorem said_eq_some {value : String} (once : ((settingsOf ps).map Prod.fst).Nodup) :
    said ps o = some value ↔ (o, value) ∈ settingsOf ps := by
  unfold said
  rw [Option.map_eq_some_iff]
  constructor
  · rintro ⟨s, found, rfl⟩
    have name : s.1 = o := by simpa using List.find?_some found
    rw [← name]
    exact List.mem_reverse.mp (List.mem_of_find?_eq_some found)
  · intro member
    have some : ((settingsOf ps).reverse.find? (fun s => s.1 = o)).isSome = true := by
      rw [List.find?_isSome]
      exact ⟨_, List.mem_reverse.mpr member, by simp⟩
    obtain ⟨s, found⟩ := Option.isSome_iff_exists.mp some
    have name : s.1 = o := by simpa using List.find?_some found
    have member' := List.mem_reverse.mp (List.mem_of_find?_eq_some found)
    rw [List.inj_on_of_nodup_map once member' member name] at found
    exact ⟨_, found, rfl⟩

theorem said_perm (once : Once ps) (same : (shared ps').Perm (shared ps)) :
    said ps' o = said ps o := by
  apply Option.ext
  intro value
  rw [said_eq_some once.settings, said_eq_some (once.perm same).settings,
    (settingsOf_perm same).mem_iff]

/-- The switches that are not shared are told by the pieces that are not. -/
theorem mem_switchesOf_own {s : Switch} (other : s ≠ .verbose) (same : own ps' = own ps) :
    s ∈ switchesOf ps' ↔ s ∈ switchesOf ps := by
  have told : ∀ ps, s ∈ switchesOf ps ↔ s ∈ switchesOf (own ps) := by
    intro ps
    rw [switchesOf_own, List.mem_filter]
    simp [other]
  rw [told ps, told ps', same]

theorem argumentsOf_same (same : own ps' = own ps) : argumentsOf ps' = argumentsOf ps := by
  rw [← argumentsOf_own ps, ← argumentsOf_own ps', same]

/-- A level takes any shared options beside its own, if each of them is said once. -/
theorem Fits.rearranged (fits : Fits l ps) (same : own ps' = own ps) (once : Once ps')
    (allowed : ∀ s ∈ settingsOf ps', s.1.allows s.2 = true) : Fits l ps' := by
  constructor
  · exact once.settings
  · exact allowed
  · rw [List.nodup_iff_count_le_one]
    intro s
    by_cases shared : s = .verbose
    · subst shared
      exact once.verbose
    · have told : ∀ ps, (switchesOf ps).count s = (switchesOf (own ps)).count s := by
        intro ps
        rw [switchesOf_own, List.count_filter (by simp [shared])]
      rw [told, same, ← told]
      exact List.nodup_iff_count_le_one.mp fits.switchedOnce s
  · intro s member
    by_cases shared : s = .verbose
    · subst shared
      rfl
    · exact fits.taken s ((mem_switchesOf_own shared same).mp member)
  · rw [argumentsOf_same same]
    exact fits.placed
  · rw [argumentsOf_same same]
    exact fits.kind

theorem Finishes.rearranged {wentBelow : Bool} (finishes : Finishes env l wentBelow ps)
    (same : own ps' = own ps) (usable : ∀ value ∈ env, Setting.allows .config value = true) :
    Finishes env l wentBelow ps' := by
  refine ⟨?_, finishes.wentBelow, ?_⟩
  · intro value given
    exact .inr (usable value given)
  · rw [argumentsOf_same same]
    exact finishes.placed

theorem command?_rearranged (same : own ps' = own ps) :
    (reading env l ps').command? = (reading env l ps).command? := by
  have contains : ∀ {s : Switch}, s ≠ .verbose →
      (switchesOf ps').contains s = (switchesOf ps).contains s := by
    intro s other
    rw [Bool.eq_iff_iff, List.contains_iff_mem, List.contains_iff_mem]
    exact mem_switchesOf_own other same
  simp only [Reading.command?, reading, progress, Reading.start, argumentsOf_same same]
  rw [contains (s := .tree) (by decide), contains (s := .incoming) (by decide),
    contains (s := .force) (by decide)]

/-- A name stands between the same pieces of its own, wherever the shared options are. -/
theorem split_own (same : own ps' = own (ps ++ .word w :: qs)) :
    ∃ before after, ps' = before ++ .word w :: after ∧ own before = own ps ∧
      own after = own qs := by
  rw [own_append] at same
  obtain ⟨before, rest, rfl, first, second⟩ := List.filter_eq_append_iff.mp same
  have named : own (.word w :: qs) = .word w :: own qs := rfl
  obtain ⟨between, after, rfl, skipped, -, last⟩ :=
    List.filter_eq_cons_iff.mp (second.trans named)
  refine ⟨before ++ between, after, by simp, ?_, last⟩
  have none : own between = [] := List.filter_eq_nil_iff.mpr skipped
  rw [own_append, none, List.append_nil]
  exact first

/-- The same line with the shared options at other places is read at the same levels, and its last
level gives the same command. -/
theorem Reads.rearranged (reads : Reads env l ps rs) (same : own ps' = own ps)
    (usable : ∀ value ∈ env, Setting.allows .config value = true) (once : Once ps')
    (allowed : ∀ s ∈ settingsOf ps', s.1.allows s.2 = true) :
    ∃ rs', Reads env l ps' rs' ∧
      rs'.getLast?.bind Reading.command? = rs.getLast?.bind Reading.command? := by
  induction reads generalizing ps' with
  | last fits finishes =>
    refine ⟨_, .last (fits.rearranged same once allowed) (finishes.rearranged same usable), ?_⟩
    exact command?_rearranged same
  | deeper fits finishes named rest ih =>
    obtain ⟨before, after, rfl, first, last⟩ := split_own same
    have once' : Once after := ⟨once.right.settings, once.right.verbose⟩
    rw [settingsOf_append, settingsOf_word, List.forall_mem_append] at allowed
    obtain ⟨rs', reads', command⟩ := ih last once' allowed.2
    have fits' := fits.rearranged first once.left allowed.1
    refine ⟨_, .deeper fits' (finishes.rearranged first usable) named reads', ?_⟩
    rw [List.getLast?_cons_of_ne_nil reads'.ne_nil, List.getLast?_cons_of_ne_nil rest.ne_nil]
    exact command

theorem Reads.allowed (reads : Reads env l ps rs) :
    ∀ s ∈ settingsOf ps, s.1.allows s.2 = true := by
  induction reads with
  | last fits finishes => exact fits.allowed
  | deeper fits finishes named rest ih =>
    rw [settingsOf_append, settingsOf_word, List.forall_mem_append]
    exact ⟨fits.allowed, ih⟩

/-- A level finishes with the pieces that come first. -/
theorem Reads.finishes (reads : Reads env l ps rs) :
    ∃ before after wentBelow, ps = before ++ after ∧ Finishes env l wentBelow before := by
  cases reads with
  | last fits finishes => exact ⟨ps, [], false, by simp, finishes⟩
  | deeper fits finishes named rest => exact ⟨_, _, true, rfl, finishes⟩

/-- The settings file that the environment names can be used: else both of the first two levels
would say another, and the option would be said twice. -/
theorem Reads.usable (reads : Reads env .top ps rs) (once : Once ps) :
    ∀ value ∈ env, Setting.allows .config value = true := by
  intro value given
  cases reads with
  | last fits finishes => cases finishes.wentBelow rfl
  | @deeper _ lower w before after rs fits finishes named rest =>
    obtain ⟨inside, behind, wentBelow, rfl, finishes'⟩ := rest.finishes
    by_contra unusable
    have twice := once.settings
    rw [settingsOf_append, settingsOf_word, settingsOf_append, List.map_append,
      List.map_append, List.nodup_append] at twice
    have isSaid : ∀ {ps : List Piece}, (settingsOf ps).any (fun s => s.1 = .config) = true →
        Setting.config ∈ (settingsOf ps).map Prod.fst := by
      intro ps any
      obtain ⟨s, member, name⟩ := List.any_eq_true.mp any
      exact List.mem_map.mpr ⟨s, member, of_decide_eq_true name⟩
    have first := isSaid ((finishes.environment value given).resolve_right unusable)
    have second := isSaid ((finishes'.environment value given).resolve_right unusable)
    exact twice.2.2 _ first _ (List.mem_append_left _ second) rfl

end Shared

/-! ### The last argument behind two dashes -/

section Marked

variable {env : Option String} {l : Level} {ps before after : List Piece} {rs : List Reading}
  {r : Reading} {front : List String} {p text : String}

theorem settingsOf_marked (p text : String) : settingsOf (before ++ (after ++ [.marked text])) =
    settingsOf (before ++ .word p :: after) := by
  rw [settingsOf_append, settingsOf_append, settingsOf_append, settingsOf_word]
  exact congrArg _ (List.append_nil _)

theorem switchesOf_marked (p text : String) : switchesOf (before ++ (after ++ [.marked text])) =
    switchesOf (before ++ .word p :: after) := by
  rw [switchesOf_append, switchesOf_append, switchesOf_append, switchesOf_word]
  exact congrArg _ (List.append_nil _)

theorem argumentsOf_marked (p text : String) (isFront : argumentsOf before = front)
    (none : argumentsOf after = []) :
    argumentsOf (before ++ (after ++ [.marked text])) = front ++ [text] ∧
      argumentsOf (before ++ .word p :: after) = front ++ [p] := by
  have word : argumentsOf (.word p :: after) = p :: argumentsOf after := rfl
  rw [argumentsOf_append, argumentsOf_append, argumentsOf_append, word, isFront, none]
  exact ⟨rfl, rfl⟩

theorem Fits.marked (fits : Fits l (before ++ .word p :: after))
    (isFront : argumentsOf before = front) (none : argumentsOf after = []) (place : l = .query → front ≠ []) :
    Fits l (before ++ (after ++ [.marked text])) := by
  obtain ⟨once, allowed, switchedOnce, taken, placed, kind⟩ := fits
  obtain ⟨arguments, arguments'⟩ := argumentsOf_marked p text isFront none
  rw [← settingsOf_marked p text] at once allowed
  rw [← switchesOf_marked p text] at switchedOnce taken
  rw [arguments'] at placed kind
  refine ⟨once, allowed, switchedOnce, taken, ?_, ?_⟩
  · rw [arguments, List.length_append]
    rw [List.length_append] at placed
    exact placed
  · intro query k first
    apply kind query k
    rw [arguments] at first
    cases front with
    | nil => exact absurd rfl (place query)
    | cons k' front => exact first

theorem Finishes.marked {wentBelow : Bool}
    (finishes : Finishes env l wentBelow (before ++ .word p :: after))
    (isFront : argumentsOf before = front) (none : argumentsOf after = []) :
    Finishes env l wentBelow (before ++ (after ++ [.marked text])) := by
  obtain ⟨environment, went, placed⟩ := finishes
  obtain ⟨arguments, arguments'⟩ := argumentsOf_marked p text isFront none
  rw [← settingsOf_marked p text] at environment
  rw [arguments', List.length_append] at placed
  refine ⟨environment, went, ?_⟩
  rw [arguments, List.length_append]
  exact placed

theorem reading_marked (isFront : argumentsOf before = front) (none : argumentsOf after = []) :
    reading env l (before ++ (after ++ [.marked text])) =
      { reading env l (before ++ .word p :: after) with
        arguments := front ++ [text]
        plain := true } := by
  have arguments := (argumentsOf_marked p text isFront none).1
  have plain : (before ++ (after ++ [Piece.marked text])).any Piece.isMarked = true := by
    simp [Piece.isMarked]
  simp only [reading, progress, arguments, plain, settingsOf_marked p,
    switchesOf_marked p]

/-- The last argument among pieces. -/
theorem argumentsOf_split (unmarked : ps.any Piece.isMarked = false)
    (given : argumentsOf ps = front ++ [p]) :
    ∃ before after, ps = before ++ .word p :: after ∧ argumentsOf before = front ∧
      argumentsOf after = [] := by
  obtain ⟨first, rest, rfl, isFront, isLast⟩ := List.filterMap_eq_append_iff.mp given
  obtain ⟨between, q, after, rfl, skipped, is, none⟩ := List.filterMap_eq_cons_iff.mp isLast
  have isWord : q = .word p := by
    cases q with
    | setting | switch => cases is
    | word w =>
      cases is
      rfl
    | marked w => simp [Piece.isMarked] at unmarked
  subst isWord
  refine ⟨first ++ between, after, by simp, ?_, none⟩
  have noArgument : argumentsOf between = [] := List.filterMap_eq_nil_iff.mpr skipped
  rw [argumentsOf_append, noArgument, List.append_nil]
  exact isFront

/-- A line is read alike when its last argument stands behind two dashes, at its end, and is any
text at all; only the kind of a question has to remain a kind. -/
theorem Reads.marked (reads : Reads env l ps rs) (unmarked : ps.any Piece.isMarked = false)
    (last : rs.getLast? = some r) (given : r.arguments = front ++ [p])
    (place : r.level = .query → front ≠ []) :
    ∃ before after, ps = before ++ .word p :: after ∧ ∀ text, ∃ rs',
      Reads env l (before ++ (after ++ [.marked text])) rs' ∧
        rs'.getLast? = some { r with arguments := front ++ [text], plain := true } := by
  induction reads with
  | @last l ps fits finishes =>
    obtain rfl : reading env l ps = r := by simpa using last
    obtain ⟨before, after, rfl, isFront, none⟩ := argumentsOf_split unmarked given
    refine ⟨before, after, rfl, fun text => ?_⟩
    refine ⟨_, .last (fits.marked isFront none place) (finishes.marked isFront none), ?_⟩
    rw [reading_marked isFront none]
    rfl
  | @deeper l lower w ps qs rs fits finishes named rest ih =>
    rw [List.getLast?_cons_of_ne_nil rest.ne_nil] at last
    rw [List.any_append, List.any_cons, Bool.or_eq_false_iff, Bool.or_eq_false_iff] at unmarked
    obtain ⟨before, after, rfl, marked⟩ := ih unmarked.2.2 last
    refine ⟨ps ++ .word w :: before, after, by simp, fun text => ?_⟩
    obtain ⟨rs', reads', last'⟩ := marked text
    refine ⟨reading env l ps :: rs', ?_, ?_⟩
    · rw [List.append_assoc, List.cons_append]
      exact .deeper fits finishes named reads'
    · rw [List.getLast?_cons_of_ne_nil reads'.ne_nil]
      exact last'

end Marked

/-! ### Lines -/

section Lines

variable {env : Option String} {words words' : List String} {ps ps' : List Piece}
  {i : Invocation}

theorem read_eq_ok (line : Line words ps) :
    read env words = .ok i ↔ ∃ rs, Reads env .top ps rs ∧ invocation? rs = some i := by
  have reads : ∀ rs, readWords env (.start .top) words = .ok rs ↔ Reads env .top ([] ++ ps) rs :=
    fun rs => line.readWords (Fits.nil .top) rfl
  unfold read
  simp only [bind_eq_ok, reads, List.nil_append]
  constructor
  · rintro ⟨rs, given, means⟩
    cases h : invocation? rs with
    | none =>
      rw [h] at means
      cases means
    | some i' =>
      rw [h] at means
      cases means
      exact ⟨rs, given, h⟩
  · rintro ⟨rs, given, means⟩
    refine ⟨rs, given, ?_⟩
    rw [means]

/-- A line means the same with its shared options, each said once, at other places and in other
spellings. -/
theorem read_rearranged (accepted : read env words = .ok i) (line : Line words ps)
    (once : Once ps) (line' : Line words' ps') (same : own ps' = own ps)
    (moved : (shared ps').Perm (shared ps)) : read env words' = .ok i := by
  obtain ⟨rs, reads, means⟩ := (read_eq_ok line).mp accepted
  have allowed : ∀ s ∈ settingsOf ps', s.1.allows s.2 = true := by
    intro s member
    exact reads.allowed s ((settingsOf_perm moved).mem_iff.mp member)
  obtain ⟨rs', reads', command⟩ :=
    reads.rearranged same (reads.usable once) (once.perm moved) allowed
  have verbose : (switchesOf ps').contains .verbose = (switchesOf ps).contains .verbose := by
    rw [Bool.eq_iff_iff, List.contains_iff_mem, List.contains_iff_mem, ← List.count_pos_iff,
      ← List.count_pos_iff, count_verbose_perm moved]
  refine (read_eq_ok line').mpr ⟨rs', reads', ?_⟩
  rw [← means, reads.invocation, reads'.invocation, command, verbose, said_perm once moved,
    said_perm once moved, said_perm once moved]

/-- Two dashes are what marks an argument. -/
theorem Line.unmarked (line : Line words ps) (noDashes : "--" ∉ words) :
    ps.any Piece.isMarked = false := by
  induction line with
  | nil => rfl
  | marked w => simp at noDashes
  | word free rest ih => exact ih (mt (List.mem_cons_of_mem _) noDashes)
  | options spelled rest ih =>
    rw [List.any_append, unmarked_of_argumentsOf spelled.argumentsOf]
    exact ih (mt (List.mem_append_right _) noDashes)

/-- The last argument of an accepted line can be any text, behind two dashes at the end. -/
theorem read_marked {rs : List Reading} {r : Reading} {front : List String} {p : String}
    {c : String → Command} (line : Line words ps) (noDashes : "--" ∉ words)
    (reads : Reads env .top ps rs) (means : invocation? rs = some i)
    (last : rs.getLast? = some r) (given : r.arguments = front ++ [p])
    (place : r.level = .query → front ≠ [])
    (command : ∀ text, Reading.command? { r with arguments := front ++ [text], plain := true } =
      some (c text)) :
    ∃ before after, words = before ++ p :: after ∧
      ∀ text, read env (before ++ (after ++ ["--", text])) = .ok { i with command := c text } := by
  have unmarked := line.unmarked noDashes
  obtain ⟨front', back', rfl, marked⟩ := reads.marked unmarked last given place
  obtain ⟨before, after, rfl, first, second⟩ := line.split
  refine ⟨before, after, rfl, fun text => ?_⟩
  rw [List.any_append, List.any_cons, Bool.or_eq_false_iff, Bool.or_eq_false_iff] at unmarked
  have line' := first.append unmarked.1 (second.append unmarked.2.2 (.marked text))
  obtain ⟨rs', reads', last'⟩ := marked text
  refine (read_eq_ok line').mpr ⟨rs', reads', ?_⟩
  rw [reads.invocation, last, Option.bind_some] at means
  have said : ∀ o, said (front' ++ (back' ++ [.marked text])) o =
      said (front' ++ .word p :: back') o := by
    intro o
    unfold CommandLine.said
    rw [settingsOf_marked]
  obtain ⟨command', isCommand, rfl⟩ := Option.map_eq_some_iff.mp means
  rw [reads'.invocation, last', Option.bind_some, command, Option.map_some,
    switchesOf_marked p, said, said, said]

theorem command?_eq_query {r : Reading} {kind : QueryKind} {pattern : String} {tree : Bool}
    (h : r.command? = some (.query kind pattern tree)) :
    r.level = .query ∧ ∃ name, r.arguments = [name] ++ [pattern] ∧
      ∀ text plain, Reading.command? { r with arguments := [name] ++ [text], plain := plain } =
        some (.query kind text tree) := by
  unfold Reading.command? at h
  split at h <;> try cases h
  rename_i name pattern' level arguments
  obtain ⟨kind', isKind, same⟩ := Option.map_eq_some_iff.mp h
  cases same
  refine ⟨level, name, arguments, fun text plain => ?_⟩
  simp [Reading.command?, level, isKind]

theorem command?_eq_calls {r : Reading} {function : String} {incoming : Bool}
    (h : r.command? = some (.calls function incoming)) :
    r.level = .calls ∧ r.arguments = [] ++ [function] ∧
      ∀ text plain, Reading.command? { r with arguments := [] ++ [text], plain := plain } =
        some (.calls text incoming) := by
  unfold Reading.command? at h
  split at h <;> try cases h
  · obtain ⟨kind', -, same⟩ := Option.map_eq_some_iff.mp h
    cases same
  · rename_i level arguments
    refine ⟨level, arguments, fun text plain => ?_⟩
    simp [Reading.command?, level]

/-- **The shared options may stand anywhere, and the last argument may be any text.**

An accepted line without two dashes spells some pieces.  If it says each shared option at most once,
then every line that spells the same pieces with the shared ones at other places, in whatever
spelling, means the same.  And what a question or the calls are about can be moved behind two dashes
at the end of the line, and replaced by any text. -/
theorem options_anywhere (accepted : read env words = .ok i) (noDashes : "--" ∉ words) :
    (∃ ps, Line words ps) ∧
    (∀ ps, Line words ps → Once ps → ∀ words' ps', Line words' ps' → own ps' = own ps →
      (shared ps').Perm (shared ps) → read env words' = .ok i) ∧
    (∀ kind pattern tree, i.command = .query kind pattern tree →
      ∃ before after, words = before ++ pattern :: after ∧ ∀ text,
        read env (before ++ (after ++ ["--", text])) =
          .ok { i with command := .query kind text tree }) ∧
    (∀ function incoming, i.command = .calls function incoming →
      ∃ before after, words = before ++ function :: after ∧ ∀ text,
        read env (before ++ (after ++ ["--", text])) =
          .ok { i with command := .calls text incoming }) := by
  obtain ⟨rs, given, -⟩ := bind_eq_ok.mp accepted
  obtain ⟨ps, line⟩ := exists_line given noDashes
  obtain ⟨rs, reads, means⟩ := (read_eq_ok line).mp accepted
  have command : ∃ r, rs.getLast? = some r ∧ r.command? = some i.command := by
    have means' := means
    rw [reads.invocation] at means'
    obtain ⟨c, bound, rfl⟩ := Option.map_eq_some_iff.mp means'
    exact Option.bind_eq_some_iff.mp bound
  obtain ⟨r, last, isCommand⟩ := command
  refine ⟨⟨ps, line⟩, ?_, ?_, ?_⟩
  · intro ps line once words' ps' line' same moved
    exact read_rearranged accepted line once line' same moved
  · intro kind pattern tree isQuery
    rw [isQuery] at isCommand
    obtain ⟨-, name, arguments, again⟩ := command?_eq_query isCommand
    apply read_marked line noDashes reads means last arguments
    · intro _
      exact List.cons_ne_nil _ _
    · intro text
      exact again text true
  · intro function incoming isCalls
    rw [isCalls] at isCommand
    obtain ⟨level, arguments, again⟩ := command?_eq_calls isCommand
    apply read_marked line noDashes reads means last arguments
    · intro query
      rw [level] at query
      cases query
    · intro text
      exact again text true

/-- A question with its options at other places and in other spellings, and with text behind two
dashes that would else be an option. -/
theorem options_anywhere_question :
    read (some "/c") ["query", "-vf", "json", "symbol", "--root", "/r", "foo", "--tree"] =
        .ok ⟨.query .symbol "foo" true, some ⟨"/c"⟩, some ⟨"/r"⟩, .json, true⟩ ∧
      read (some "/c") ["--root=/r", "query", "symbol", "-fjson", "foo", "--tree", "-v"] =
        .ok ⟨.query .symbol "foo" true, some ⟨"/c"⟩, some ⟨"/r"⟩, .json, true⟩ ∧
      ∃ before after, ["query", "-vf", "json", "symbol", "--root", "/r", "foo", "--tree"] =
          before ++ "foo" :: after ∧
        read (some "/c") (before ++ (after ++ ["--", "-foo"])) =
          .ok ⟨.query .symbol "-foo" true, some ⟨"/c"⟩, some ⟨"/r"⟩, .json, true⟩ := by
  have accepted :
      read (some "/c") ["query", "-vf", "json", "symbol", "--root", "/r", "foo", "--tree"] =
        .ok ⟨.query .symbol "foo" true, some ⟨"/c"⟩, some ⟨"/r"⟩, .json, true⟩ := rfl
  obtain ⟨-, moved, question, -⟩ := options_anywhere accepted (by decide)
  have free : ∀ w : String, w.toList.head? ≠ some '-' → IsFree w := fun w first => .inr first
  have line : Line ["query", "-vf", "json", "symbol", "--root", "/r", "foo", "--tree"]
      [.word "query", .switch .verbose, .setting .format "json", .word "symbol",
        .setting .root "/r", .word "foo", .switch .tree] := by
    apply Line.word (free "query" (by decide))
    apply Line.options (.lettersNext (.switch rfl (.lacking rfl)) (free "json" (by decide)))
    apply Line.word (free "symbol" (by decide))
    apply Line.options (.named .root (free "/r" (by decide)))
    apply Line.word (free "foo" (by decide))
    exact Line.options (.switch .tree) .nil
  have line' : Line ["--root=/r", "query", "symbol", "-fjson", "foo", "--tree", "-v"]
      [.setting .root "/r", .word "query", .word "symbol", .setting .format "json",
        .word "foo", .switch .tree, .switch .verbose] := by
    apply Line.options (.equals .root "/r")
    apply Line.word (free "query" (by decide))
    apply Line.word (free "symbol" (by decide))
    apply Line.options (.letters (.attached rfl (by decide) (by decide)))
    apply Line.word (free "foo" (by decide))
    apply Line.options (.switch .tree)
    exact Line.options (.letters (.switch rfl .nil)) .nil
  refine ⟨accepted, ?_, ?_⟩
  · apply moved _ line ⟨by decide, by decide⟩ _ _ line'
    · decide
    · decide
  · obtain ⟨before, after, split, any⟩ := question .symbol "foo" true rfl
    exact ⟨before, after, split, any "-foo"⟩

end Lines

end SymbolNav.CommandLine
