/-
  SymbolNav/Proofs/CommandLine/Pieces.lean
  ========================================
  **What a command line is made of.**

  The words of a line spell pieces: an option with its value, an option without
  one, an argument or the name of a command.  An option has many spellings: by its
  name with the value after `=` or in the next word, by its letter with the value
  attached, after `=` or in the next word, and behind the same dash as other
  letters.  `Letters`, `Spells` and `Line` say what spells what, and nothing of how
  it is read.

  A level takes pieces under conditions that do not depend on the places of its
  options among them (`Fits`).
-/
import SymbolNav.CommandLine.Reader
import Mathlib.Data.List.Nodup

namespace SymbolNav.CommandLine

/-- What a word spells, or two words together, or a letter. -/
inductive Piece
  | setting (o : Setting) (value : String)
  | switch (s : Switch)
  /-- An argument, or the name of a level. -/
  | word (w : String)
  /-- An argument behind two dashes. -/
  | marked (w : String)
deriving DecidableEq, Repr

/-! ### Names -/

def Setting.name : Setting → String
  | .config => "config"
  | .root => "root"
  | .format => "format"

def Switch.name : Switch → String
  | .verbose => "verbose"
  | .tree => "tree"
  | .incoming => "incoming"
  | .force => "force"
  | .help => "help"
  | .version => "version"

/-- The only level that knows a switch, unless all of them do. -/
def Switch.level? : Switch → Option Level
  | .tree => some .query
  | .incoming => some .calls
  | .force => some .configInit
  | .verbose | .help | .version => none

/-- Whether a level knows a switch. -/
def Level.knows (l : Level) (s : Switch) : Bool := s.level?.all (fun known => known = l)

/-- Whether a level goes on reading after a switch that it knows. -/
def Level.takes (l : Level) (s : Switch) : Bool :=
  l.knows s && s ≠ .help && s ≠ .version

theorem Level.setting?_eq_some {name : List Char} {o : Setting} :
    Level.setting? name = some o ↔ name = o.name.toList := by
  unfold Level.setting?
  constructor
  · intro h
    split_ifs at h with config root format <;> cases h <;> assumption
  · intro h
    subst h
    cases o <;> decide

theorem Level.setting?_switch (s : Switch) : Level.setting? s.name.toList = none := by
  cases s <;> decide

theorem Level.switch?_eq_some {l : Level} {name : List Char} {s : Switch} :
    l.switch? name = some s ↔ name = s.name.toList ∧ l.knows s = true := by
  unfold Level.switch?
  constructor
  · intro h
    split_ifs at h with verbose help version tree incoming force <;> cases h
    · exact ⟨verbose, rfl⟩
    · exact ⟨help, rfl⟩
    · exact ⟨version, rfl⟩
    · exact ⟨tree.1, by simp [Level.knows, Switch.level?, tree.2]⟩
    · exact ⟨incoming.1, by simp [Level.knows, Switch.level?, incoming.2]⟩
    · exact ⟨force.1, by simp [Level.knows, Switch.level?, force.2]⟩
  · rintro ⟨rfl, known⟩
    cases s <;> cases l <;> first | rfl | cases known

theorem Setting.ofLetter?_eq_some {c : Char} {o : Setting} :
    Setting.ofLetter? c = some o ↔ c = 'f' ∧ o = .format := by
  unfold Setting.ofLetter?
  split_ifs with h <;> simp [h, eq_comm]

/-- An option that takes a value and one that takes none have no letter in common. -/
theorem Switch.ofLetter?_setting {c : Char} {o : Setting} (is : Setting.ofLetter? c = some o) :
    Switch.ofLetter? c = none := by
  obtain ⟨rfl, -⟩ := Setting.ofLetter?_eq_some.mp is
  rfl

/-- What goes by a letter is known everywhere. -/
theorem Level.knows_letter (l : Level) {c : Char} {s : Switch} (is : Switch.ofLetter? c = some s) :
    l.knows s = true := by
  unfold Switch.ofLetter? at is
  split_ifs at is <;> cases is <;> rfl

/-! ### Spellings -/

/-- Words that are no options: they begin with no dash, or they are one. -/
def IsFree (w : String) : Prop := w = "-" ∨ w.toList.head? ≠ some '-'

/-- Letters behind one dash.  Last comes the option that lacks its value, if one does. -/
inductive Letters : List Char → List Piece → Option Setting → Prop
  | nil : Letters [] [] none
  | switch {c : Char} {s : Switch} {cs : List Char} {ps : List Piece} {lacks : Option Setting}
      (is : Switch.ofLetter? c = some s) (rest : Letters cs ps lacks) :
      Letters (c :: cs) (.switch s :: ps) lacks
  | attached {c : Char} {o : Setting} {value : List Char} (is : Setting.ofLetter? c = some o)
      (given : value ≠ []) (plain : value.head? ≠ some '=') :
      Letters (c :: value) [.setting o (String.ofList value)] none
  | equals {c : Char} {o : Setting} {value : List Char} (is : Setting.ofLetter? c = some o) :
      Letters (c :: '=' :: value) [.setting o (String.ofList value)] none
  | lacking {c : Char} {o : Setting} (is : Setting.ofLetter? c = some o) :
      Letters [c] [] (some o)

/-- Options, each in one of its spellings. -/
inductive Spells : List String → List Piece → Prop
  | switch (s : Switch) : Spells ["--" ++ s.name] [.switch s]
  | equals (o : Setting) (value : String) :
      Spells ["--" ++ (o.name ++ ("=" ++ value))] [.setting o value]
  | named (o : Setting) {value : String} (free : IsFree value) :
      Spells ["--" ++ o.name, value] [.setting o value]
  | letters {c : Char} {cs : List Char} {ps : List Piece} (by_letter : Letters (c :: cs) ps none) :
      Spells [String.ofList ('-' :: c :: cs)] ps
  | lettersNext {c : Char} {cs : List Char} {ps : List Piece} {o : Setting} {value : String}
      (by_letter : Letters (c :: cs) ps (some o)) (free : IsFree value) :
      Spells [String.ofList ('-' :: c :: cs), value] (ps ++ [.setting o value])

/-- The words of a line and what they spell.  Two dashes stand before the last word only. -/
inductive Line : List String → List Piece → Prop
  | nil : Line [] []
  | marked (w : String) : Line ["--", w] [.marked w]
  | word {w : String} {ws : List String} {ps : List Piece} (free : IsFree w) (rest : Line ws ps) :
      Line (w :: ws) (.word w :: ps)
  | options {us ws : List String} {qs ps : List Piece} (spelled : Spells us qs)
      (rest : Line ws ps) : Line (us ++ ws) (qs ++ ps)

/-! ### What the pieces hold -/

namespace Piece

def setting? : Piece → Option (Setting × String)
  | .setting o value => some (o, value)
  | .switch _ | .word _ | .marked _ => none

def switch? : Piece → Option Switch
  | .switch s => some s
  | .setting _ _ | .word _ | .marked _ => none

/-- The argument that a piece is, unless it is the name of a level. -/
def argument? : Piece → Option String
  | .word w | .marked w => some w
  | .setting _ _ | .switch _ => none

def isMarked : Piece → Bool
  | .marked _ => true
  | .setting _ _ | .switch _ | .word _ => false

/-- Whether a piece is one of the options that all levels share. -/
def isShared : Piece → Bool
  | .setting _ _ | .switch .verbose => true
  | .switch _ | .word _ | .marked _ => false

end Piece

def settingsOf (ps : List Piece) : List (Setting × String) := ps.filterMap Piece.setting?

def switchesOf (ps : List Piece) : List Switch := ps.filterMap Piece.switch?

def argumentsOf (ps : List Piece) : List String := ps.filterMap Piece.argument?

/-- The shared options of a line. -/
def shared (ps : List Piece) : List Piece := ps.filter Piece.isShared

/-- The rest of a line: the names of levels, their arguments and their own options. -/
def own (ps : List Piece) : List Piece := ps.filter (fun p => !p.isShared)

section Append

variable (ps qs : List Piece)

@[simp] theorem settingsOf_append : settingsOf (ps ++ qs) = settingsOf ps ++ settingsOf qs :=
  List.filterMap_append

@[simp] theorem switchesOf_append : switchesOf (ps ++ qs) = switchesOf ps ++ switchesOf qs :=
  List.filterMap_append

@[simp] theorem argumentsOf_append : argumentsOf (ps ++ qs) = argumentsOf ps ++ argumentsOf qs :=
  List.filterMap_append

@[simp] theorem own_append : own (ps ++ qs) = own ps ++ own qs := List.filter_append ..

end Append

/-- The arguments are told by the pieces that are not shared. -/
theorem argumentsOf_own (ps : List Piece) : argumentsOf (own ps) = argumentsOf ps := by
  induction ps with
  | nil => rfl
  | cons p ps ih =>
    cases p with
    | setting o value => exact ih
    | switch s => cases s <;> exact ih
    | word w | marked w => exact congrArg (w :: ·) ih

/-- The settings are told by the pieces that are shared. -/
theorem settingsOf_shared (ps : List Piece) : settingsOf (shared ps) = settingsOf ps := by
  induction ps with
  | nil => rfl
  | cons p ps ih =>
    cases p with
    | setting o value => exact congrArg ((o, value) :: ·) ih
    | switch s => cases s <;> exact ih
    | word w | marked w => exact ih

/-- So are the switches, apart from the shared one. -/
theorem switchesOf_own (ps : List Piece) :
    switchesOf (own ps) = (switchesOf ps).filter (fun s => s ≠ .verbose) := by
  induction ps with
  | nil => rfl
  | cons p ps ih =>
    cases p with
    | setting o value | word w | marked w => exact ih
    | switch s =>
      cases s with
      | verbose => exact ih
      | tree | incoming | force | help | version => exact congrArg (_ :: ·) ih

theorem switchesOf_shared (ps : List Piece) :
    switchesOf (shared ps) = (switchesOf ps).filter (fun s => s = .verbose) := by
  induction ps with
  | nil => rfl
  | cons p ps ih =>
    cases p with
    | setting o value | word w | marked w => exact ih
    | switch s =>
      cases s with
      | verbose => exact congrArg (_ :: ·) ih
      | tree | incoming | force | help | version => exact ih

/-! ### What a level takes -/

/-- The pieces that are read at one level, with nothing wrong about any of them. -/
structure Fits (l : Level) (ps : List Piece) : Prop where
  once : ((settingsOf ps).map Prod.fst).Nodup
  allowed : ∀ s ∈ settingsOf ps, s.1.allows s.2 = true
  switchedOnce : (switchesOf ps).Nodup
  taken : ∀ s ∈ switchesOf ps, l.takes s = true
  placed : (argumentsOf ps).length ≤ l.arity
  kind : l = .query → ∀ k ∈ (argumentsOf ps).head?, (QueryKind.ofName? k).isSome = true

section Fits

variable {l : Level} {ps qs : List Piece}

theorem Fits.nil (l : Level) : Fits l [] := by
  constructor <;> simp [settingsOf, switchesOf, argumentsOf]

theorem Fits.before (fits : Fits l (ps ++ qs)) : Fits l ps := by
  obtain ⟨once, allowed, switchedOnce, taken, placed, kind⟩ := fits
  simp only [settingsOf_append, switchesOf_append, argumentsOf_append, List.map_append,
    List.length_append] at once allowed switchedOnce taken placed kind
  refine ⟨once.of_append_left, ?_, switchedOnce.of_append_left, ?_, by omega, ?_⟩
  · intro s member
    exact allowed s (List.mem_append_left _ member)
  · intro s member
    exact taken s (List.mem_append_left _ member)
  · intro query k first
    apply kind query k
    cases h : argumentsOf ps with
    | nil => simp [h] at first
    | cons k' rest => simpa [h] using first

theorem fits_setting {o : Setting} {value : String} (fits : Fits l ps) :
    Fits l (ps ++ [.setting o value]) ↔
      (∀ s ∈ settingsOf ps, s.1 ≠ o) ∧ o.allows value = true := by
  have new : settingsOf [Piece.setting o value] = [(o, value)] := rfl
  have noSwitch : switchesOf [Piece.setting o value] = [] := rfl
  have noArgument : argumentsOf [Piece.setting o value] = [] := rfl
  constructor
  · intro longer
    have once := longer.once
    rw [settingsOf_append, new, List.map_append, List.nodup_append] at once
    refine ⟨?_, longer.allowed (o, value) (by simp [new])⟩
    intro s member
    exact once.2.2 s.1 (List.mem_map_of_mem member) o (by simp)
  · rintro ⟨fresh, allows⟩
    constructor
    · rw [settingsOf_append, new, List.map_append, List.nodup_append]
      refine ⟨fits.once, by simp, ?_⟩
      intro name member other last
      obtain ⟨s, isSaid, rfl⟩ := List.mem_map.mp member
      rw [List.mem_singleton.mp last]
      exact fresh s isSaid
    · intro s member
      rw [settingsOf_append, new, List.mem_append, List.mem_singleton] at member
      rcases member with member | rfl
      · exact fits.allowed s member
      · exact allows
    · simpa [noSwitch] using fits.switchedOnce
    · simpa [noSwitch] using fits.taken
    · simpa [noArgument] using fits.placed
    · simpa [noArgument] using fits.kind

theorem fits_switch {s : Switch} (fits : Fits l ps) :
    Fits l (ps ++ [.switch s]) ↔ s ∉ switchesOf ps ∧ l.takes s = true := by
  have new : switchesOf [Piece.switch s] = [s] := rfl
  have noSetting : settingsOf [Piece.switch s] = [] := rfl
  have noArgument : argumentsOf [Piece.switch s] = [] := rfl
  constructor
  · intro longer
    have once := longer.switchedOnce
    rw [switchesOf_append, new, List.nodup_append] at once
    refine ⟨?_, longer.taken s (by simp [new])⟩
    intro member
    exact once.2.2 s member s (by simp) rfl
  · rintro ⟨fresh, takes⟩
    constructor
    · simpa [noSetting] using fits.once
    · simpa [noSetting] using fits.allowed
    · rw [switchesOf_append, new, List.nodup_append]
      refine ⟨fits.switchedOnce, by simp, ?_⟩
      intro t member u last same
      rw [List.mem_singleton.mp last] at same
      exact fresh (same ▸ member)
    · intro t member
      rw [switchesOf_append, new, List.mem_append, List.mem_singleton] at member
      rcases member with member | rfl
      · exact fits.taken t member
      · exact takes
    · simpa [noArgument] using fits.placed
    · simpa [noArgument] using fits.kind

/-- An argument fits where there is a place for it, and as the first one of a question if it
names a kind. -/
theorem fits_argument {p : Piece} {value : String} (is : p.argument? = some value)
    (fits : Fits l ps) :
    Fits l (ps ++ [p]) ↔ (argumentsOf ps).length < l.arity ∧
      ¬ (l = .query ∧ argumentsOf ps = [] ∧ (QueryKind.ofName? value).isNone = true) := by
  have new : argumentsOf [p] = [value] := by simp [argumentsOf, is]
  have noSetting : settingsOf [p] = [] := by
    cases p <;> first | rfl | cases is
  have noSwitch : switchesOf [p] = [] := by
    cases p <;> first | rfl | cases is
  constructor
  · intro longer
    have placed := longer.placed
    have kind := longer.kind
    rw [argumentsOf_append, new] at placed kind
    rw [List.length_append] at placed
    refine ⟨placed, ?_⟩
    rintro ⟨query, none, unknown⟩
    have known := kind query value (by simp [none])
    rw [Option.isNone_iff_eq_none.mp unknown] at known
    cases known
  · rintro ⟨room, known⟩
    constructor
    · simpa [noSetting] using fits.once
    · simpa [noSetting] using fits.allowed
    · simpa [noSwitch] using fits.switchedOnce
    · simpa [noSwitch] using fits.taken
    · rw [argumentsOf_append, new, List.length_append]
      exact room
    · intro query k first
      rw [argumentsOf_append, new] at first
      cases earlier : argumentsOf ps with
      | nil =>
        rw [earlier] at first
        obtain rfl : value = k := by simpa using first
        rw [← Option.not_isNone, Bool.not_eq_true', Bool.eq_false_iff]
        intro unknown
        exact known ⟨query, earlier, unknown⟩
      | cons k' rest =>
        apply fits.kind query k
        rw [earlier] at first ⊢
        exact first

/-- A level with levels below has no arguments of its own. -/
theorem Fits.argumentsOf_eq_nil (fits : Fits l ps) (above : l.hasBelow = true) :
    argumentsOf ps = [] := by
  have none : l.arity = 0 := by
    cases l <;> first | rfl | cases above
  apply List.eq_nil_of_length_eq_zero
  exact Nat.le_zero.mp (none ▸ fits.placed)

end Fits

/-! ### Lines -/

section Lines

variable {ws us : List String} {ps qs : List Piece} {w : String}

theorem Letters.argumentsOf {cs : List Char} {lacks : Option Setting}
    (by_letter : Letters cs qs lacks) : argumentsOf qs = [] := by
  induction by_letter with
  | nil | attached | equals | lacking => rfl
  | switch is rest ih => exact ih

theorem Spells.argumentsOf (spelled : Spells us qs) : argumentsOf qs = [] := by
  cases spelled with
  | switch | equals | named => rfl
  | letters by_letter => exact by_letter.argumentsOf
  | lettersNext by_letter free =>
    rw [argumentsOf_append, by_letter.argumentsOf]
    rfl

/-- Lines can be put one behind the other, if the first has no two dashes. -/
theorem Line.append (line : Line us qs) (unmarked : qs.any Piece.isMarked = false)
    (rest : Line ws ps) : Line (us ++ ws) (qs ++ ps) := by
  induction line with
  | nil => exact rest
  | marked w => cases unmarked
  | word free _ ih => exact .word free (ih unmarked)
  | options spelled _ ih =>
    rw [List.any_append, Bool.or_eq_false_iff] at unmarked
    rw [List.append_assoc, List.append_assoc]
    exact .options spelled (ih unmarked.2)

/-- A line can be taken apart at each of its arguments. -/
theorem Line.split (line : Line ws (ps ++ .word w :: qs)) :
    ∃ before after, ws = before ++ w :: after ∧ Line before ps ∧ Line after qs := by
  generalize all : ps ++ .word w :: qs = whole at line
  induction line generalizing ps with
  | nil => simp at all
  | marked w' =>
    cases ps with
    | nil => cases all
    | cons p ps => simp at all
  | @word w' ws' ps' free rest ih =>
    cases ps with
    | nil =>
      obtain ⟨same, rfl⟩ := List.cons.inj all
      cases same
      exact ⟨[], ws', rfl, .nil, rest⟩
    | cons p ps =>
      obtain ⟨rfl, behind⟩ := List.cons.inj all
      obtain ⟨before, after, rfl, first, last⟩ := ih behind
      exact ⟨w' :: before, after, rfl, .word free first, last⟩
  | @options us' ws' qs' ps' spelled rest ih =>
    -- the argument is none of the pieces that the options spell, so it stands behind them
    rcases List.append_eq_append_iff.mp all with ⟨mid, rfl, behind⟩ | ⟨mid, rfl, behind⟩
    · cases mid with
      | nil =>
        have next : [] ++ .word w :: qs = ps' := behind
        obtain ⟨before, after, rfl, first, last⟩ := ih next
        have ahead := Line.options spelled first
        rw [List.append_assoc, List.append_nil, List.append_nil] at ahead
        exact ⟨us' ++ before, after, by simp, ahead, last⟩
      | cons p mid =>
        obtain ⟨rfl, -⟩ := List.cons.inj behind
        have none := spelled.argumentsOf
        simp [CommandLine.argumentsOf, Piece.argument?] at none
    · obtain ⟨before, after, rfl, first, last⟩ := ih behind.symm
      exact ⟨us' ++ before, after, by simp, .options spelled first, last⟩

end Lines

end SymbolNav.CommandLine
