/-
  SymbolNav/Proofs/CommandLine/Accepted.lean
  ==========================================
  **Every accepted line spells something.**

  The converse of reading what is spelled: words that are accepted, with no two
  dashes among them, are names, arguments and options in the spellings of `Line`
  (`exists_line`).  The induction is over the words.  Where an option lacks its
  value, the next word has to be free and belongs to it.
-/
import SymbolNav.Proofs.CommandLine.Words

namespace SymbolNav.CommandLine

section Accepted

variable {env : Option String} {r r' : Reading} {rs : List Reading} {ws : List String}
  {o : Setting} {value : String}

/-- What a word leaves: the mode of reading as it was, and a value awaited or not. -/
structure Leaves (r : Reading) (awaited : Bool) (r' : Reading) : Prop where
  plain : r'.plain = r.plain
  awaits : r'.awaits = awaited

theorem Leaves.trans {a b : Bool} {t : Reading} (first : Leaves r a t) (second : Leaves t b r') :
    Leaves r b r' :=
  ⟨second.plain.trans first.plain, second.awaits⟩

theorem leaves_resolve (h : r.resolve = .ok r') : Leaves r false r' :=
  ⟨(Reading.resolved h).plain, (Reading.resolved (Reading.resolve_idem h)).given⟩

theorem leaves_attach (h : r.attach o value = .ok r') : Leaves r false r' := by
  obtain ⟨t, looked, accepted⟩ := bind_eq_ok.mp h
  obtain ⟨-, rfl⟩ := Reading.accept_eq_ok.mp accepted
  obtain ⟨plain, awaits⟩ := leaves_resolve looked
  exact ⟨plain, awaits⟩

theorem leaves_expect (h : r.expect o = .ok r') : Leaves r true r' := by
  obtain ⟨t, looked, same⟩ := bind_eq_ok.mp h
  cases same
  exact ⟨(Reading.resolved looked).plain, rfl⟩

theorem leaves_switch {s : Switch} (h : r.switch s = .ok r') : Leaves r false r' := by
  obtain ⟨t, looked, taken⟩ := bind_eq_ok.mp h
  obtain ⟨plain, awaits⟩ := leaves_resolve looked
  cases s with
  | help | version => cases taken
  | verbose | tree | incoming | force =>
    simp only at taken
    split_ifs at taken
    cases taken
    exact ⟨plain, awaits⟩

theorem leaves_argument {w : String} (h : r.argument w = .ok r') : Leaves r false r' := by
  obtain ⟨-, t, looked, rfl⟩ := Reading.argument_eq_ok.mp h
  exact ⟨(Reading.resolved looked).plain, rfl⟩

/-! ### Options -/

theorem letters_given {cs : List Char} (h : r.letters cs = .ok r') (given : r.awaits = false) :
    ∃ qs lacks, Letters cs qs lacks ∧ Leaves r lacks.isSome r' := by
  induction cs generalizing r with
  | nil =>
    cases h
    exact ⟨[], none, .nil, rfl, given⟩
  | cons c cs ih =>
    rw [Reading.letters] at h
    split at h
    · rename_i s is
      obtain ⟨t, switched, rest⟩ := bind_eq_ok.mp h
      have left := leaves_switch switched
      obtain ⟨qs, lacks, letters, left'⟩ := ih rest left.awaits
      exact ⟨.switch s :: qs, lacks, .switch is letters, left.trans left'⟩
    · split at h
      · cases h
      · rename_i o is
        split at h
        · exact ⟨[], some o, .lacking is, leaves_expect h⟩
        · exact ⟨_, none, .equals is, leaves_attach h⟩
        · rename_i noValue noEquals
          refine ⟨_, none, .attached is noValue ?_, leaves_attach h⟩
          intro first
          cases cs with
          | nil => cases first
          | cons d cs =>
            obtain rfl : d = '=' := by simpa using first
            exact noEquals cs rfl

/-- What is read behind two dashes: an option with a value after `=`, one whose value is to follow,
or one that takes none. -/
theorem named_given {s : List Char} (h : r.named s = .ok r') :
    (∃ (o : Setting) (value : List Char), s = o.name.toList ++ '=' :: value ∧ Leaves r false r') ∨
      (∃ o : Setting, s = o.name.toList ∧ Leaves r true r') ∨
      ∃ t : Switch, s = t.name.toList ∧ Leaves r false r' := by
  have whole := List.takeWhile_append_dropWhile (p := (· ≠ '=')) (l := s)
  have rest : s.dropWhile (· ≠ '=') = [] ∨ ∃ value, s.dropWhile (· ≠ '=') = '=' :: value := by
    have first := List.head?_dropWhile_not (· ≠ '=') s
    cases behind : s.dropWhile (· ≠ '=') with
    | nil => exact .inl rfl
    | cons c value =>
      rw [behind] at first
      exact .inr ⟨value, by simpa using first⟩
  simp only [Reading.named] at h
  rcases rest with rest | ⟨value, rest⟩
  · rw [rest, List.append_nil] at whole
    rw [rest, whole] at h
    split at h
    · rename_i o is
      exact .inr (.inl ⟨o, Level.setting?_eq_some.mp is, leaves_expect h⟩)
    · split at h
      · rename_i t is
        exact .inr (.inr ⟨t, (Level.switch?_eq_some.mp is).1, leaves_switch h⟩)
      · cases h
  · rw [rest] at h whole
    split at h
    · rename_i o is
      rw [Level.setting?_eq_some.mp is] at whole
      exact .inl ⟨o, value, whole.symm, leaves_attach h⟩
    · split at h <;> cases h

/-! ### Lines -/

/-- A reading whose value is awaited goes on only with that value. -/
theorem awaited_given {w : String} (h : r.word w = .ok r') (spoken : r.plain = false)
    (awaits : r.awaits = true) (noDashes : w ≠ "--") :
    IsFree w ∧ r'.plain = false ∧ r'.awaits = false := by
  have stuck : ∀ t, r.resolve ≠ .ok t := by
    intro t looked
    rw [(Reading.resolved looked).given] at awaits
    cases awaits
  cases shape w with
  | dashes => exact absurd rfl noDashes
  | named some =>
    rw [Reading.word_named spoken some] at h
    obtain ⟨t, looked, -⟩ := (Reading.looksFirst_named _ _).mp h
    exact absurd looked (stuck t)
  | letters one =>
    rw [Reading.word_letters spoken one] at h
    obtain ⟨t, looked, -⟩ := (Reading.looksFirst_letters _ _ _).mp h
    exact absurd looked (stuck t)
  | free free =>
    rw [Reading.word_free spoken free, if_pos awaits] at h
    cases h
    refine ⟨free, ?_⟩
    unfold Reading.supply
    unfold Reading.awaits at awaits
    split at awaits
    · rename_i o pending
      rw [pending]
      exact ⟨spoken, rfl⟩
    · cases awaits

/-- A word that is taken while no value is awaited is an argument, or spells options by itself or
with any value behind it. -/
theorem word_given {w : String} (h : r.word w = .ok r') (spoken : r.plain = false)
    (given : r.awaits = false) (noDashes : w ≠ "--") :
    IsFree w ∧ Leaves r false r' ∨
      (∃ qs, Spells [w] qs) ∧ Leaves r false r' ∨
      (∀ value, IsFree value → ∃ qs, Spells [w, value] qs) ∧ Leaves r true r' := by
  cases shape w with
  | dashes => exact absurd rfl noDashes
  | @named s some =>
    rw [Reading.word_named spoken some] at h
    rcases named_given h with ⟨o, value, name, left⟩ | ⟨o, name, left⟩ | ⟨t, name, left⟩
    · have same : s = o.name ++ ("=" ++ String.ofList value) := by
        apply String.toList_inj.mp
        simp [name]
      rw [same]
      exact .inr (.inl ⟨⟨_, .equals o _⟩, left⟩)
    · rw [String.toList_inj.mp name]
      exact .inr (.inr ⟨fun value free => ⟨_, .named o free⟩, left⟩)
    · rw [String.toList_inj.mp name]
      exact .inr (.inl ⟨⟨_, .switch t⟩, left⟩)
  | letters one =>
    rw [Reading.word_letters spoken one] at h
    obtain ⟨qs, lacks, by_letter, left⟩ := letters_given h given
    cases lacks with
    | none => exact .inr (.inl ⟨⟨qs, .letters by_letter⟩, left⟩)
    | some o => exact .inr (.inr ⟨fun value free => ⟨_, .lettersNext by_letter free⟩, left⟩)
  | free free =>
    rw [Reading.word_free spoken free, given] at h
    exact .inl ⟨free, leaves_argument h⟩

/-- The words behind an accepted reading spell something, after the value that it awaits. -/
theorem spells_behind (accepted : readWords env r ws = .ok rs) (spoken : r.plain = false)
    (noDashes : "--" ∉ ws) :
    if r.awaits then ∃ value rest ps, ws = value :: rest ∧ IsFree value ∧ Line rest ps
    else ∃ ps, Line ws ps := by
  induction ws generalizing r rs with
  | nil =>
    cases awaits : r.awaits with
    | false => exact ⟨[], .nil⟩
    | true =>
      obtain ⟨t, finished, -⟩ := bind_eq_ok.mp accepted
      obtain ⟨t', looked, -⟩ := bind_eq_ok.mp finished
      rw [(Reading.resolved looked).given] at awaits
      cases awaits
  | cons w ws ih =>
    obtain ⟨notDashes, noDashes⟩ := not_or.mp (mt List.mem_cons.mpr noDashes)
    cases awaits : r.awaits with
    | true =>
      rw [readWords_keeps (.inl (by simp [awaits]))] at accepted
      obtain ⟨t, taken, rest⟩ := bind_eq_ok.mp accepted
      obtain ⟨free, spoken', given⟩ := awaited_given taken spoken awaits (Ne.symm notDashes)
      have behind := ih rest spoken' noDashes
      rw [given] at behind
      obtain ⟨ps, line⟩ := behind
      exact ⟨w, ws, ps, rfl, free, line⟩
    | false =>
      by_cases keeps : r.Keeps w
      · rw [readWords_keeps keeps] at accepted
        obtain ⟨t, taken, rest⟩ := bind_eq_ok.mp accepted
        have notDashes' := Ne.symm notDashes
        have behind : ∀ {b : Bool}, Leaves r b t → if b then
            ∃ value rest ps, ws = value :: rest ∧ IsFree value ∧ Line rest ps
            else ∃ ps, Line ws ps := by
          rintro b ⟨plain, rfl⟩
          exact ih rest (plain.trans spoken) noDashes
        rcases word_given taken spoken awaits notDashes' with
          ⟨free, left⟩ | ⟨⟨qs, spelled⟩, left⟩ | ⟨spelled, left⟩
        · obtain ⟨ps, line⟩ := behind left
          exact ⟨_, .word free line⟩
        · obtain ⟨ps, line⟩ := behind left
          exact ⟨_, .options spelled line⟩
        · obtain ⟨value, rest, ps, rfl, free, line⟩ := behind left
          obtain ⟨qs, spelled⟩ := spelled value free
          exact ⟨_, .options spelled line⟩
      · obtain ⟨stays, other⟩ := not_or.mp keeps
        cases named : r.level.below? w with
        | some lower =>
          rw [readWords_below spoken awaits named] at accepted
          obtain ⟨inner, inside, -⟩ := bind_eq_ok.mp accepted
          obtain ⟨ps, line⟩ := ih (r := .start lower) inside rfl noDashes
          exact ⟨_, .word (.inr (Level.below?_given named).2.2) line⟩
        | none =>
          obtain rfl : w = "help" := by
            by_contra noHelp
            exact other ⟨named, noHelp⟩
          have above : r.level.hasBelow = true := by
            simpa [spoken, awaits] using stays
          rw [readWords_help spoken awaits above] at accepted
          cases accepted

/-- Every accepted line without two dashes spells something. -/
theorem exists_line {words : List String} (accepted : readWords env (.start .top) words = .ok rs)
    (noDashes : "--" ∉ words) : ∃ ps, Line words ps :=
  spells_behind accepted rfl noDashes

end Accepted

end SymbolNav.CommandLine
