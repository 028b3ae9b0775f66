/-
  SymbolNav/Proofs/CommandLine/Words.lean
  =======================================
  **The reader looks late at what has been said, and nothing depends on that.**

  What a word completes is looked at when the next one comes or the words end.
  Whatever is done then looks first (`LooksFirst`), so the words that follow are
  read as if everything before them had been looked at already
  (`looksFirst_readWords`).  A proof about the reader can therefore always start
  from a reading in which nothing is left to be looked at.

  The steps of the reader are told apart by the shape of the word (`Shape`).
-/
import SymbolNav.Proofs.CommandLine.Pieces
import Mathlib.Tactic.Common

namespace SymbolNav.CommandLine

theorem bind_eq_ok {α β : Type} {x : Except Rejection α} {f : α → Except Rejection β} {b : β} :
    x >>= f = .ok b ↔ ∃ a, x = .ok a ∧ f a = .ok b := by
  cases x with
  | error e =>
    constructor
    · intro h
      cases h
    · rintro ⟨a, h, -⟩
      cases h
  | ok a =>
    constructor
    · intro h
      exact ⟨a, rfl, h⟩
    · rintro ⟨a', h, given⟩
      cases h
      exact given

/-! ### Looking at what has been said -/

namespace Reading

section Resolve

variable {env : Option String} {r r' : Reading} {rs : List Reading} {w value : String}
  {o : Setting} {e : Rejection}

theorem accept_eq_ok : r.accept o value = .ok r' ↔
    ((∀ s ∈ r.settings, s.1 ≠ o) ∧ o.allows value = true) ∧
      { r with settings := r.settings ++ [(o, value)] } = r' := by
  unfold accept
  split_ifs with twice allowed
  · obtain ⟨s, member, same⟩ := List.any_eq_true.mp twice
    constructor
    · intro h
      cases h
    · rintro ⟨⟨fresh, -⟩, -⟩
      exact absurd (of_decide_eq_true same) (fresh s member)
  · have fresh : ∀ s ∈ r.settings, s.1 ≠ o := by
      intro s member same
      exact twice (List.any_eq_true.mpr ⟨s, member, decide_eq_true same⟩)
    constructor
    · intro h
      exact ⟨⟨fresh, allowed⟩, Except.ok.inj h⟩
    · rintro ⟨-, rfl⟩
      rfl
  · simp [allowed]

theorem acceptArgument_eq_ok : r.acceptArgument value = .ok r' ↔
    ¬ (r.level = .query ∧ r.arguments = [] ∧ (QueryKind.ofName? value).isNone = true) ∧
      { r with arguments := r.arguments ++ [value] } = r' := by
  unfold acceptArgument
  split_ifs with unknown
  · constructor
    · intro h
      cases h
    · rintro ⟨known, -⟩
      exact absurd unknown known
  · constructor
    · intro h
      exact ⟨unknown, Except.ok.inj h⟩
    · rintro ⟨-, rfl⟩
      rfl

/-- The number of arguments that have been given, looked at or not. -/
def placed (r : Reading) : Nat :=
  r.arguments.length + (match r.pending with
    | some (.argument _) => 1
    | _ => 0)

/-- What looking at it leaves as it is. -/
structure Resolved (r r' : Reading) : Prop where
  level : r'.level = r.level
  plain : r'.plain = r.plain
  pending : r'.pending = none
  placed : r'.placed = r.placed
  given : r.awaits = false

theorem resolved (h : r.resolve = .ok r') : Resolved r r' := by
  obtain ⟨level, pending, settings, switches, arguments, plain, environment⟩ := r
  cases pending with
  | none =>
    cases h
    exact ⟨rfl, rfl, rfl, rfl, rfl⟩
  | some p =>
    cases p with
    | setting o value =>
      cases value with
      | none => cases h
      | some value =>
        obtain ⟨-, rfl⟩ := accept_eq_ok.mp h
        exact ⟨rfl, rfl, rfl, rfl, rfl⟩
    | argument value =>
      obtain ⟨-, rfl⟩ := acceptArgument_eq_ok.mp h
      refine ⟨rfl, rfl, rfl, ?_, rfl⟩
      simp [placed]

theorem resolve_idem (h : r.resolve = .ok r') : r'.resolve = .ok r' := by
  unfold resolve
  rw [(resolved h).pending]

theorem resolve_plain (r : Reading) (b : Bool) :
    resolve { r with plain := b } = r.resolve.map (fun r' => { r' with plain := b }) := by
  obtain ⟨level, pending, settings, switches, arguments, plain, environment⟩ := r
  cases pending with
  | none => rfl
  | some p =>
    cases p with
    | setting o value =>
      cases value with
      | none => rfl
      | some value =>
        simp only [resolve, accept]
        split_ifs <;> rfl
    | argument value =>
      simp only [resolve, acceptArgument]
      split_ifs <;> rfl

/-! ### Steps that look first -/

/-- What is done looks first at what has been said: it comes to something if nothing is wrong with
that, and then to what it comes to from there. -/
def LooksFirst {α : Type} (f : Reading → Except Rejection α) (r : Reading) : Prop :=
  ∀ a, f r = .ok a ↔ ∃ r', r.resolve = .ok r' ∧ f r' = .ok a

section LooksFirst

variable {α β : Type} {f g : Reading → Except Rejection α}

theorem looksFirst_error : LooksFirst (fun _ => (.error e : Except Rejection α)) r := by
  intro a
  constructor
  · intro h
    cases h
  · rintro ⟨r', -, h⟩
    cases h

theorem looksFirst_resolve (k : Reading → Except Rejection α) :
    LooksFirst (fun r => r.resolve >>= k) r := by
  intro a
  simp only [bind_eq_ok]
  constructor
  · rintro ⟨r', h, given⟩
    exact ⟨r', h, r', resolve_idem h, given⟩
  · rintro ⟨r', h, r'', h', given⟩
    rw [resolve_idem h] at h'
    cases h'
    exact ⟨r', h, given⟩

theorem LooksFirst.bind (looks : LooksFirst f r) (k : α → Except Rejection β) :
    LooksFirst (fun r => f r >>= k) r := by
  intro b
  simp only [bind_eq_ok]
  constructor
  · rintro ⟨a, h, given⟩
    obtain ⟨r', resolved, h'⟩ := (looks a).mp h
    exact ⟨r', resolved, a, h', given⟩
  · rintro ⟨r', resolved, a, h', given⟩
    exact ⟨a, (looks a).mpr ⟨r', resolved, h'⟩, given⟩

theorem LooksFirst.congr (looks : LooksFirst g r) (here : f r = g r)
    (after : ∀ r', r.resolve = .ok r' → f r' = g r') : LooksFirst f r := by
  intro a
  rw [here, looks a]
  constructor
  · rintro ⟨r', h, given⟩
    exact ⟨r', h, (after r' h).trans given⟩
  · rintro ⟨r', h, given⟩
    exact ⟨r', h, (after r' h).symm.trans given⟩

theorem looksFirst_after (x : Except Rejection β) {k : β → Reading → Except Rejection α}
    (looks : ∀ b, LooksFirst (k b) r) : LooksFirst (fun r => x >>= fun b => k b r) r := by
  cases x with
  | error e => exact looksFirst_error
  | ok b => exact looks b

theorem LooksFirst.plain {b : Bool} (looks : LooksFirst f { r with plain := b }) :
    LooksFirst (fun r => f { r with plain := b }) r := by
  intro a
  rw [looks a, resolve_plain]
  constructor
  · rintro ⟨t, h, given⟩
    cases looked : r.resolve with
    | error e =>
      rw [looked] at h
      cases h
    | ok r' =>
      rw [looked] at h
      cases h
      exact ⟨r', rfl, given⟩
  · rintro ⟨r', h, given⟩
    rw [h]
    exact ⟨_, rfl, given⟩

end LooksFirst

theorem looksFirst_letters (c : Char) (cs : List Char) :
    LooksFirst (fun r => r.letters (c :: cs)) r := by
  simp only [letters]
  split
  · exact (looksFirst_resolve _).bind _
  · split
    · exact looksFirst_error
    · split
      · exact looksFirst_resolve _
      · exact looksFirst_resolve _
      · exact looksFirst_resolve _

theorem looksFirst_named (s : List Char) : LooksFirst (fun r => r.named s) r := by
  simp only [named]
  cases Level.setting? (s.takeWhile (· ≠ '=')) with
  | some o =>
    simp only
    split
    · exact looksFirst_resolve _
    · exact looksFirst_resolve _
  | none =>
    cases known : r.level.switch? (s.takeWhile (· ≠ '=')) with
    | none =>
      apply (looksFirst_error (e := .unknownArgument)).congr
      · simp only [known]
      · intro r' h
        simp only [(resolved h).level, known]
    | some t =>
      by_cases given : ((s.dropWhile (· ≠ '=')).tail?.map String.ofList).isSome = true
      · apply (looksFirst_error (e := .tooManyValues)).congr
        · simp only [known, given, if_true]
        · intro r' h
          simp only [(resolved h).level, known, given, if_true]
      · have looks : LooksFirst (fun r => r.switch t) r := looksFirst_resolve _
        apply looks.congr
        · simp only [known, given, Bool.false_eq_true, if_false]
        · intro r' h
          simp only [(resolved h).level, known, given, Bool.false_eq_true, if_false]

theorem argument_eq_ok : r.argument value = .ok r' ↔
    r.placed < r.level.arity ∧
      ∃ t, r.resolve = .ok t ∧ { t with pending := some (.argument value) } = r' := by
  have opened : r.argument value =
      if r.placed < r.level.arity then
        r.resolve >>= fun t => .ok { t with pending := some (.argument value) }
      else if r.level.hasBelow &&
          !(r.plain && ((r.level.below? value).isSome || value = "help")) then
        .error .invalidSubcommand
      else .error .unknownArgument := rfl
  rw [opened]
  by_cases room : r.placed < r.level.arity
  · rw [if_pos room, bind_eq_ok]
    simp [room]
  · rw [if_neg room]
    constructor
    · intro h
      split_ifs at h
    · rintro ⟨room', -⟩
      exact absurd room' room

theorem looksFirst_argument (value : String) : LooksFirst (fun r => r.argument value) r := by
  intro a
  simp only [argument_eq_ok]
  constructor
  · rintro ⟨room, t, h, given⟩
    refine ⟨t, h, ?_, t, resolve_idem h, given⟩
    rw [(resolved h).placed, (resolved h).level]
    exact room
  · rintro ⟨t, h, room, t', h', given⟩
    rw [(resolved h).placed, (resolved h).level] at room
    rw [resolve_idem h] at h'
    cases h'
    exact ⟨room, t, h, given⟩

end Resolve

end Reading

/-! ### Words by their shape -/

inductive Shape : String → Prop
  | dashes : Shape "--"
  | named {s : String} (some : s ≠ "") : Shape ("--" ++ s)
  | letters {c : Char} {cs : List Char} (one : c ≠ '-') : Shape (String.ofList ('-' :: c :: cs))
  | free {w : String} (free : IsFree w) : Shape w

theorem shape (w : String) : Shape w := by
  by_cases first : w.toList.head? = some '-'
  · have whole : w = String.ofList w.toList := (String.ofList_toList).symm
    cases all : w.toList with
    | nil => simp [all] at first
    | cons d cs =>
      obtain rfl : d = '-' := by simpa [all] using first
      rw [all] at whole
      subst whole
      cases cs with
      | nil => exact .free (.inl rfl)
      | cons c cs =>
        by_cases two : c = '-'
        · subst two
          cases cs with
          | nil => exact .dashes
          | cons c cs =>
            have split : String.ofList ('-' :: '-' :: c :: cs) =
                "--" ++ String.ofList (c :: cs) := by
              apply String.toList_inj.mp
              simp
            rw [split]
            apply Shape.named
            intro empty
            have := congrArg String.toList empty
            simp at this
        · exact .letters two
  · exact .free (.inr first)

namespace Reading

section Shapes

variable {r : Reading} {w : String} {c : Char} {cs : List Char}

theorem word_plain (plain : r.plain = true) : r.word w = r.argument w := by
  unfold word
  rw [if_pos plain]

theorem word_dashes (spoken : r.plain = false) : r.word "--" = .ok { r with plain := true } := by
  unfold word
  rw [if_neg (by simp [spoken])]
  rfl

theorem word_named {s : String} (spoken : r.plain = false) (some : s ≠ "") :
    r.word ("--" ++ s) = r.named s.toList := by
  have two : ("--" ++ s).toList = '-' :: '-' :: s.toList := by simp
  unfold word
  rw [if_neg (by simp [spoken]), two]
  cases letters : s.toList with
  | nil => exact absurd (String.toList_eq_nil_iff.mp letters) some
  | cons c cs => rfl

theorem word_letters (spoken : r.plain = false) (one : c ≠ '-') :
    r.word (String.ofList ('-' :: c :: cs)) = r.letters (c :: cs) := by
  unfold word
  rw [if_neg (by simp [spoken]), String.toList_ofList]
  split
  · rename_i same
    cases same
    exact absurd rfl one
  · rename_i same
    cases same
    exact absurd rfl one
  · rename_i same
    cases same
  · rename_i same
    cases same
    rfl
  · rename_i other
    exact absurd rfl (other (c :: cs))

theorem word_free (spoken : r.plain = false) (free : IsFree w) :
    r.word w = if r.awaits then .ok (r.supply w) else r.argument w := by
  unfold word
  rw [if_neg (by simp [spoken])]
  rcases free with rfl | first
  · rfl
  · split
    · rename_i same
      simp [same] at first
    · rename_i same
      simp [same] at first
    · rfl
    · rename_i same
      simp [same] at first
    · rfl

end Shapes

theorem looksFirst_word {r : Reading} {w : String} (given : r.awaits = false)
    (behind : r.plain = true ∨ w ≠ "--") : LooksFirst (fun r => r.word w) r := by
  cases plain : r.plain with
  | true =>
    apply (looksFirst_argument w).congr
    · exact word_plain plain
    · intro r' h
      exact word_plain ((resolved h).plain.trans plain)
  | false =>
    have plain' : ∀ r', r.resolve = .ok r' → r'.plain = false := by
      intro r' h
      exact (resolved h).plain.trans plain
    cases shape w with
    | dashes => simp [plain] at behind
    | named some =>
      apply (looksFirst_named _).congr (word_named plain some)
      intro r' h
      exact word_named (plain' r' h) some
    | letters one =>
      apply (looksFirst_letters _ _).congr (word_letters plain one)
      intro r' h
      exact word_letters (plain' r' h) one
    | free free =>
      apply (looksFirst_argument w).congr
      · rw [word_free plain free, given]
        rfl
      · intro r' h
        rw [word_free (plain' r' h) free, (resolved (resolve_idem h)).given]
        rfl

end Reading

/-! ### Words one after the other -/

section Steps

variable {env : Option String} {r : Reading} {w : String} {ws : List String}

theorem Level.below?_given {l below : Level} (h : l.below? w = some below) :
    l.hasBelow = true ∧ w ≠ "help" ∧ w.toList.head? ≠ some '-' := by
  unfold Level.below? at h
  split at h <;> cases h <;> exact ⟨rfl, by decide, by decide⟩

/-- The words that are read at the level that has been reached. -/
def Reading.Keeps (r : Reading) (w : String) : Prop :=
  (r.plain || r.awaits || !r.level.hasBelow) = true ∨ r.level.below? w = none ∧ w ≠ "help"

theorem Reading.keeps_dash (dash : w.toList.head? = some '-') : r.Keeps w := by
  refine .inr ⟨?_, ?_⟩
  · cases h : r.level.below? w with
    | none => rfl
    | some l => exact absurd dash (Level.below?_given h).2.2
  · rintro rfl
    exact absurd dash (by decide)

theorem readWords_keeps (keeps : r.Keeps w) :
    readWords env r (w :: ws) = r.word w >>= fun r' => readWords env r' ws := by
  rw [readWords]
  rcases keeps with stays | ⟨notBelow, noHelp⟩
  · rw [if_pos stays]
  · rw [if_neg noHelp, notBelow]
    split <;> rfl

theorem readWords_below {l : Level} (spoken : r.plain = false) (given : r.awaits = false)
    (below : r.level.below? w = some l) :
    readWords env r (w :: ws) = readWords env (.start l) ws >>= fun inner =>
      r.finish env true >>= fun r' => .ok (r' :: inner) := by
  obtain ⟨above, noHelp, -⟩ := Level.below?_given below
  rw [readWords, spoken, given, above, if_neg (by decide), if_neg noHelp, below]
  rfl

theorem readWords_help (spoken : r.plain = false) (given : r.awaits = false)
    (above : r.level.hasBelow = true) :
    readWords env r ("help" :: ws) = .error (helpAbout r.level ws) := by
  rw [readWords, spoken, given, above, if_neg (by decide), if_pos rfl]

theorem readWords_dashes (spoken : r.plain = false) :
    readWords env r ("--" :: ws) = readWords env { r with plain := true } ws := by
  rw [readWords_keeps (Reading.keeps_dash rfl), Reading.word_dashes spoken]
  rfl

/-- What has been said may as well be looked at before the next word. -/
theorem looksFirst_readWords (ws : List String) (r : Reading) (given : r.awaits = false) :
    r.LooksFirst (fun r => readWords env r ws) := by
  induction ws generalizing r with
  | nil =>
    simp only [readWords, Reading.finish]
    exact (Reading.looksFirst_resolve _).bind _
  | cons w ws ih =>
    have given' : ∀ r', r.resolve = .ok r' → r'.awaits = false := by
      intro r' h
      exact (Reading.resolved (Reading.resolve_idem h)).given
    by_cases behind : r.plain = true ∨ w ≠ "--"
    · by_cases keeps : r.Keeps w
      · apply ((Reading.looksFirst_word given behind).bind _).congr (readWords_keeps keeps)
        intro r' h
        apply readWords_keeps
        unfold Reading.Keeps at keeps ⊢
        rwa [given' r' h, ← given, (Reading.resolved h).plain, (Reading.resolved h).level]
      · obtain ⟨stays, other⟩ := not_or.mp keeps
        simp only [given, Bool.or_false, Bool.or_eq_true, Bool.not_eq_true', not_or,
          Bool.not_eq_true, Bool.not_eq_false] at stays
        have spoken' : ∀ r', r.resolve = .ok r' → r'.plain = false := by
          intro r' h
          rw [(Reading.resolved h).plain, stays.1]
        cases below : r.level.below? w with
        | some l =>
          have looks : r.LooksFirst (fun r => readWords env (.start l) ws >>= fun inner =>
              r.finish env true >>= fun r' => .ok (r' :: inner)) := by
            apply Reading.looksFirst_after
            intro inner
            exact ((Reading.looksFirst_resolve _).bind _)
          apply looks.congr (readWords_below stays.1 given below)
          intro r' h
          apply readWords_below (spoken' r' h) (given' r' h)
          rw [(Reading.resolved h).level, below]
        | none =>
          obtain rfl : w = "help" := by
            by_contra noHelp
            exact other ⟨below, noHelp⟩
          apply (Reading.looksFirst_error (e := helpAbout r.level ws)).congr
          · exact readWords_help stays.1 given stays.2
          · intro r' h
            rw [← (Reading.resolved h).level] at stays ⊢
            exact readWords_help (spoken' r' h) (given' r' h) stays.2
    · obtain ⟨spoken, rfl⟩ := (not_or.mp behind).imp_right not_not.mp
      rw [Bool.not_eq_true] at spoken
      have looks := (ih { r with plain := true } given).plain
      apply looks.congr (readWords_dashes spoken)
      intro r' h
      apply readWords_dashes
      rw [(Reading.resolved h).plain, spoken]

end Steps

end SymbolNav.CommandLine
