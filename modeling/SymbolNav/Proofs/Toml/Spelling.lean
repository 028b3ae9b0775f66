/-
  SymbolNav/Proofs/Toml/Spelling.lean
  ===================================
  **All that a string may be written as is read as the string.**

  What may be written is a relation between texts and strings, with a case for each
  thing that may come next (`LineSpells`, `BlockSpells`); it says nothing about how it
  is read.  Reading is described by its result (`LineReads`, `BlockReads`) with whatever
  was read before and whatever follows, so that each of these cases is one step of the
  reader, and the strings are read by induction.  Between three marks a run of marks is
  read at once, also across the end of the string; there the induction keeps the marks
  that have been written and not yet read (`BlockSpells.reads`).
-/
import SymbolNav.Proofs.Toml.Numbers
import SymbolNav.Toml.Quoted
import Mathlib.Tactic.Common

namespace SymbolNav.Toml

open Text

/-! ### Blanks and line ends -/

def Blank (ws : List Char) : Prop := ∀ c ∈ ws, c = ' ' ∨ c = '\t'

inductive Newline : List Char → Prop
  | feed : Newline ['\n']
  | returnFeed : Newline ['\r', '\n']

/-- Blanks and line ends in any order. -/
inductive BlankLines : List Char → Prop
  | nil : BlankLines []
  | blank {c : Char} {g : List Char} (is : c = ' ' ∨ c = '\t') (rest : BlankLines g) :
      BlankLines (c :: g)
  | newline {nl g : List Char} (ends : Newline nl) (rest : BlankLines g) : BlankLines (nl ++ g)

section Gaps

variable {ws nl g t : List Char}

theorem skipBlank_append (blank : Blank ws) (stop : ∀ d ∈ t.head?, d ≠ ' ' ∧ d ≠ '\t') :
    skipBlank (ws ++ t) = t := by
  apply dropWhile_append_stop
  · intro c member
    simpa using blank c member
  · intro d first
    simpa using stop d first

/-- What follows blanks begins with a blank or on its own. -/
theorem Blank.head {P : Char → Prop} (blank : Blank ws) (space : P ' ') (tab : P '\t')
    (first : ∀ d ∈ t.head?, P d) : ∀ d ∈ (ws ++ t).head?, P d := by
  cases ws with
  | nil => exact first
  | cons c ws =>
    intro d front
    obtain rfl : c = d := Option.some.inj front
    rcases blank c List.mem_cons_self with rfl | rfl
    · exact space
    · exact tab

theorem newline?_append (ends : Newline nl) (t : List Char) : newline? (nl ++ t) = some t := by
  cases ends with
  | feed => rfl
  | returnFeed => rfl

theorem newline?_eq_none (h : ∀ d ∈ t.head?, d ≠ '\n' ∧ d ≠ '\r') : newline? t = none := by
  unfold newline?
  split
  · exact absurd rfl (h '\n' rfl).1
  · exact absurd rfl (h '\r' rfl).2
  · rfl

theorem Newline.head (ends : Newline nl) (t : List Char) :
    ∀ d ∈ (nl ++ t).head?, d = '\n' ∨ d = '\r' := by
  cases ends with
  | feed => simp
  | returnFeed => simp

theorem skipBlankLines_append (gap : BlankLines g)
    (stop : ∀ d ∈ t.head?, d ≠ ' ' ∧ d ≠ '\t' ∧ d ≠ '\n' ∧ d ≠ '\r') :
    skipBlankLines (g ++ t) = t := by
  induction gap with
  | nil =>
    cases t with
    | nil => rfl
    | cons c t =>
      obtain ⟨space, tab, feed, ret⟩ := stop c rfl
      simp [skipBlankLines, space, tab, feed, ret]
  | blank is rest ih =>
    rcases is with rfl | rfl
    · simpa [skipBlankLines] using ih
    · simpa [skipBlankLines] using ih
  | newline ends rest ih =>
    cases ends with
    | feed => simpa [skipBlankLines] using ih
    | returnFeed => simpa [skipBlankLines] using ih

end Gaps

/-! ### Escapes -/

def shortEscapes : List (Char × Char) :=
  [('b', '\x08'), ('t', '\t'), ('n', '\n'), ('f', '\x0c'), ('r', '\r'), ('"', '"'), ('\\', '\\')]

/-- What stands behind a backslash for a character: a letter, or its number in hexadecimal. -/
inductive Escape : List Char → Char → Prop
  | short {e c : Char} (listed : (e, c) ∈ shortEscapes) : Escape [e] c
  | number {mark c : Char} {ds : List Char}
      (length : mark = 'u' ∧ ds.length = 4 ∨ mark = 'U' ∧ ds.length = 8)
      (ungrouped : '_' ∉ ds) (digits : Digits 16 0 ds c.toNat) : Escape (mark :: ds) c

theorem charOf?_toNat (c : Char) : charOf? c.toNat = some c := by
  unfold charOf?
  rw [if_pos (show c.toNat.isValidChar from c.valid), Char.ofNat_toNat]

theorem Escape.undone {e : List Char} {c : Char} (h : Escape e c) (r : List Char) :
    escape? (e ++ r) = some (c, r) := by
  cases h with
  | short listed =>
    simp only [shortEscapes, List.mem_cons, Prod.mk.injEq, List.not_mem_nil, or_false] at listed
    rcases listed with ⟨rfl, rfl⟩ | ⟨rfl, rfl⟩ | ⟨rfl, rfl⟩ | ⟨rfl, rfl⟩ | ⟨rfl, rfl⟩ |
      ⟨rfl, rfl⟩ | ⟨rfl, rfl⟩ <;> rfl
  | @number mark c ds length ungrouped digits =>
    have value := digits.valueIn
    have hex : ds.all isHexDigit = true := by
      apply List.all_eq_true.mpr
      intro c member
      rcases digits.forall_mem (P := fun c => isHexDigit c = true ∨ c = '_') (by decide)
        (by decide) c member with digit | rfl
      · exact digit
      · exact absurd member ungrouped
    rcases length with ⟨rfl, four⟩ | ⟨rfl, eight⟩
    · match ds, four with
      | [a, b, c', d], _ =>
        simp only [List.cons_append, List.nil_append, escape?]
        rw [if_pos hex, value, charOf?_toNat]
        rfl
    · match ds, eight with
      | [a, b, c', d, e, f, g, h], _ =>
        simp only [List.cons_append, List.nil_append, escape?]
        rw [if_pos hex, value, charOf?_toNat]
        rfl

/-- A line may end behind a backslash, and no character has such an escape. -/
theorem escape?_eq_none {t : List Char}
    (starts : ∀ d ∈ t.head?, d = ' ' ∨ d = '\t' ∨ d = '\n' ∨ d = '\r') : escape? t = none := by
  cases t with
  | nil => rfl
  | cons c t =>
    rcases starts c rfl with rfl | rfl | rfl | rfl <;> rfl

theorem ne_of_isPlain {c : Char} (h : isPlain c = true) : c ≠ '\n' ∧ c ≠ '\r' := by
  constructor
  · rintro rfl
    revert h
    decide
  · rintro rfl
    revert h
    decide

/-! ### Strings on one line -/

/-- What may be written between two marks for a string. -/
inductive LineSpells (mark : Char) : List Char → List Char → Prop
  | nil : LineSpells mark [] []
  | plain {c : Char} {w s : List Char} (inside : c ≠ mark) (plain : isPlain c = true)
      (escapes : c = '\\' → mark ≠ '"') (rest : LineSpells mark w s) :
      LineSpells mark (c :: w) (c :: s)
  | escape {e w s : List Char} {c : Char} (double : mark = '"') (undone : Escape e c)
      (rest : LineSpells mark w s) : LineSpells mark ('\\' :: (e ++ w)) (c :: s)

/-- Reading goes on to this result. -/
def LineReads (mark : Char) (read t : List Char) (result : List Char × List Char) : Prop :=
  ∀ fuel, t.length < fuel → lineString? mark fuel read t = some result

section Line

variable {mark c : Char} {read t w s : List Char} {result : List Char × List Char}

theorem LineReads.close (mark : Char) (read rest : List Char) :
    LineReads mark read (mark :: rest) (read.reverse, rest) := by
  intro fuel enough
  obtain ⟨fuel, rfl⟩ : ∃ n, fuel = n + 1 := ⟨fuel - 1, by omega⟩
  simp [lineString?]

theorem LineReads.plain (h : LineReads mark (c :: read) t result) (inside : c ≠ mark)
    (plain : isPlain c = true) (escapes : c = '\\' → mark ≠ '"') :
    LineReads mark read (c :: t) result := by
  intro fuel enough
  obtain ⟨fuel, rfl⟩ : ∃ n, fuel = n + 1 := ⟨fuel - 1, by omega⟩
  have literal : ¬(c = '\\' ∧ mark = '"') := fun both => escapes both.1 both.2
  simp only [lineString?, inside, literal, plain, ↓reduceIte]
  exact h fuel (by simp at enough; omega)

theorem LineReads.escape {e : List Char} (h : LineReads '"' (c :: read) t result)
    (undone : Escape e c) : LineReads '"' read ('\\' :: (e ++ t)) result := by
  intro fuel enough
  obtain ⟨fuel, rfl⟩ : ∃ n, fuel = n + 1 := ⟨fuel - 1, by omega⟩
  simp only [lineString?, Char.reduceEq, and_self, ↓reduceIte, undone.undone]
  exact h fuel (by simp at enough; omega)

theorem LineSpells.reads (spells : LineSpells mark w s) (read rest : List Char) :
    LineReads mark read (w ++ mark :: rest) (read.reverse ++ s, rest) := by
  induction spells generalizing read with
  | nil => simpa using LineReads.close mark read rest
  | @plain c w s inside plain escapes spells ih =>
    have next : LineReads mark (c :: read) (w ++ mark :: rest) (read.reverse ++ c :: s, rest) := by
      simpa using ih (c :: read)
    exact next.plain inside plain escapes
  | @escape e w s c double undone spells ih =>
    subst double
    have next : LineReads '"' (c :: read) (w ++ '"' :: rest) (read.reverse ++ c :: s, rest) := by
      simpa using ih (c :: read)
    simpa using next.escape undone

/-- What needs no escape may be written as it is. -/
theorem LineSpells.self (apart : mark ∉ s) (plain : s.all isPlain = true)
    (escapes : '\\' ∈ s → mark ≠ '"') : LineSpells mark s s := by
  induction s with
  | nil => exact .nil
  | cons c s ih =>
    simp only [List.mem_cons, not_or] at apart
    simp only [List.all_cons, Bool.and_eq_true] at plain
    refine .plain (Ne.symm apart.1) plain.1 (fun backslash => escapes (by simp [backslash])) ?_
    exact ih apart.2 plain.2 (fun backslash => escapes (List.mem_cons_of_mem c backslash))

theorem LineSpells.head (spells : LineSpells mark w s) : ∀ d ∈ w.head?, d ≠ mark := by
  cases spells with
  | nil => simp
  | plain inside => simpa using inside
  | escape double =>
    subst double
    simp

end Line

/-! ### Strings on several lines -/

/-- What may be written between three marks for a string, behind `k` marks that belong to it. -/
inductive BlockSpells (mark : Char) : Nat → List Char → List Char → Prop
  | nil {k : Nat} : BlockSpells mark k [] []
  | mark {k : Nat} {w s : List Char} (few : k + 1 < 3) (rest : BlockSpells mark (k + 1) w s) :
      BlockSpells mark k (mark :: w) (mark :: s)
  | plain {k : Nat} {c : Char} {w s : List Char} (inside : c ≠ mark) (plain : isPlain c = true)
      (escapes : c = '\\' → mark ≠ '"') (rest : BlockSpells mark 0 w s) :
      BlockSpells mark k (c :: w) (c :: s)
  | newline {k : Nat} {nl w s : List Char} (ends : Newline nl) (rest : BlockSpells mark 0 w s) :
      BlockSpells mark k (nl ++ w) ('\n' :: s)
  | escape {k : Nat} {e w s : List Char} {c : Char} (double : mark = '"') (undone : Escape e c)
      (rest : BlockSpells mark 0 w s) : BlockSpells mark k ('\\' :: (e ++ w)) (c :: s)
  /-- A backslash at the end of a line leads to what is written next, however far that is. -/
  | continued {k : Nat} {ws nl g w s : List Char} (double : mark = '"') (blank : Blank ws)
      (ends : Newline nl) (gap : BlankLines g)
      (stop : ∀ d ∈ w.head?, d ≠ ' ' ∧ d ≠ '\t' ∧ d ≠ '\n' ∧ d ≠ '\r')
      (rest : BlockSpells mark 0 w s) : BlockSpells mark k ('\\' :: (ws ++ (nl ++ (g ++ w)))) s

/-- Reading goes on to this result. -/
def BlockReads (mark : Char) (read t : List Char) (result : List Char × List Char) : Prop :=
  ∀ fuel, t.length < fuel → blockString? mark fuel read t = some result

section Block

variable {mark c : Char} {read t w s : List Char} {result : List Char × List Char} {k : Nat}

theorem takeWhile_marks (k : Nat) (stop : ∀ d ∈ t.head?, d ≠ mark) :
    (List.replicate k mark ++ t).takeWhile (· = mark) = List.replicate k mark ∧
      (List.replicate k mark ++ t).dropWhile (· = mark) = t := by
  have inside : ∀ d ∈ List.replicate k mark, decide (d = mark) = true := by
    intro d member
    simp [List.eq_of_mem_replicate member]
  have ends : ∀ d ∈ t.head?, decide (d = mark) = false := by simpa using stop
  exact ⟨takeWhile_append_stop inside ends, dropWhile_append_stop inside ends⟩

/-- Up to two marks in a row belong to the string. -/
theorem BlockReads.marks (h : BlockReads mark (List.replicate k mark ++ read) t result)
    (few : k < 3) (stop : ∀ d ∈ t.head?, d ≠ mark) :
    BlockReads mark read (List.replicate k mark ++ t) result := by
  cases k with
  | zero => exact h
  | succ k =>
    intro fuel enough
    obtain ⟨fuel, rfl⟩ : ∃ n, fuel = n + 1 := ⟨fuel - 1, by omega⟩
    obtain ⟨run, after⟩ := takeWhile_marks (k + 1) stop
    rw [List.replicate_succ, List.cons_append] at run after ⊢
    simp only [blockString?, ↓reduceIte, run, after]
    rw [← List.replicate_succ, if_pos (by simpa using few)]
    refine h fuel ?_
    simp at enough
    omega

/-- The marks that close a string may follow up to two more. -/
theorem BlockReads.close {rest : List Char} (read : List Char) (few : k < 3)
    (stop : ∀ d ∈ rest.head?, d ≠ mark) :
    BlockReads mark read (List.replicate k mark ++ ([mark, mark, mark] ++ rest))
      (read.reverse ++ List.replicate k mark, rest) := by
  intro fuel enough
  obtain ⟨fuel, rfl⟩ : ∃ n, fuel = n + 1 := ⟨fuel - 1, by omega⟩
  have together : List.replicate k mark ++ ([mark, mark, mark] ++ rest) =
      List.replicate (k + 3) mark ++ rest := by
    rw [List.replicate_add, List.append_assoc]
    rfl
  obtain ⟨run, after⟩ := takeWhile_marks (k + 3) stop
  rw [together]
  rw [List.replicate_succ, List.cons_append] at run after ⊢
  simp only [blockString?, ↓reduceIte, run, after]
  rw [← List.replicate_succ, List.length_replicate, if_neg (by omega), if_pos (by omega),
    List.drop_replicate, List.reverse_append, List.reverse_replicate]
  rfl

theorem BlockReads.plain (h : BlockReads mark (c :: read) t result) (inside : c ≠ mark)
    (plain : isPlain c = true) (escapes : c = '\\' → mark ≠ '"') :
    BlockReads mark read (c :: t) result := by
  intro fuel enough
  obtain ⟨fuel, rfl⟩ : ∃ n, fuel = n + 1 := ⟨fuel - 1, by omega⟩
  have literal : ¬(c = '\\' ∧ mark = '"') := fun both => escapes both.1 both.2
  have noEnd : newline? (c :: t) = none := newline?_eq_none (by simpa using ne_of_isPlain plain)
  simp only [blockString?, inside, literal, noEnd, plain, ↓reduceIte]
  exact h fuel (by simp at enough; omega)

theorem BlockReads.newline {nl : List Char} (h : BlockReads mark ('\n' :: read) t result)
    (quote : mark = '"' ∨ mark = '\x27') (ends : Newline nl) :
    BlockReads mark read (nl ++ t) result := by
  intro fuel enough
  obtain ⟨fuel, rfl⟩ : ∃ n, fuel = n + 1 := ⟨fuel - 1, by omega⟩
  have feed : '\n' ≠ mark := by rcases quote with rfl | rfl <;> decide
  have ret : '\r' ≠ mark := by rcases quote with rfl | rfl <;> decide
  cases ends with
  | feed =>
    simp only [List.cons_append, List.nil_append, blockString?, feed, newline?, Char.reduceEq,
      false_and, ↓reduceIte]
    exact h fuel (by simp at enough; omega)
  | returnFeed =>
    simp only [List.cons_append, List.nil_append, blockString?, ret, newline?, Char.reduceEq,
      false_and, ↓reduceIte]
    exact h fuel (by simp at enough; omega)

theorem BlockReads.escape {e : List Char} (h : BlockReads '"' (c :: read) t result)
    (undone : Escape e c) : BlockReads '"' read ('\\' :: (e ++ t)) result := by
  intro fuel enough
  obtain ⟨fuel, rfl⟩ : ∃ n, fuel = n + 1 := ⟨fuel - 1, by omega⟩
  simp only [blockString?, Char.reduceEq, and_self, ↓reduceIte, undone.undone]
  exact h fuel (by simp at enough; omega)

theorem BlockReads.continued {ws nl g : List Char} (h : BlockReads '"' read t result)
    (blank : Blank ws) (ends : Newline nl) (gap : BlankLines g)
    (stop : ∀ d ∈ t.head?, d ≠ ' ' ∧ d ≠ '\t' ∧ d ≠ '\n' ∧ d ≠ '\r') :
    BlockReads '"' read ('\\' :: (ws ++ (nl ++ (g ++ t)))) result := by
  have starts : ∀ d ∈ (nl ++ (g ++ t)).head?, d ≠ ' ' ∧ d ≠ '\t' := by
    intro d first
    rcases ends.head _ d first with rfl | rfl <;> decide
  have noEscape : escape? (ws ++ (nl ++ (g ++ t))) = none := by
    apply escape?_eq_none
    refine blank.head (.inl rfl) (.inr (.inl rfl)) ?_
    intro d first
    exact .inr (.inr (ends.head _ d first))
  have onward : continued? (ws ++ (nl ++ (g ++ t))) = some t := by
    rw [continued?, skipBlank_append blank starts, newline?_append ends, Option.map_some,
      skipBlankLines_append gap stop]
  intro fuel enough
  obtain ⟨fuel, rfl⟩ : ∃ n, fuel = n + 1 := ⟨fuel - 1, by omega⟩
  simp only [blockString?, Char.reduceEq, and_self, ↓reduceIte, noEscape, onward]
  refine h fuel ?_
  simp only [List.length_cons, List.length_append] at enough
  omega

theorem replicate_append_cons (k : Nat) (mark : Char) (t : List Char) :
    List.replicate k mark ++ mark :: t = List.replicate (k + 1) mark ++ t := by
  rw [List.replicate_succ', List.append_assoc]
  rfl

theorem BlockSpells.reads {rest : List Char} (spells : BlockSpells mark k w s)
    (quote : mark = '"' ∨ mark = '\x27') (stop : ∀ d ∈ rest.head?, d ≠ mark) (few : k < 3)
    (read : List Char) :
    BlockReads mark read (List.replicate k mark ++ (w ++ ([mark, mark, mark] ++ rest)))
      (read.reverse ++ List.replicate k mark ++ s, rest) := by
  induction spells generalizing read with
  | nil => simpa using BlockReads.close read few stop
  | @mark k w s few' spells ih =>
    have next := ih few' read
    rw [List.append_assoc, ← replicate_append_cons, ← replicate_append_cons] at next
    rw [List.append_assoc]
    exact next
  | @plain k c w s inside plain escapes spells ih =>
    have next := ih (by decide) (c :: (List.replicate k mark ++ read))
    refine BlockReads.marks ?_ few (by simpa using inside)
    exact BlockReads.plain (by simpa using next) inside plain escapes
  | @newline k nl w s ends spells ih =>
    have next := ih (by decide) ('\n' :: (List.replicate k mark ++ read))
    refine BlockReads.marks ?_ few ?_
    · rw [List.append_assoc]
      exact BlockReads.newline (by simpa using next) quote ends
    · intro d first
      rw [List.append_assoc] at first
      rcases ends.head _ d first with rfl | rfl <;> rcases quote with rfl | rfl <;> decide
  | @escape k e w s c double undone spells ih =>
    subst double
    have next := ih (by decide) (c :: (List.replicate k '"' ++ read))
    refine BlockReads.marks ?_ few (by simp)
    rw [List.cons_append, List.append_assoc]
    exact BlockReads.escape (by simpa using next) undone
  | @continued k ws nl g w s double blank ends gap stop' spells ih =>
    subst double
    have next := ih (by decide) (List.replicate k '"' ++ read)
    refine BlockReads.marks ?_ few (by simp)
    simp only [List.cons_append, List.append_assoc]
    refine BlockReads.continued (by simpa using next) blank ends gap ?_
    cases w with
    | nil => simp
    | cons d w => simpa using stop'

end Block

/-! ### Whole strings -/

/-- All that a string may be written as. -/
inductive StringSpells : List Char → List Char → Prop
  | line {mark : Char} {w s : List Char} (quote : mark = '"' ∨ mark = '\x27')
      (spells : LineSpells mark w s) : StringSpells (mark :: (w ++ [mark])) s
  /-- A line end behind the opening marks does not belong to the string. -/
  | block {mark : Char} {nl w s : List Char} (quote : mark = '"' ∨ mark = '\x27')
      (opening : Newline nl ∨ nl = [] ∧ ∀ d ∈ w.head?, d ≠ '\n' ∧ d ≠ '\r')
      (spells : BlockSpells mark 0 w s) :
      StringSpells ([mark, mark, mark] ++ (nl ++ (w ++ [mark, mark, mark]))) s

section Text

variable {w s rest : List Char}

theorem text?_eq_lineText? {mark : Char} {t : List Char} (single : ∀ r, t ≠ mark :: mark :: r) :
    text? (mark :: t) = lineText? (mark :: t) := by
  unfold text?
  split
  · rename_i r same
    cases same
    exact absurd rfl (single r)
  · rename_i r same
    cases same
    exact absurd rfl (single r)
  · rfl

/-- A mark that closes an empty string is not followed by another. -/
theorem ne_marks {mark : Char} {body : List Char} (starts : ∀ d ∈ body.head?, d ≠ mark)
    (stop : ∀ d ∈ rest.head?, d ≠ mark) (r : List Char) :
    body ++ mark :: rest ≠ mark :: mark :: r := by
  intro same
  cases body with
  | nil =>
    obtain ⟨-, rfl⟩ := List.cons.inj same
    exact stop mark rfl rfl
  | cons d body =>
    obtain ⟨rfl, -⟩ := List.cons.inj same
    exact starts d rfl rfl

theorem LineSpells.lineText? {mark : Char} (spells : LineSpells mark w s)
    (quote : mark = '"' ∨ mark = '\x27') (rest : List Char) :
    lineText? (mark :: (w ++ mark :: rest)) = some (s, rest) := by
  have reads := spells.reads [] rest _ (Nat.lt_succ_self _)
  rcases quote with rfl | rfl
  · exact reads
  · exact reads

/-- **A string is read as what was written**, whatever its form, if no mark follows it. -/
theorem StringSpells.text? (spells : StringSpells w s)
    (stop : ∀ d ∈ rest.head?, d ≠ '"' ∧ d ≠ '\x27') : text? (w ++ rest) = some (s, rest) := by
  have apart {mark : Char} (quote : mark = '"' ∨ mark = '\x27') : ∀ d ∈ rest.head?, d ≠ mark := by
    intro d first
    obtain ⟨double, single⟩ := stop d first
    rcases quote with rfl | rfl
    · exact double
    · exact single
  cases spells with
  | @line mark w s quote spells =>
    have together : mark :: (w ++ [mark]) ++ rest = mark :: (w ++ mark :: rest) := by simp
    rw [together, text?_eq_lineText? (ne_marks spells.head (apart quote))]
    exact spells.lineText? quote rest
  | @block mark nl w s quote opening spells =>
    have body : (newline? (nl ++ (w ++ [mark, mark, mark] ++ rest))).getD
        (nl ++ (w ++ [mark, mark, mark] ++ rest)) = w ++ ([mark, mark, mark] ++ rest) := by
      rcases opening with ends | ⟨rfl, starts⟩
      · rw [newline?_append ends, List.append_assoc]
        rfl
      · rw [newline?_eq_none, List.append_assoc]
        · rfl
        · cases w with
          | nil => rcases quote with rfl | rfl <;> simp
          | cons d w => simpa using starts
    have reads := spells.reads quote (apart quote) (by decide) []
    have opened : Toml.text? ([mark, mark, mark] ++ (nl ++ (w ++ [mark, mark, mark])) ++ rest) =
        blockString? mark ((nl ++ (w ++ [mark, mark, mark] ++ rest)).length + 1) []
          ((newline? (nl ++ (w ++ [mark, mark, mark] ++ rest))).getD
            (nl ++ (w ++ [mark, mark, mark] ++ rest))) := by
      rw [List.append_assoc, List.append_assoc]
      rcases quote with rfl | rfl
      · rfl
      · rfl
    rw [opened, body]
    refine reads _ ?_
    simp only [List.replicate_zero, List.nil_append, List.length_append]
    omega

theorem StringSpells.starts (spells : StringSpells w s) :
    ∃ c r, w = c :: r ∧ (c = '"' ∨ c = '\x27') := by
  cases spells with
  | line quote => exact ⟨_, _, rfl, quote⟩
  | block quote => exact ⟨_, _, rfl, quote⟩

end Text

end SymbolNav.Toml
