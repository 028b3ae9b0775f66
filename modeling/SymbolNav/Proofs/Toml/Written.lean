/-
  SymbolNav/Proofs/Toml/Written.lean
  ==================================
  **A text is read as the statements that are written in it.**

  A text is taken apart from its front: what a statement is written as, the end of its
  line, and the rest, for which the same holds (`Says`).  A statement may be written in
  any of its spellings (`Assigns`); what else a text may say is left to the reader,
  with the text that follows it.  Every value is read in front of anything that can
  follow it on its line or in an array (`Spells.value?`), and fuel for each character
  suffices.
-/
import SymbolNav.Proofs.Toml.Numbers
import SymbolNav.Proofs.Toml.Spelling
import SymbolNav.Toml.Reader

namespace SymbolNav.Toml

open Text

/-! ### What may be written -/

/-- Blanks, line ends and comments. -/
inductive Gap : List Char → Prop
  | nil : Gap []
  | blank {c : Char} {g : List Char} (is : c = ' ' ∨ c = '\t') (rest : Gap g) : Gap (c :: g)
  | newline {nl g : List Char} (ends : Newline nl) (rest : Gap g) : Gap (nl ++ g)
  | comment {t nl g : List Char} (plain : ∀ c ∈ t, isPlain c = true) (ends : Newline nl)
      (rest : Gap g) : Gap ('#' :: (t ++ (nl ++ g)))

/-- All that strings may be written as between the brackets of an array, with the closing one. -/
inductive TextsSpell : List Char → List String → Prop
  | close {g : List Char} (gap : Gap g) : TextsSpell (g ++ [']']) []
  | last {g v g' : List Char} {s : String} (gap : Gap g) (spells : StringSpells v s.toList)
      (gap' : Gap g') : TextsSpell (g ++ (v ++ (g' ++ [']']))) [s]
  | more {g v g' w : List Char} {s : String} {ss : List String} (gap : Gap g)
      (spells : StringSpells v s.toList) (gap' : Gap g') (rest : TextsSpell w ss) :
      TextsSpell (g ++ (v ++ (g' ++ ',' :: w))) (s :: ss)

/-- All that a string, a whole number, a truth value or an array of strings may be written as. -/
inductive Spells : List Char → Toml → Prop
  | text {v : List Char} {s : String} (spells : StringSpells v s.toList) : Spells v (.text s)
  | integer {v : List Char} {n : Int} (spells : IntegerSpells v n) (least : -integerBound ≤ n)
      (greatest : n < integerBound) : Spells v (.integer n)
  | yes : Spells ['t', 'r', 'u', 'e'] (.flag true)
  | no : Spells ['f', 'a', 'l', 's', 'e'] (.flag false)
  | texts {v : List Char} {ss : List String} (spells : TextsSpell v ss) :
      Spells ('[' :: v) (.array (ss.map .text))

/-- All that a key without dots may be written as. -/
inductive KeySpells : List Char → String → Prop
  | bare {k : List Char} (nonempty : k ≠ []) (bare : ∀ c ∈ k, isBare c = true) :
      KeySpells k (.ofList k)
  | quoted {mark : Char} {w s : List Char} (quote : mark = '"' ∨ mark = '\x27')
      (spells : LineSpells mark w s) : KeySpells (mark :: (w ++ [mark])) (.ofList s)

inductive Assigns : List Char → String → Toml → Prop
  | mk {k ws ws' v : List Char} {key : String} {x : Toml} (named : KeySpells k key)
      (before : Blank ws) (after : Blank ws') (spells : Spells v x) :
      Assigns (k ++ (ws ++ '=' :: (ws' ++ v))) key x

/-- What may stand behind a statement before the line ends. -/
inductive Note : List Char → Prop
  | none : Note []
  | comment {t : List Char} (plain : ∀ c ∈ t, isPlain c = true) : Note ('#' :: t)

/-- The end of a line in front of a rest; the last line needs no end. -/
inductive LineEnds : (e rest : List Char) → Prop
  | newline {ws note nl rest : List Char} (blank : Blank ws) (noted : Note note)
      (ends : Newline nl) : LineEnds (ws ++ (note ++ nl)) rest
  | last {ws note : List Char} (blank : Blank ws) (noted : Note note) :
      LineEnds (ws ++ note) []

/-- What a statement can begin with. -/
def Begins (c : Char) : Prop := c = '[' ∨ c = '"' ∨ c = '\x27' ∨ isBare c = true

/-- The statements that are written in a text. -/
inductive Says : List Char → List Statement → Prop
  | nil : Says [] []
  | blank {e rest : List Char} {sts : List Statement} (ends : LineEnds e rest)
      (more : Says rest sts) : Says (e ++ rest) sts
  | assign {ws t e rest : List Char} {key : String} {x : Toml} {sts : List Statement}
      (blank : Blank ws) (assigns : Assigns t key x) (ends : LineEnds e rest)
      (more : Says rest sts) : Says (ws ++ (t ++ (e ++ rest))) (.assign [key] x :: sts)
  /-- Whatever else can be read as a statement there. -/
  | other {ws t e rest : List Char} {c : Char} {st : Statement} {sts : List Statement}
      (blank : Blank ws) (begins : Begins c)
      (reads : statement? (c :: (t ++ (e ++ rest))) = some (st, e ++ rest))
      (ends : LineEnds e rest) (more : Says rest sts) :
      Says (ws ++ (c :: (t ++ (e ++ rest)))) (st :: sts)

/-- A text may begin with a mark of byte order. -/
inductive Document : List Char → List Statement → Prop
  | plain {s : List Char} {sts : List Statement} (written : Says s sts) : Document s sts
  | marked {s : List Char} {sts : List Statement} (written : Says s sts) :
      Document ('\uFEFF' :: s) sts

/-! ### Arrays and values -/

section Values

variable {g v w t rest : List Char} {x : Toml} {ss : List String} {fuel : Nat}

theorem skipGaps?_comment (plain : ∀ c ∈ w, isPlain c = true) {nl : List Char}
    (ends : Newline nl) (t : List Char) :
    skipGaps? true (w ++ (nl ++ t)) = skipGaps? false t := by
  induction w with
  | nil =>
    cases ends with
    | feed => simp [skipGaps?]
    | returnFeed => simp [skipGaps?]
  | cons c w ih =>
    obtain ⟨first, others⟩ := List.forall_mem_cons.mp plain
    obtain ⟨feed, ret⟩ := ne_of_isPlain first
    have step : skipGaps? true (c :: (w ++ (nl ++ t))) = skipGaps? true (w ++ (nl ++ t)) := by
      rw [skipGaps?, if_pos first]
      · exact feed
      · exact fun r same => absurd same ret
    rw [List.cons_append, step, ih others]

theorem Gap.skip (gap : Gap g)
    (stop : ∀ d ∈ t.head?, d ≠ ' ' ∧ d ≠ '\t' ∧ d ≠ '\n' ∧ d ≠ '\r' ∧ d ≠ '#') :
    skipGaps? false (g ++ t) = some t := by
  induction gap with
  | nil =>
    cases t with
    | nil => rfl
    | cons c t =>
      obtain ⟨space, tab, feed, ret, comment⟩ := stop c rfl
      simp [skipGaps?, space, tab, feed, ret, comment]
  | blank is rest ih =>
    rcases is with rfl | rfl
    · simpa [skipGaps?] using ih
    · simpa [skipGaps?] using ih
  | newline ends rest ih =>
    cases ends with
    | feed => simpa [skipGaps?] using ih
    | returnFeed => simpa [skipGaps?] using ih
  | comment plain ends rest ih =>
    rw [List.cons_append, List.append_assoc, List.append_assoc]
    simpa [skipGaps?, skipGaps?_comment plain ends] using ih

/-- What can follow a value: nothing that could belong to it. -/
def Apart (rest : List Char) : Prop :=
  ∀ d ∈ rest.head?, isWordChar d = false ∧ d ≠ '"' ∧ d ≠ '\x27'

theorem StringSpells.value? {s : String} (spells : StringSpells v s.toList) (apart : Apart rest)
    (pos : 0 < fuel) (depth : Nat) :
    value? fuel depth (v ++ rest) = some (.text s, rest) := by
  obtain ⟨fuel, rfl⟩ : ∃ n, fuel = n + 1 := ⟨fuel - 1, by omega⟩
  have read := spells.text? (fun d first => (apart d first).2)
  obtain ⟨c, r, rfl, quote⟩ := spells.starts
  rw [List.cons_append] at read ⊢
  rcases quote with rfl | rfl
  · simp [Toml.value?, read]
  · simp [Toml.value?, read]

/-- A string that is an item of an array: what follows it is looked at next. -/
theorem items?_text {g' : List Char} {s : String} {c : Char} (gap : Gap g)
    (spells : StringSpells v s.toList) (gap' : Gap g') (sep : c = ',' ∨ c = ']')
    (pos : 0 < fuel) (depth : Nat) (rest : List Char) :
    items? (fuel + 1) depth (g ++ (v ++ (g' ++ c :: rest))) =
      if c = ',' then (items? fuel depth rest).map (fun (vs, r) => (.text s :: vs, r))
      else some ([.text s], rest) := by
  have behind : skipGaps? false (g' ++ c :: rest) = some (c :: rest) := by
    apply gap'.skip
    rcases sep with rfl | rfl
    · simp
    · simp
  have apart : Apart (g' ++ c :: rest) := by
    intro d first
    cases gap' with
    | nil =>
      cases Option.some.inj first
      rcases sep with rfl | rfl <;> decide
    | blank is =>
      cases Option.some.inj first
      rcases is with rfl | rfl <;> decide
    | newline ends =>
      rw [List.append_assoc] at first
      rcases ends.head _ d first with rfl | rfl <;> decide
    | comment =>
      cases Option.some.inj first
      decide
  have value := spells.value? apart pos depth
  obtain ⟨q, r, rfl, quote⟩ := spells.starts
  have front : skipGaps? false (g ++ (q :: r ++ (g' ++ c :: rest))) =
      some (q :: r ++ (g' ++ c :: rest)) := by
    apply gap.skip
    rcases quote with rfl | rfl
    · simp
    · simp
  rw [List.cons_append] at front value ⊢
  have unclosed : q ≠ ']' := by rcases quote with rfl | rfl <;> decide
  rcases sep with rfl | rfl
  · simp [items?, front, unclosed, value, behind]
  · simp [items?, front, unclosed, value, behind]

theorem TextsSpell.items? (spells : TextsSpell w ss) (rest : List Char) (depth : Nat)
    (enough : w.length < fuel) :
    items? fuel depth (w ++ rest) = some (ss.map .text, rest) := by
  induction spells generalizing fuel with
  | close gap =>
    obtain ⟨fuel, rfl⟩ : ∃ n, fuel = n + 1 := ⟨fuel - 1, by omega⟩
    have closed := gap.skip (t := ']' :: rest) (by simp)
    rw [List.append_assoc, List.singleton_append]
    simp [Toml.items?, closed]
  | @last g v g' s gap spells gap' =>
    simp only [List.length_append, List.length_singleton] at enough
    have nonempty : 0 < v.length := by
      obtain ⟨c, r, rfl, -⟩ := spells.starts
      simp
    obtain ⟨fuel, rfl⟩ : ∃ n, fuel = n + 1 := ⟨fuel - 1, by omega⟩
    have spare : 0 < fuel := by omega
    have read := items?_text gap spells gap' (.inr rfl) spare depth rest
    simpa using read
  | @more g v g' w s ss gap spells gap' more ih =>
    simp only [List.length_append, List.length_cons] at enough
    obtain ⟨fuel, rfl⟩ : ∃ n, fuel = n + 1 := ⟨fuel - 1, by omega⟩
    have spare : 0 < fuel := by omega
    have read := items?_text gap spells gap' (.inl rfl) spare depth (w ++ rest)
    rw [ih (by omega)] at read
    simpa using read

theorem value?_of_word {c : Char} (word : isWordChar c = true) (fuel depth : Nat)
    (t : List Char) : value? (fuel + 1) depth (c :: t) = scalar? (c :: t) := by
  have other {d : Char} (special : isWordChar d = false) : c ≠ d := by
    rintro rfl
    rw [word] at special
    cases special
  unfold value?
  split
  all_goals rename_i same
  · cases same
    exact absurd rfl (other (by decide))
  · cases same
    exact absurd rfl (other (by decide))
  · cases same
    exact absurd rfl (other (by decide))
  · cases same
    exact absurd rfl (other (by decide))
  · rfl

theorem Word.value? (word : Word w x) (apart : Apart rest) (pos : 0 < fuel) (depth : Nat) :
    value? fuel depth (w ++ rest) = some (x, rest) := by
  obtain ⟨fuel, rfl⟩ : ∃ n, fuel = n + 1 := ⟨fuel - 1, by omega⟩
  have scalar := word.scalar? (fun d first => (apart d first).1)
  obtain ⟨c, r, rfl⟩ := List.exists_cons_of_ne_nil word.nonempty
  exact (value?_of_word (word.chars c List.mem_cons_self) fuel depth _).trans scalar

/-- **A value is read as what was written**, whatever its spelling. -/
theorem Spells.value? (spells : Spells v x) (apart : Apart rest) (enough : v.length < fuel) :
    value? fuel deepest (v ++ rest) = some (x, rest) := by
  have pos : 0 < fuel := by omega
  cases spells with
  | text spells => exact spells.value? apart pos deepest
  | integer spells least greatest =>
    exact (spells.word least greatest).value? apart pos deepest
  | yes => exact word_true.value? apart pos deepest
  | no => exact word_false.value? apart pos deepest
  | @texts v ss spells =>
    obtain ⟨fuel, rfl⟩ : ∃ n, fuel = n + 1 := ⟨fuel - 1, by omega⟩
    have opens : Toml.value? (fuel + 1) (78 + 1) ('[' :: (v ++ rest)) =
        (Toml.items? fuel 78 (v ++ rest)).map (fun (vs, r) => (.array vs, r)) := by
      simp [Toml.value?]
    rw [spells.items? rest 78 (by simp at enough; omega)] at opens
    exact opens

theorem Spells.head (spells : Spells v x) (rest : List Char) :
    ∀ d ∈ (v ++ rest).head?, d ≠ ' ' ∧ d ≠ '\t' := by
  have ofWord {w : List Char} {y : Toml} (word : Word w y) :
      ∀ d ∈ (w ++ rest).head?, d ≠ ' ' ∧ d ≠ '\t' := by
    intro d first
    obtain ⟨c, r, rfl⟩ := List.exists_cons_of_ne_nil word.nonempty
    cases Option.some.inj first
    have inside := word.chars d List.mem_cons_self
    constructor
    · rintro rfl
      exact absurd inside (by decide)
    · rintro rfl
      exact absurd inside (by decide)
  cases spells with
  | text spells =>
    obtain ⟨c, r, rfl, quote⟩ := spells.starts
    rcases quote with rfl | rfl
    · simp
    · simp
  | integer spells least greatest => exact ofWord (spells.word least greatest)
  | yes => exact ofWord word_true
  | no => exact ofWord word_false
  | texts => simp

end Values

/-! ### Statements -/

section Statements

variable {k t e rest s : List Char} {c : Char} {key : String} {x : Toml}

theorem Begins.ne (begins : Begins c) : c ≠ ' ' ∧ c ≠ '\t' ∧ c ≠ '#' ∧ c ≠ '\n' ∧ c ≠ '\r' ∧
    c ≠ '\uFEFF' := by
  have other {d : Char} (special : isBare d = false ∧ d ≠ '[' ∧ d ≠ '"' ∧ d ≠ '\x27') : c ≠ d := by
    obtain ⟨unbare, bracket, double, single⟩ := special
    rintro rfl
    rcases begins with same | same | same | bare
    · exact bracket same
    · exact double same
    · exact single same
    · rw [bare] at unbare
      cases unbare
  exact ⟨other (by decide), other (by decide), other (by decide), other (by decide),
    other (by decide), other (by decide)⟩

theorem KeySpells.starts (named : KeySpells k key) :
    ∃ c r, k = c :: r ∧ Begins c ∧ c ≠ '[' := by
  cases named with
  | bare nonempty bare =>
    obtain ⟨c, r, rfl⟩ := List.exists_cons_of_ne_nil nonempty
    have inside := bare c List.mem_cons_self
    refine ⟨c, r, rfl, .inr (.inr (.inr inside)), ?_⟩
    rintro rfl
    exact absurd inside (by decide)
  | quoted quote =>
    rcases quote with rfl | rfl
    · exact ⟨_, _, rfl, .inr (.inl rfl), by decide⟩
    · exact ⟨_, _, rfl, .inr (.inr (.inl rfl)), by decide⟩

theorem lineText?_bare (bare : isBare c = true) : lineText? (c :: s) = none := by
  unfold lineText?
  split
  · rename_i same
    cases same
    exact absurd bare (by decide)
  · rename_i same
    cases same
    exact absurd bare (by decide)
  · rfl

theorem KeySpells.simpleKey? (named : KeySpells k key)
    (stop : ∀ d ∈ rest.head?, isBare d = false) :
    simpleKey? (k ++ rest) = some (key, rest) := by
  cases named with
  | bare nonempty bare =>
    have unquoted : lineText? (k ++ rest) = none := by
      obtain ⟨c, r, rfl⟩ := List.exists_cons_of_ne_nil nonempty
      exact lineText?_bare (bare c List.mem_cons_self)
    simp only [Toml.simpleKey?, unquoted, takeWhile_append_stop bare stop,
      dropWhile_append_stop bare stop, if_neg nonempty]
  | @quoted mark w s quote spells =>
    have text := spells.lineText? quote rest
    have together : mark :: (w ++ [mark]) ++ rest = mark :: (w ++ mark :: rest) := by simp
    rw [together]
    simp only [Toml.simpleKey?, text]

theorem skipBlank_of_head (stop : ∀ d ∈ s.head?, d ≠ ' ' ∧ d ≠ '\t') : skipBlank s = s := by
  have blank : Blank [] := nofun
  exact skipBlank_append blank stop

theorem KeySpells.keyParts? (named : KeySpells k key) {ws : List Char} (blank : Blank ws)
    (parts : Nat) :
    keyParts? (parts + 1) (k ++ (ws ++ '=' :: rest)) = some ([key], '=' :: rest) := by
  have stop : ∀ d ∈ (ws ++ '=' :: rest).head?, isBare d = false := by
    refine blank.head (by decide) (by decide) ?_
    intro d first
    cases Option.some.inj first
    decide
  have front : skipBlank (k ++ (ws ++ '=' :: rest)) = k ++ (ws ++ '=' :: rest) := by
    obtain ⟨c, r, rfl, begins, -⟩ := named.starts
    apply skipBlank_of_head
    simpa using ⟨begins.ne.1, begins.ne.2.1⟩
  have back : skipBlank (ws ++ '=' :: rest) = '=' :: rest := skipBlank_append blank (by simp)
  simp only [Toml.keyParts?, front, named.simpleKey? stop, back]
  rfl

theorem Assigns.starts (assigns : Assigns t key x) : ∃ c r, t = c :: r ∧ Begins c := by
  obtain ⟨named, -, -, -⟩ := assigns
  obtain ⟨c, r, rfl, begins, -⟩ := named.starts
  exact ⟨c, _, rfl, begins⟩

theorem Assigns.statement? (assigns : Assigns t key x) (apart : Apart rest) :
    statement? (t ++ rest) = some (.assign [key] x, rest) := by
  obtain @⟨k, ws, ws', v, key, x, named, before, after, spells⟩ := assigns
  have together : k ++ (ws ++ '=' :: (ws' ++ v)) ++ rest =
      k ++ (ws ++ '=' :: (ws' ++ (v ++ rest))) := by simp
  rw [together]
  have value : skipBlank (ws' ++ (v ++ rest)) = v ++ rest :=
    skipBlank_append after (spells.head rest)
  obtain ⟨fuel, long, bound⟩ : ∃ fuel, enough (k ++ (ws ++ '=' :: (ws' ++ (v ++ rest)))) =
      fuel + 1 ∧ v.length < fuel := by
    refine ⟨3 * (k ++ (ws ++ '=' :: (ws' ++ (v ++ rest)))).length + 2, rfl, ?_⟩
    simp only [List.length_append, List.length_cons]
    omega
  have keyed : key? (k ++ (ws ++ '=' :: (ws' ++ (v ++ rest)))) =
      some ([key], '=' :: (ws' ++ (v ++ rest))) :=
    named.keyParts? before 78
  have assignment : assignment? (fuel + 1) deepest (k ++ (ws ++ '=' :: (ws' ++ (v ++ rest)))) =
      some (([key], x), rest) := by
    simp only [assignment?, keyed, value, spells.value? apart bound, Option.map_some]
  obtain ⟨c, r, rfl, -, bracket⟩ := named.starts
  unfold Toml.statement?
  split
  · rename_i same
    exact absurd (List.cons.inj same).1 bracket
  · rename_i same
    exact absurd (List.cons.inj same).1 bracket
  · rw [long, assignment]
    rfl

/-! ### Lines -/

theorem Note.dropWhile {note : List Char} (noted : Note note)
    (stop : ∀ d ∈ s.head?, isPlain d = false ∧ d ≠ '#') :
    (if (note ++ s).head? = some '#' then (note ++ s).dropWhile isPlain else note ++ s) = s := by
  cases noted with
  | none =>
    rw [List.nil_append, if_neg]
    intro comment
    exact (stop '#' comment).2 rfl
  | @comment t plain =>
    have comment : ('#' :: t ++ s).head? = some '#' := rfl
    rw [if_pos comment]
    apply dropWhile_append_stop
    · exact List.forall_mem_cons.mpr ⟨by decide, plain⟩
    · exact fun d first => (stop d first).1

theorem Note.head {note : List Char} (noted : Note note) (s : List Char)
    (stop : ∀ d ∈ s.head?, d ≠ ' ' ∧ d ≠ '\t') : ∀ d ∈ (note ++ s).head?, d ≠ ' ' ∧ d ≠ '\t' := by
  cases noted with
  | none => exact stop
  | comment => simp

theorem LineEnds.lineEnd? (ends : LineEnds e rest) : lineEnd? (e ++ rest) = some rest := by
  cases ends with
  | @newline ws note nl rest blank noted ends =>
    have stop : ∀ d ∈ (nl ++ rest).head?, isPlain d = false ∧ d ≠ '#' := by
      intro d first
      rcases ends.head _ d first with rfl | rfl <;> decide
    have stop' : ∀ d ∈ (nl ++ rest).head?, d ≠ ' ' ∧ d ≠ '\t' := by
      intro d first
      rcases ends.head _ d first with rfl | rfl <;> decide
    have nonempty : nl ++ rest ≠ [] := by cases ends <;> simp
    rw [List.append_assoc, List.append_assoc]
    simp only [Toml.lineEnd?, skipBlank_append blank (noted.head _ stop'), noted.dropWhile stop,
      if_neg nonempty, newline?_append ends]
  | @last ws note blank noted =>
    have skipped := skipBlank_append blank (noted.head [] (by simp))
    have dropped := noted.dropWhile (s := []) (by simp)
    simp only [List.append_nil] at skipped dropped ⊢
    simp only [Toml.lineEnd?, skipped, dropped, ↓reduceIte]

theorem LineEnds.head (ends : LineEnds e rest) :
    ∀ d ∈ (e ++ rest).head?, d = ' ' ∨ d = '\t' ∨ d = '#' ∨ d = '\n' ∨ d = '\r' := by
  cases ends with
  | @newline ws note nl rest blank noted ends =>
    rw [List.append_assoc, List.append_assoc]
    refine blank.head (.inl rfl) (.inr (.inl rfl)) ?_
    intro d first
    cases noted with
    | none => exact .inr (.inr (.inr (ends.head _ d first)))
    | comment =>
      cases Option.some.inj first
      exact .inr (.inr (.inl rfl))
  | @last ws note blank noted =>
    rw [List.append_assoc]
    refine blank.head (.inl rfl) (.inr (.inl rfl)) ?_
    intro d first
    cases noted with
    | none => cases first
    | comment =>
      cases Option.some.inj first
      exact .inr (.inr (.inl rfl))

theorem LineEnds.apart (ends : LineEnds e rest) : Apart (e ++ rest) := by
  intro d first
  rcases ends.head d first with rfl | rfl | rfl | rfl | rfl <;> decide

theorem LineEnds.eq_nil (ends : LineEnds e rest) (empty : e = []) : rest = [] := by
  cases ends with
  | newline blank noted ends => cases ends <;> simp at empty
  | last => rfl

/-- No line ends where a statement begins. -/
theorem Begins.lineEnd? (begins : Begins c) (t : List Char) : lineEnd? (c :: t) = none := by
  obtain ⟨space, tab, comment, feed, ret, -⟩ := begins.ne
  have front : skipBlank (c :: t) = c :: t := skipBlank_of_head (by simp [space, tab])
  have noEnd : newline? (c :: t) = none := newline?_eq_none (by simp [feed, ret])
  simp [Toml.lineEnd?, front, comment, noEnd]

end Statements

/-! ### Texts -/

section Texts

variable {s e rest : List Char} {c : Char} {t ws : List Char} {st : Statement}
  {sts : List Statement} {fuel : Nat}

theorem statements?_cons (blank : Blank ws) (begins : Begins c)
    (reads : statement? (c :: (t ++ (e ++ rest))) = some (st, e ++ rest))
    (ends : LineEnds e rest) (more : statements? fuel rest = some sts) :
    statements? (fuel + 1) (ws ++ (c :: (t ++ (e ++ rest)))) = some (st :: sts) := by
  have front : skipBlank (ws ++ (c :: (t ++ (e ++ rest)))) = c :: (t ++ (e ++ rest)) :=
    skipBlank_append blank (by simp [begins.ne])
  simp only [statements?, front, begins.lineEnd?, reads, ends.lineEnd?, Option.bind_some, more,
    Option.map_some]

theorem skipBlank_skipBlank (s : List Char) : skipBlank (skipBlank s) = skipBlank s :=
  List.dropWhile_idempotent _ s

theorem lineEnd?_skipBlank (s : List Char) : lineEnd? (skipBlank s) = lineEnd? s := by
  rw [lineEnd?, skipBlank_skipBlank, lineEnd?]

theorem statements?_blank (ends : LineEnds e rest)
    (more : ∀ fuel, rest.length < fuel → statements? fuel rest = some sts)
    (enough : (e ++ rest).length < fuel) : statements? fuel (e ++ rest) = some sts := by
  obtain ⟨fuel, rfl⟩ : ∃ n, fuel = n + 1 := ⟨fuel - 1, by omega⟩
  have ended := ends.lineEnd?
  rw [← lineEnd?_skipBlank] at ended
  cases front : skipBlank (e ++ rest) with
  | nil =>
    rw [front] at ended
    cases Option.some.inj ended
    have none : some [] = some sts := more 1 (by simp)
    simp only [statements?, front, none]
  | cons d r =>
    rw [front] at ended
    have shorter : rest.length < fuel := by
      rw [List.length_append] at enough
      cases e with
      | nil =>
        rw [ends.eq_nil rfl] at front
        simp [skipBlank] at front
      | cons d e =>
        rw [List.length_cons] at enough
        omega
    simp only [statements?, front, ended, more fuel shorter]

theorem Says.statements? (written : Says s sts) (enough : s.length < fuel) :
    statements? fuel s = some sts := by
  induction written generalizing fuel with
  | nil =>
    obtain ⟨fuel, rfl⟩ : ∃ n, fuel = n + 1 := ⟨fuel - 1, by omega⟩
    rfl
  | blank ends more ih => exact statements?_blank ends (fun fuel enough => ih enough) enough
  | assign blank assigns ends more ih =>
    have reads := assigns.statement? ends.apart
    obtain ⟨c, r, rfl, begins⟩ := assigns.starts
    obtain ⟨fuel, rfl⟩ : ∃ n, fuel = n + 1 := ⟨fuel - 1, by omega⟩
    simp only [List.length_append, List.length_cons] at enough
    exact statements?_cons blank begins reads ends (ih (by omega))
  | other blank begins reads ends more ih =>
    obtain ⟨fuel, rfl⟩ : ∃ n, fuel = n + 1 := ⟨fuel - 1, by omega⟩
    simp only [List.length_append, List.length_cons] at enough
    exact statements?_cons blank begins reads ends (ih (by omega))

theorem Says.unmarked (written : Says s sts) : s.head? ≠ some '\uFEFF' := by
  have front {ws : List Char} (blank : Blank ws) {c : Char} (begins : Begins c) (r : List Char) :
      ∀ d ∈ (ws ++ c :: r).head?, d ≠ '\uFEFF' := by
    refine blank.head (by decide) (by decide) ?_
    intro d first
    cases Option.some.inj first
    exact begins.ne.2.2.2.2.2
  intro marked
  cases written with
  | nil => cases marked
  | blank ends => exact absurd (ends.head _ marked) (by decide)
  | assign blank assigns =>
    obtain ⟨c, r, rfl, begins⟩ := assigns.starts
    exact front blank begins _ _ marked rfl
  | other blank begins => exact front blank begins _ _ marked rfl

/-- **A text is read as the table that its statements make.** -/
theorem Document.read? (document : Document s sts) : read? s = ofStatements? sts := by
  cases document with
  | plain written =>
    simp only [Toml.read?, if_neg written.unmarked, written.statements? (Nat.lt_succ_self _),
      Option.bind_some]
  | marked written =>
    simp only [Toml.read?, List.head?_cons, ↓reduceIte, List.tail_cons,
      written.statements? (Nat.lt_succ_self _), Option.bind_some]

end Texts

end SymbolNav.Toml
