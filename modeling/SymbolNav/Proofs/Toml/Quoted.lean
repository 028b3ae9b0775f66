/-
  SymbolNav/Proofs/Toml/Quoted.lean
  =================================
  **A string comes back from every form in which it is written.**

  Each of the forms is one of the spellings of the string (`stringSpells_printText`),
  so that the reader needs no second look.  Between three marks the number of marks
  that stand directly in front goes along with the induction: it is what the writer
  counts, and what a spelling allows two of.
-/
import SymbolNav.Proofs.Toml.Spelling
import SymbolNav.Toml.Printer

namespace SymbolNav.Toml

/-! ### Characters between double marks -/

theorem isPlain_of_not_needsEscape {c : Char} (h : needsEscape c = false) (line : c ≠ '\n') :
    isPlain c = true := by
  simp only [needsEscape, Bool.or_eq_false_iff, Bool.and_eq_false_iff, decide_eq_false_iff_not,
    not_not] at h
  simp only [isPlain, Bool.or_eq_true, Bool.and_eq_true, decide_eq_true_eq]
  obtain ⟨low | tab, del⟩ := h
  · by_cases tab : c = '\t'
    · exact .inl tab
    · rcases low with low | tab'
      · exact .inr ⟨by omega, del⟩
      · exact absurd tab' tab
  · exact absurd tab line

theorem upperHexDigit_listed : ∀ v < 16, (upperHexDigit v, v) ∈ digitValues := by
  decide

theorem escape_hex {c : Char} (h : needsEscape c = true) :
    Escape ['u', '0', '0', upperHexDigit (c.toNat / 16), upperHexDigit (c.toNat % 16)] c := by
  have control : c.toNat < 128 := by
    simp only [needsEscape, Bool.or_eq_true, Bool.and_eq_true, decide_eq_true_eq] at h
    rcases h with ⟨⟨low, -⟩, -⟩ | rfl
    · omega
    · decide
  have zero : ('0', 0) ∈ digitValues := .head _
  have high := upperHexDigit_listed (c.toNat / 16) (by omega)
  have low := upperHexDigit_listed (c.toNat % 16) (by omega)
  have digits : Digits 16 0
      ['0', '0', upperHexDigit (c.toNat / 16), upperHexDigit (c.toNat % 16)] c.toNat := by
    have last : Digits 16 (((0 * 16 + 0) * 16 + 0) * 16 + c.toNat / 16)
        [upperHexDigit (c.toNat % 16)] c.toNat := by
      have last : Digits 16 (c.toNat / 16) [upperHexDigit (c.toNat % 16)]
          (c.toNat / 16 * 16 + c.toNat % 16) := .last low (Nat.mod_lt _ (by decide))
      simpa [Nat.div_add_mod'] using last
    exact .next zero (by decide) (.next zero (by decide) (.next high (by omega) last))
  refine .number (.inl ⟨rfl, rfl⟩) ?_ digits
  simp [(ne_line_of_listed high).symm, (ne_line_of_listed low).symm]

theorem basicChar_cases {c : Char} (line : c ≠ '\n') :
    (∃ e, basicChar c = '\\' :: e ∧ Escape e c) ∨
      (basicChar c = [c] ∧ isPlain c = true ∧ c ≠ '\\') := by
  unfold basicChar
  split
  · rename_i same; subst same; exact .inl ⟨_, rfl, .short (by decide)⟩
  split
  · rename_i same; subst same; exact .inl ⟨_, rfl, .short (by decide)⟩
  split
  · rename_i same; subst same; exact .inl ⟨_, rfl, .short (by decide)⟩
  split
  · rename_i same; subst same; exact .inl ⟨_, rfl, .short (by decide)⟩
  split
  · rename_i same; subst same; exact .inl ⟨_, rfl, .short (by decide)⟩
  rename_i backslash
  split
  · rename_i control
    exact .inl ⟨_, rfl, escape_hex control⟩
  · rename_i free
    exact .inr ⟨rfl, isPlain_of_not_needsEscape (by simpa using free) line, backslash⟩

/-! ### Between the marks -/

section Spells

variable {s : List Char} {k : Nat}

theorem lineSpells_basicText (line : '\n' ∉ s) : LineSpells '"' (basicText 1 0 s) s := by
  induction s with
  | nil => exact .nil
  | cons c s ih =>
    simp only [List.mem_cons, not_or] at line
    have next := ih line.2
    by_cases quote : c = '"'
    · subst quote
      exact .escape rfl (.short (by decide)) next
    · rw [basicText, if_neg quote, if_neg (Ne.symm line.1)]
      rcases basicChar_cases (Ne.symm line.1) with ⟨e, escaped, undone⟩ | ⟨same, plain, backslash⟩
      · rw [escaped]
        exact .escape rfl undone next
      · rw [same]
        exact .plain quote plain (fun h => absurd h backslash) next

theorem lineSpells_literal (line : '\n' ∉ s) (free : '\x27' ∉ s)
    (plain : s.any needsEscape = false) : LineSpells '\x27' s s := by
  refine .self free (List.all_eq_true.mpr ?_) (fun _ => by decide)
  intro c member
  have unescaped : needsEscape c = false := by simpa using List.any_eq_false.mp plain c member
  apply isPlain_of_not_needsEscape unescaped
  rintro rfl
  exact line member

theorem blockSpells_basicText (s : List Char) (few : k < 3) :
    BlockSpells '"' k (basicText 3 k s) s := by
  induction s generalizing k with
  | nil => exact .nil
  | cons c s ih =>
    have next : BlockSpells '"' 0 (basicText 3 0 s) s := ih (by decide)
    by_cases quote : c = '"'
    · subst quote
      by_cases full : k + 1 = 3
      · rw [basicText, if_pos rfl, if_pos full]
        exact .escape rfl (.short (by decide)) next
      · rw [basicText, if_pos rfl, if_neg full]
        have spare : k + 1 < 3 := by omega
        exact .mark spare (ih spare)
    · by_cases line : c = '\n'
      · subst line
        exact .newline .feed next
      · rw [basicText, if_neg quote, if_neg line]
        rcases basicChar_cases line with ⟨e, escaped, undone⟩ | ⟨same, plain, backslash⟩
        · rw [escaped]
          exact .escape rfl undone next
        · rw [same]
          exact .plain quote plain (fun h => absurd h backslash) next

theorem blockSpells_literal (free : threeInRow '\x27' k s = false)
    (plain : s.any needsEscape = false) (few : k < 3) : BlockSpells '\x27' k s s := by
  induction s generalizing k with
  | nil => exact .nil
  | cons c s ih =>
    simp only [List.any_cons, Bool.or_eq_false_iff] at plain
    by_cases quote : c = '\x27'
    · subst quote
      simp only [threeInRow, ↓reduceIte, Bool.or_eq_false_iff, decide_eq_false_iff_not] at free
      have spare : k + 1 < 3 := by omega
      exact .mark spare (ih free.2 plain.2 spare)
    · simp only [threeInRow, quote, ↓reduceIte] at free
      have next := ih free plain.2 (by decide)
      by_cases line : c = '\n'
      · subst line
        exact .newline .feed next
      · exact .plain quote (isPlain_of_not_needsEscape plain.1 line) (fun _ => by decide) next

end Spells

/-! ### The form of a string -/

/-- The form can hold the string. -/
def StringForm.Fits (s : List Char) : StringForm → Prop
  | .basic => '\n' ∉ s
  | .literal => '\n' ∉ s ∧ '\x27' ∉ s ∧ s.any needsEscape = false
  | .basicBlock => True
  | .literalBlock => threeInRow '\x27' 0 s = false ∧ s.any needsEscape = false

theorem StringForm.fits_of (s : List Char) : (StringForm.of s).Fits s := by
  unfold StringForm.of
  dsimp only
  by_cases escapes : s.any needsEscape = true
  · rw [if_pos escapes]
    by_cases lines : '\n' ∈ s
    · rw [if_pos (by simpa using lines)]
      trivial
    · rw [if_neg (by simpa using lines)]
      exact lines
  rw [if_neg escapes]
  have plain : s.any needsEscape = false := by simpa using escapes
  split
  · rename_i easy
    simp only [Bool.and_eq_true, Bool.not_eq_true', List.contains_eq_mem,
      decide_eq_false_iff_not] at easy
    exact easy.2
  split
  · rename_i unquoted
    simp only [Bool.and_eq_true, Bool.not_eq_true', List.contains_eq_mem,
      decide_eq_false_iff_not] at unquoted
    exact ⟨unquoted.2, unquoted.1, plain⟩
  split
  · trivial
  split
  · rename_i apart
    exact ⟨by simpa using apart, plain⟩
  split
  · trivial
  · rename_i line
    show '\n' ∉ s
    simpa using line

/-! ### Whole strings -/

/-- A string with a line feed begins on the line after its opening marks, and any other begins
with a character of its line. -/
theorem openingBreak_opens {s body : List Char}
    (starts : '\n' ∉ s → ∀ d ∈ body.head?, d ≠ '\n' ∧ d ≠ '\r') :
    Newline (openingBreak s) ∨ openingBreak s = [] ∧ ∀ d ∈ body.head?, d ≠ '\n' ∧ d ≠ '\r' := by
  by_cases lines : '\n' ∈ s
  · simp [openingBreak, lines, Newline.feed]
  · exact .inr ⟨by simp [openingBreak, lines], starts lines⟩

theorem head_basicText {s : List Char} (lines : '\n' ∉ s) :
    ∀ d ∈ (basicText 3 0 s).head?, d ≠ '\n' ∧ d ≠ '\r' := by
  cases s with
  | nil => simp [basicText]
  | cons c s =>
    simp only [List.mem_cons, not_or] at lines
    by_cases quote : c = '"'
    · subst quote
      simp [basicText]
    · rw [basicText, if_neg quote, if_neg (Ne.symm lines.1)]
      rcases basicChar_cases (Ne.symm lines.1) with ⟨e, escaped, -⟩ | ⟨same, plain, -⟩
      · simp [escaped]
      · simpa [same] using ne_of_isPlain plain

theorem head_literal {s : List Char} (plain : s.any needsEscape = false) (lines : '\n' ∉ s) :
    ∀ d ∈ s.head?, d ≠ '\n' ∧ d ≠ '\r' := by
  intro d first
  have member := List.mem_of_head? first
  have feed : d ≠ '\n' := by
    rintro rfl
    exact lines member
  exact ne_of_isPlain
    (isPlain_of_not_needsEscape (by simpa using List.any_eq_false.mp plain d member) feed)

/-- **A string is written as one of its spellings**, whatever its form. -/
theorem stringSpells_printText (s : String) : StringSpells (printText s) s.toList := by
  have fits := StringForm.fits_of s.toList
  unfold printText
  cases form : StringForm.of s.toList with
  | basic =>
    rw [form] at fits
    exact .line (.inl rfl) (lineSpells_basicText fits)
  | literal =>
    rw [form] at fits
    obtain ⟨line, free, plain⟩ := fits
    exact .line (.inr rfl) (lineSpells_literal line free plain)
  | basicBlock =>
    have spells := StringSpells.block (.inl rfl) (openingBreak_opens head_basicText)
      (blockSpells_basicText s.toList (k := 0) (by decide))
    simpa [printTextAs] using spells
  | literalBlock =>
    rw [form] at fits
    obtain ⟨free, plain⟩ := fits
    have spells := StringSpells.block (.inr rfl) (openingBreak_opens (head_literal plain))
      (blockSpells_literal free plain (by decide))
    simpa [printTextAs] using spells

end SymbolNav.Toml
