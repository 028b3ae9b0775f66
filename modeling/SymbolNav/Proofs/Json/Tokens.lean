/-
  SymbolNav/Proofs/Json/Tokens.lean
  =================================
  **Printed values, token by token.**

  The tokens of a value (`Json.tokens`) say nothing of layout and escapes.  A value
  that is printed at any depth is scanned into its tokens (`tokensOnto_printAt`):
  what is laid out between the tokens are gaps, and a string has its escapes undone
  (`tokensOnto_printString`).

  A word is over only when a character follows that belongs to no word, or the text
  ends.  That is what is asked of the text behind a value (`Stops`); within a value it
  is always so.
-/
import SymbolNav.Json.Printer
import SymbolNav.Json.Token
import SymbolNav.Proofs.Text.Decimal

namespace SymbolNav.Json

open Text

/-! ### The tokens of a value -/

mutual

def tokens : Json → List Token
  | .null => [.word ['n', 'u', 'l', 'l']]
  | .bool true => [.word ['t', 'r', 'u', 'e']]
  | .bool false => [.word ['f', 'a', 'l', 's', 'e']]
  | .int n => [.word (toString n).toList]
  | .decimal literal => [.word literal.toList]
  | .str s => [.text s.toList]
  | .arr [] => [.mark '[', .mark ']']
  | .arr (x :: xs) => .mark '[' :: tokens x ++ itemTokens xs ++ [.mark ']']
  | .obj [] => [.mark '\x7b', .mark '\x7d']
  | .obj ((k, v) :: ms) =>
    .mark '\x7b' :: .text k.toList :: .mark ':' :: tokens v ++ memberTokens ms ++ [.mark '\x7d']

/-- The tokens of the items behind the first one. -/
def itemTokens : List Json → List Token
  | [] => []
  | x :: xs => .mark ',' :: tokens x ++ itemTokens xs

/-- The tokens of the members behind the first one. -/
def memberTokens : List (String × Json) → List Token
  | [] => []
  | (k, v) :: ms => .mark ',' :: .text k.toList :: .mark ':' :: tokens v ++ memberTokens ms

end

/-- Every number in the value is a whole one. -/
inductive Whole : Json → Prop
  | null : Whole .null
  | bool (b : Bool) : Whole (.bool b)
  | int (n : Int) : Whole (.int n)
  | str (s : String) : Whole (.str s)
  | arr {items : List Json} (whole : ∀ x ∈ items, Whole x) : Whole (.arr items)
  | obj {members : List (String × Json)} (whole : ∀ m ∈ members, Whole m.2) :
      Whole (.obj members)

/-! ### Marks, gaps and words -/

/-- Whether the character ends a word. -/
def endsWord (c : Char) : Bool := isGap c || isMark c || c = '"'

/-- No word goes on at the beginning of the text. -/
def Stops (s : List Char) : Prop := ∀ c ∈ s.head?, endsWord c = true

theorem stops_nil : Stops [] := by
  intro c member
  cases member

theorem stops_cons {c : Char} {s : List Char} (ends : endsWord c = true) : Stops (c :: s) := by
  intro d member
  cases Option.some.inj member
  exact ends

section Scanning

variable {done : List Token} {rest : List Char}

theorem tokensOnto_mark {c : Char} (mark : isMark c = true) :
    tokensOnto done .between (c :: rest) = tokensOnto (.mark c :: done) .between rest := by
  have solid : isGap c = false := by
    simp only [isMark, Bool.or_eq_true, decide_eq_true_eq] at mark
    rcases mark with ((((rfl | rfl) | rfl) | rfl) | rfl) | rfl <;> decide
  simp [tokensOnto, scan, start, mark, solid]

theorem tokensOnto_gap {c : Char} (gap : isGap c = true) :
    tokensOnto done .between (c :: rest) = tokensOnto done .between rest := by
  simp [tokensOnto, scan, start, gap]

theorem tokensOnto_gaps {s : List Char} (gaps : ∀ c ∈ s, isGap c = true) :
    tokensOnto done .between (s ++ rest) = tokensOnto done .between rest := by
  induction s with
  | nil => rfl
  | cons c s ih =>
    rw [List.cons_append, tokensOnto_gap (gaps c List.mem_cons_self)]
    apply ih
    intro d member
    exact gaps d (List.mem_cons_of_mem c member)

theorem isGap_of_mem_lineBreak {depth : Option Nat} {c : Char} (member : c ∈ lineBreak depth) :
    isGap c = true := by
  cases depth with
  | none => cases member
  | some d =>
    rcases List.mem_cons.mp member with rfl | blank
    · rfl
    · cases List.eq_of_mem_replicate blank
      rfl

theorem tokensOnto_lineBreak (depth : Option Nat) :
    tokensOnto done .between (lineBreak depth ++ rest) = tokensOnto done .between rest := by
  apply tokensOnto_gaps
  intro c member
  exact isGap_of_mem_lineBreak member

theorem tokensOnto_colon (depth : Option Nat) :
    tokensOnto done .between (colon depth ++ rest) =
      tokensOnto (.mark ':' :: done) .between rest := by
  cases depth with
  | none => exact tokensOnto_mark rfl
  | some d =>
    rw [colon, List.cons_append, tokensOnto_mark rfl]
    exact tokensOnto_gap rfl

theorem stops_lineBreak (depth : Option Nat) {s : List Char} (stops : Stops s) :
    Stops (lineBreak depth ++ s) := by
  cases depth with
  | none => exact stops
  | some d => exact stops_cons rfl

/-- A word goes on as long as its characters do. -/
theorem tokensOnto_inWord {read w : List Char} (inner : ∀ c ∈ w, endsWord c = false) :
    tokensOnto done (.word read) (w ++ rest) =
      tokensOnto done (.word (w.reverse ++ read)) rest := by
  induction w generalizing read with
  | nil => rfl
  | cons c w ih =>
    have goesOn : endsWord c = false := inner c List.mem_cons_self
    rw [endsWord] at goesOn
    have others : ∀ d ∈ w, endsWord d = false := by
      intro d member
      exact inner d (List.mem_cons_of_mem c member)
    simpa [tokensOnto, scan, goesOn] using ih others

/-- A word is over where the text stops. -/
theorem tokensOnto_endOfWord {read : List Char} (stops : Stops rest) :
    tokensOnto done (.word read) rest = tokensOnto (.word read.reverse :: done) .between rest := by
  cases rest with
  | nil => simp [tokensOnto, Scan.atEnd?]
  | cons c rest =>
    have ends : endsWord c = true := stops c rfl
    rw [endsWord] at ends
    simp [tokensOnto, scan, ends]

theorem inner_of_all {w : List Char} (all : w.all (fun c => !endsWord c) = true) :
    ∀ c ∈ w, endsWord c = false := by
  intro c member
  have inner := List.all_eq_true.mp all c member
  rwa [Bool.not_eq_true'] at inner

theorem tokensOnto_word {w : List Char} (nonempty : w ≠ [])
    (inner : ∀ c ∈ w, endsWord c = false) (stops : Stops rest) :
    tokensOnto done .between (w ++ rest) = tokensOnto (.word w :: done) .between rest := by
  cases w with
  | nil => exact absurd rfl nonempty
  | cons c w =>
    have begins : endsWord c = false := inner c List.mem_cons_self
    have others : ∀ d ∈ w, endsWord d = false := by
      intro d member
      exact inner d (List.mem_cons_of_mem c member)
    simp only [endsWord, Bool.or_eq_false_iff, decide_eq_false_iff_not] at begins
    have first : start c = ([], .word [c]) := by
      simp [start, begins]
    simp only [List.cons_append, tokensOnto, scan, first, List.reverse_nil, List.nil_append]
    rw [tokensOnto_inWord others, tokensOnto_endOfWord stops]
    simp

/-! ### Strings -/

theorem hexValue?_hexDigit : ∀ n < 16, hexValue? (hexDigit n) = some n := by
  decide

/-- A character is read from its escape, or from itself. -/
theorem tokensOnto_escapeChar (read : List Char) (c : Char) :
    tokensOnto done (.text read none .plain) (escapeChar c ++ rest) =
      tokensOnto done (.text (c :: read) none .plain) rest := by
  unfold escapeChar
  split
  case isTrue quoted =>
    have undone : escaped? c = some c := by
      rcases quoted with rfl | rfl <;> rfl
    have other : c ≠ 'u' := by
      rcases quoted with rfl | rfl <;> decide
    simp [tokensOnto, scan, undone, other]
  split
  case isTrue back => subst back; rfl
  split
  case isTrue feed => subst feed; rfl
  split
  case isTrue line => subst line; rfl
  split
  case isTrue return_ => subst return_; rfl
  split
  case isTrue tab => subst tab; rfl
  split
  case isTrue control =>
    have zero : hexValue? '0' = some 0 := rfl
    have high := hexValue?_hexDigit (c.toNat / 16) (by omega)
    have low := hexValue?_hexDigit (c.toNat % 16) (by omega)
    have whole : c.toNat / 16 * 16 + c.toNat % 16 = c.toNat := by omega
    have numbered : numbered read none c.toNat = some (.text (c :: read) none .plain) := by
      have surrogate : ¬(0xD800 ≤ c.toNat ∧ c.toNat < 0xDC00) := by omega
      have surrogate' : ¬(0xDC00 ≤ c.toNat ∧ c.toNat < 0xE000) := by omega
      simp [Json.numbered, surrogate, surrogate', Char.ofNat_toNat]
    simp [tokensOnto, scan, zero, high, low, whole, numbered]
  case isFalse quoted _ _ _ _ _ printable =>
    have unquoted : c ≠ '"' ∧ c ≠ '\\' := not_or.mp quoted
    simp [tokensOnto, scan, unquoted.1, unquoted.2, printable]

theorem tokensOnto_escaped (read s : List Char) :
    tokensOnto done (.text read none .plain) (s.flatMap escapeChar ++ rest) =
      tokensOnto done (.text (s.reverse ++ read) none .plain) rest := by
  induction s generalizing read with
  | nil => rfl
  | cons c s ih =>
    rw [List.flatMap_cons, List.append_assoc, tokensOnto_escapeChar, ih]
    simp

/-- **A printed string is scanned into the string**, with all escapes undone. -/
theorem tokensOnto_printString (s : String) :
    tokensOnto done .between (printString s ++ rest) =
      tokensOnto (.text s.toList :: done) .between rest := by
  have opens : start '"' = ([], .text [] none .plain) := rfl
  simp only [printString, List.cons_append, List.append_assoc, tokensOnto, scan, opens,
    List.reverse_nil, List.nil_append]
  rw [tokensOnto_escaped]
  simp [tokensOnto, scan]

/-! ### Values -/

theorem endsWord_of_isDigit {c : Char} (digit : c.isDigit = true) : endsWord c = false := by
  have other {d : Char} (solid : d.isDigit = false) : c ≠ d := by
    intro same
    rw [same, solid] at digit
    cases digit
  simp [endsWord, isGap, isMark, other (d := ' ') rfl, other (d := '\t') rfl,
    other (d := '\n') rfl, other (d := '\r') rfl, other (d := '[') rfl, other (d := ']') rfl,
    other (d := '\x7b') rfl, other (d := '\x7d') rfl, other (d := ',') rfl,
    other (d := ':') rfl, other (d := '"') rfl]

theorem toList_toString_negSucc (m : Nat) :
    (toString (Int.negSucc m)).toList = '-' :: (toString (m + 1)).toList := by
  have whole : toString (Int.negSucc m) = "-" ++ toString (m + 1) := rfl
  rw [whole, String.toList_append]
  rfl

/-- A whole number is printed as one word. -/
theorem tokensOnto_int (n : Int) (stops : Stops rest) :
    tokensOnto done .between ((toString n).toList ++ rest) =
      tokensOnto (.word (toString n).toList :: done) .between rest := by
  have digits (m : Nat) : ∀ c ∈ (toString m).toList, endsWord c = false := by
    intro c member
    exact endsWord_of_isDigit ((isDecimal_toString m).digits c member)
  cases n with
  | ofNat m => exact tokensOnto_word (isDecimal_toString m).nonempty (digits m) stops
  | negSucc m =>
    rw [toList_toString_negSucc]
    apply tokensOnto_word (List.cons_ne_nil _ _) _ stops
    exact List.forall_mem_cons.mpr ⟨rfl, digits (m + 1)⟩

end Scanning

/-- Printed at any depth, the value is scanned into its tokens. -/
def Scanned (j : Json) : Prop :=
  ∀ (depth : Option Nat) (done : List Token) (rest : List Char), Stops rest →
    tokensOnto done .between (printAt depth j ++ rest) =
      tokensOnto (j.tokens.reverse ++ done) .between rest

section Scanned

variable {done : List Token} {rest : List Char}

theorem stops_printItems (depth : Option Nat) (xs : List Json) (stops : Stops rest) :
    Stops (printItems depth xs ++ rest) := by
  cases xs with
  | nil => simpa [printItems] using stops
  | cons x xs => exact stops_cons rfl

theorem stops_printMembers (depth : Option Nat) (ms : List (String × Json)) (stops : Stops rest) :
    Stops (printMembers depth ms ++ rest) := by
  cases ms with
  | nil => simpa [printMembers] using stops
  | cons m ms => exact stops_cons rfl

theorem tokensOnto_printItems {xs : List Json} (scanned : ∀ x ∈ xs, Scanned x)
    (depth : Option Nat) (stops : Stops rest) :
    tokensOnto done .between (printItems depth xs ++ rest) =
      tokensOnto ((itemTokens xs).reverse ++ done) .between rest := by
  induction xs generalizing done with
  | nil => simp [printItems, itemTokens]
  | cons x xs ih =>
    have others : ∀ y ∈ xs, Scanned y := by
      intro y member
      exact scanned y (List.mem_cons_of_mem x member)
    simp only [printItems, List.cons_append, List.append_assoc]
    rw [tokensOnto_mark rfl, tokensOnto_lineBreak,
      scanned x List.mem_cons_self depth _ _ (stops_printItems depth xs stops), ih others]
    simp [itemTokens]

theorem tokensOnto_printMembers {ms : List (String × Json)} (scanned : ∀ m ∈ ms, Scanned m.2)
    (depth : Option Nat) (stops : Stops rest) :
    tokensOnto done .between (printMembers depth ms ++ rest) =
      tokensOnto ((memberTokens ms).reverse ++ done) .between rest := by
  induction ms generalizing done with
  | nil => simp [printMembers, memberTokens]
  | cons m ms ih =>
    obtain ⟨k, v⟩ := m
    have others : ∀ m ∈ ms, Scanned m.2 := by
      intro m member
      exact scanned m (List.mem_cons_of_mem _ member)
    have value : Scanned v := scanned (k, v) List.mem_cons_self
    simp only [printMembers, List.cons_append, List.append_assoc]
    rw [tokensOnto_mark rfl, tokensOnto_lineBreak, tokensOnto_printString, tokensOnto_colon,
      value depth _ _ (stops_printMembers depth ms stops), ih others]
    simp [memberTokens]

end Scanned

/-- **A printed value is scanned into its tokens**, on one line or laid out over several. -/
theorem Whole.scanned {j : Json} (whole : Whole j) : Scanned j := by
  induction whole with
  | null =>
    intro depth done rest stops
    rw [printAt]
    exact tokensOnto_word (List.cons_ne_nil _ _) (inner_of_all rfl) stops
  | bool b =>
    intro depth done rest stops
    cases b with
    | false =>
      rw [printAt]
      exact tokensOnto_word (List.cons_ne_nil _ _) (inner_of_all rfl) stops
    | true =>
      rw [printAt]
      exact tokensOnto_word (List.cons_ne_nil _ _) (inner_of_all rfl) stops
  | int n =>
    intro depth done rest stops
    simpa [printAt, tokens] using tokensOnto_int n stops
  | str s =>
    intro depth done rest stops
    simpa [printAt, tokens] using tokensOnto_printString s
  | @arr items whole scanned =>
    intro depth done rest stops
    cases items with
    | nil =>
      simp only [printAt, List.cons_append, List.nil_append]
      rw [tokensOnto_mark rfl, tokensOnto_mark rfl]
      rfl
    | cons x xs =>
      have others : ∀ y ∈ xs, Scanned y := by
        intro y member
        exact scanned y (List.mem_cons_of_mem x member)
      have closing : Stops (lineBreak depth ++ ']' :: rest) :=
        stops_lineBreak depth (stops_cons rfl)
      simp only [printAt, List.cons_append, List.append_assoc, List.nil_append]
      rw [tokensOnto_mark rfl, tokensOnto_lineBreak,
        scanned x List.mem_cons_self _ _ _ (stops_printItems _ xs closing),
        tokensOnto_printItems others _ closing, tokensOnto_lineBreak, tokensOnto_mark rfl]
      simp [tokens]
  | @obj members whole scanned =>
    intro depth done rest stops
    cases members with
    | nil =>
      simp only [printAt, List.cons_append, List.nil_append]
      rw [tokensOnto_mark rfl, tokensOnto_mark rfl]
      rfl
    | cons m ms =>
      obtain ⟨k, v⟩ := m
      have others : ∀ m ∈ ms, Scanned m.2 := by
        intro m member
        exact scanned m (List.mem_cons_of_mem _ member)
      have value : Scanned v := scanned (k, v) List.mem_cons_self
      have closing : Stops (lineBreak depth ++ '\x7d' :: rest) :=
        stops_lineBreak depth (stops_cons rfl)
      simp only [printAt, List.cons_append, List.append_assoc, List.nil_append]
      rw [tokensOnto_mark rfl, tokensOnto_lineBreak, tokensOnto_printString, tokensOnto_colon,
        value _ _ _ (stops_printMembers _ ms closing),
        tokensOnto_printMembers others _ closing, tokensOnto_lineBreak, tokensOnto_mark rfl]
      simp [tokens]

theorem tokens?_printAt {j : Json} (whole : Whole j) (depth : Option Nat) :
    tokens? (printAt depth j) = some j.tokens := by
  have scanned := whole.scanned depth [] [] stops_nil
  simpa [tokens?, tokensOnto, Scan.atEnd?] using scanned

end SymbolNav.Json
