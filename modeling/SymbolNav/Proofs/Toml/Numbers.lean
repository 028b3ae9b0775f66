/-
  SymbolNav/Proofs/Toml/Numbers.lean
  ==================================
  **All that a whole number or a truth value may be written as is read as it.**

  What a number is written as is told digit by digit, from a table of their values
  (`Digits`); all that has to be known about the characters of a number is looked up
  there.  A word is asked first whether it is a date, a time or a number with a
  fraction, and only then whether it is a whole number.  So it has to be shown of each
  spelling that it is nothing else: it holds none of the characters that the others are
  made of, except that a hexadecimal number may hold an `e` and a sign may be a dash.
-/
import SymbolNav.Proofs.Text.Cut
import SymbolNav.Toml.Scalar
import Mathlib.Tactic.Common

namespace SymbolNav.Toml

open Text

/-! ### Spellings -/

/-- The digits of all bases with their values. -/
def digitValues : List (Char × Nat) :=
  [('0', 0), ('1', 1), ('2', 2), ('3', 3), ('4', 4), ('5', 5), ('6', 6), ('7', 7), ('8', 8),
    ('9', 9), ('a', 10), ('b', 11), ('c', 12), ('d', 13), ('e', 14), ('f', 15), ('A', 10),
    ('B', 11), ('C', 12), ('D', 13), ('E', 14), ('F', 15)]

/-- Digits that, behind others of the value `seen`, make up a number in a base; an underscore may
stand between two of them. -/
inductive Digits (base : Nat) : (seen : Nat) → List Char → Nat → Prop
  | last {seen v : Nat} {d : Char} (listed : (d, v) ∈ digitValues) (small : v < base) :
      Digits base seen [d] (seen * base + v)
  | next {seen v n : Nat} {d : Char} {ds : List Char} (listed : (d, v) ∈ digitValues)
      (small : v < base) (rest : Digits base (seen * base + v) ds n) :
      Digits base seen (d :: ds) n
  | apart {seen v n : Nat} {d : Char} {ds : List Char} (listed : (d, v) ∈ digitValues)
      (small : v < base) (rest : Digits base (seen * base + v) ds n) :
      Digits base seen (d :: '_' :: ds) n

inductive Sign : List Char → Bool → Prop
  | none : Sign [] false
  | plus : Sign ['+'] false
  | minus : Sign ['-'] true

/-- The letters of the numbers that are not decimal, with their bases. -/
def bases : List (Char × Nat) := [('x', 16), ('o', 8), ('b', 2)]

/-- All that a whole number may be written as. -/
inductive IntegerSpells : List Char → Int → Prop
  /-- No zero stands before other digits. -/
  | decimal {sign ds : List Char} {negative : Bool} {n : Nat} (signed : Sign sign negative)
      (digits : Digits 10 0 ds n) (zero : ds = ['0'] ∨ ds.head? ≠ some '0') :
      IntegerSpells (sign ++ ds) (if negative then -(n : Int) else n)
  | based {x : Char} {base n : Nat} {ds : List Char} (listed : (x, base) ∈ bases)
      (digits : Digits base 0 ds n) : IntegerSpells ('0' :: x :: ds) n

/-! ### Digits -/

section Digits

variable {base seen n : Nat} {ds : List Char} {p : Char → Bool}

theorem Digits.forall_mem {P : Char → Prop} (digits : Digits base seen ds n)
    (digit : ∀ m ∈ digitValues, m.2 < base → P m.1) (line : P '_') : ∀ c ∈ ds, P c := by
  induction digits with
  | last listed small => simpa using digit _ listed small
  | next listed small rest ih =>
    exact List.forall_mem_cons.mpr ⟨digit _ listed small, ih⟩
  | apart listed small rest ih =>
    exact List.forall_mem_cons.mpr ⟨digit _ listed small, List.forall_mem_cons.mpr ⟨line, ih⟩⟩

theorem Digits.ne_nil (digits : Digits base seen ds n) : ds ≠ [] := by
  cases digits <;> simp

theorem ne_line_of_listed {d : Char} {v : Nat} (listed : (d, v) ∈ digitValues) : d ≠ '_' := by
  have all : ∀ m ∈ digitValues, m.1 ≠ '_' := by decide
  exact all _ listed

theorem digitValue_of_listed {d : Char} {v : Nat} (listed : (d, v) ∈ digitValues) :
    digitValue d = v := by
  have all : ∀ m ∈ digitValues, digitValue m.1 = m.2 := by decide
  exact all _ listed

theorem isGrouped_cons {d : Char} (digit : p d = true) (other : d ≠ '_')
    (grouped : isGrouped p ds = true) : isGrouped p (d :: ds) = true := by
  unfold isGrouped at grouped ⊢
  obtain ⟨w, ws, pieces, more⟩ := exists_splitOn_cons other ds
  rw [pieces] at grouped
  rw [more]
  simp only [List.all_cons, Bool.and_eq_true] at grouped ⊢
  exact ⟨⟨rfl, digit, grouped.1.2⟩, grouped.2⟩

theorem isGrouped_cons_line {d : Char} (digit : p d = true) (other : d ≠ '_')
    (grouped : isGrouped p ds = true) : isGrouped p (d :: '_' :: ds) = true := by
  unfold isGrouped at grouped ⊢
  rw [List.splitOn_cons_eq_if_modifyHead, if_neg (by simpa using other),
    List.splitOn_cons_eq_if_modifyHead, if_pos (by simp)]
  simp [digit, grouped]

theorem Digits.isGrouped (digits : Digits base seen ds n)
    (digit : ∀ m ∈ digitValues, m.2 < base → p m.1 = true) : isGrouped p ds = true := by
  induction digits with
  | @last seen v d listed small =>
    have other := ne_line_of_listed listed
    simp [Toml.isGrouped, List.splitOn_cons_eq_if_modifyHead, other, digit _ listed small]
  | next listed small rest ih =>
    exact isGrouped_cons (digit _ listed small) (ne_line_of_listed listed) ih
  | apart listed small rest ih =>
    exact isGrouped_cons_line (digit _ listed small) (ne_line_of_listed listed) ih

theorem Digits.foldl (digits : Digits base seen ds n) :
    (ds.filter (· ≠ '_')).foldl (fun v d => v * base + digitValue d) seen = n := by
  induction digits with
  | last listed small =>
    simp [ne_line_of_listed listed, digitValue_of_listed listed]
  | next listed small rest ih =>
    simpa [ne_line_of_listed listed, digitValue_of_listed listed] using ih
  | apart listed small rest ih =>
    simpa [ne_line_of_listed listed, digitValue_of_listed listed] using ih

theorem Digits.valueIn (digits : Digits base 0 ds n) : valueIn base ds = n :=
  digits.foldl

theorem Digits.isWhole (digits : Digits 10 0 ds n) (zero : ds = ['0'] ∨ ds.head? ≠ some '0') :
    isWhole ds = true := by
  rw [Toml.isWhole, Bool.and_eq_true, Bool.or_eq_true]
  refine ⟨digits.isGrouped (by decide), ?_⟩
  rcases zero with alone | first
  · exact .inl (by simpa using alone)
  · exact .inr (by simpa using first)

end Digits

/-! ### Neither a date nor a time -/

section Moment

variable {p : Char → Bool} {w : List Char}

theorem cutAt_of_free (free : ∀ c ∈ w, p c = false) : cutAt p w = (w, none) := by
  have all : w.dropWhile (fun c => !p c) = [] := by
    apply List.dropWhile_eq_nil_iff.mpr
    intro c member
    simp [free c member]
  simp [cutAt, all]

theorem isDate_of_short (short : (w.splitOn '-').length < 3) : isDate w = false := by
  unfold isDate
  split
  · rename_i pieces
    simp [pieces] at short
  · rfl

/-- The characters that only times have. -/
def isClock (c : Char) : Bool := c = 'T' || c = 't' || c = ':' || c = '.'

theorem isMoment_of_free (free : ∀ c ∈ w, isClock c = false) (undated : isDate w = false) :
    isMoment w = false := by
  have apart : ∀ c ∈ w, c ≠ 'T' ∧ c ≠ 't' ∧ c ≠ ':' ∧ c ≠ '.' := by
    intro c member
    simpa [isClock, and_assoc] using free c member
  have letter : cutAt (fun c => c = 'T' || c = 't') w = (w, none) := by
    apply cutAt_of_free
    intro c member
    simp [(apart c member).1, (apart c member).2.1]
  have fraction : cutAt (· = '.') w = (w, none) := by
    apply cutAt_of_free
    intro c member
    simp [(apart c member).2.2.2]
  have clock : w.splitOn ':' = [w] :=
    List.splitOn_eq_singleton fun member => (apart _ member).2.2.1 rfl
  simp [isMoment, letter, undated, isTime, fraction, clock]

end Moment

/-! ### Decimal numbers -/

section Decimal

variable {sign ds : List Char} {negative : Bool} {n : Nat}

theorem splitSign_of_head (free : ∀ c ∈ ds.head?, c ≠ '-' ∧ c ≠ '+') :
    splitSign ds = (false, ds) := by
  unfold splitSign
  split
  · exact absurd rfl (free _ rfl).1
  · exact absurd rfl (free _ rfl).2
  · rfl

theorem Sign.splits (signed : Sign sign negative) (digits : Digits 10 0 ds n) :
    splitSign (sign ++ ds) = (negative, ds) := by
  cases signed with
  | none =>
    apply splitSign_of_head
    intro c first
    exact digits.forall_mem (P := fun c => c ≠ '-' ∧ c ≠ '+') (by decide) (by decide) c
      (List.mem_of_head? first)
  | plus => rfl
  | minus => rfl

theorem isDate_decimal (signed : Sign sign negative) (digits : Digits 10 0 ds n) :
    isDate (sign ++ ds) = false := by
  have unsigned : ds.splitOn '-' = [ds] :=
    List.splitOn_eq_singleton fun member =>
      digits.forall_mem (P := (· ≠ '-')) (by decide) (by decide) _ member rfl
  apply isDate_of_short
  cases signed with
  | none => simp [unsigned]
  | plus => simp [List.splitOn_cons_eq_if_modifyHead, unsigned]
  | minus => simp [List.splitOn_cons_eq_if_modifyHead, unsigned]

theorem decimal_forall {P : Char → Prop} (signed : Sign sign negative) (digits : Digits 10 0 ds n)
    (digit : ∀ m ∈ digitValues, m.2 < 10 → P m.1) (line : P '_') (plus : P '+') (minus : P '-') :
    ∀ c ∈ sign ++ ds, P c := by
  have inside := digits.forall_mem digit line
  cases signed with
  | none => exact inside
  | plus => exact List.forall_mem_cons.mpr ⟨plus, inside⟩
  | minus => exact List.forall_mem_cons.mpr ⟨minus, inside⟩

theorem decimal_ne (signed : Sign sign negative) (digits : Digits 10 0 ds n) {w : List Char}
    (letter : ∃ c ∈ w, c.isAlpha = true) : sign ++ ds ≠ w := by
  rintro rfl
  obtain ⟨c, member, letter⟩ := letter
  have letterless := decimal_forall (P := fun c => c.isAlpha = false) signed digits (by decide)
    (by decide) (by decide) (by decide)
  rw [letterless c member] at letter
  cases letter

theorem isFloat_decimal (signed : Sign sign negative) (digits : Digits 10 0 ds n) :
    isFloat (sign ++ ds) = false := by
  have inf : ds ≠ ['i', 'n', 'f'] := decimal_ne .none digits ⟨'i', by simp, rfl⟩
  have nan : ds ≠ ['n', 'a', 'n'] := decimal_ne .none digits ⟨'n', by simp, rfl⟩
  have exponent : cutAt (fun c => c = 'e' || c = 'E') ds = (ds, none) :=
    cutAt_of_free (digits.forall_mem (by decide) (by decide))
  have fraction : cutAt (· = '.') ds = (ds, none) :=
    cutAt_of_free (digits.forall_mem (by decide) (by decide))
  simp [isFloat, signed.splits digits, exponent, fraction, inf, nan]

theorem integer?_decimal (signed : Sign sign negative) (digits : Digits 10 0 ds n)
    (zero : ds = ['0'] ∨ ds.head? ≠ some '0') :
    integer? (sign ++ ds) = inRange? (if negative then -(n : Int) else n) := by
  unfold integer?
  split
  · rename_i same
    exact absurd same (decimal_ne signed digits ⟨'x', by simp, rfl⟩)
  · rename_i same
    exact absurd same (decimal_ne signed digits ⟨'o', by simp, rfl⟩)
  · rename_i same
    exact absurd same (decimal_ne signed digits ⟨'b', by simp, rfl⟩)
  · simp [signed.splits digits, digits.isWhole zero, digits.valueIn]

end Decimal

/-! ### Numbers in another base -/

section Based

variable {x : Char} {base n : Nat} {ds : List Char}

theorem based_forall {P : Char → Prop} (listed : (x, base) ∈ bases) (digits : Digits base 0 ds n)
    (digit : ∀ m ∈ digitValues, P m.1) (line : P '_') (letter : ∀ b ∈ bases, P b.1) :
    ∀ c ∈ '0' :: x :: ds, P c := by
  have inside := digits.forall_mem (fun m member _ => digit m member) line
  simp only [List.forall_mem_cons]
  exact ⟨digit ('0', 0) (.head _), letter _ listed, inside⟩

theorem cutAt_cons {q : Char → Bool} {c : Char} (inside : q c = false) (r : List Char) :
    (cutAt q (c :: r)).1 = c :: (cutAt q r).1 := by
  unfold cutAt
  rw [List.dropWhile_cons, if_pos (by simp [inside])]
  cases r.dropWhile (fun c => !q c) with
  | nil => rfl
  | cons d r' => simp [inside]

theorem isWhole_of_letter (other : x ≠ '_') (letter : x.isDigit = false) (r : List Char) :
    isWhole ('0' :: x :: r) = false := by
  obtain ⟨w, ws, -, inner⟩ := exists_splitOn_cons other r
  have zero : '0' ≠ '_' := by decide
  obtain ⟨w', ws', pieces, outer⟩ := exists_splitOn_cons zero (x :: r)
  rw [inner] at pieces
  cases pieces
  simp [isWhole, isGrouped, outer, letter]

/-- The letter of the base stands where a number with a fraction has digits. -/
theorem isFloat_based (listed : (x, base) ∈ bases) (ds : List Char) :
    isFloat ('0' :: x :: ds) = false := by
  have letters : ∀ b ∈ bases, (b.1 ≠ '_' ∧ b.1.isDigit = false) ∧
      (decide (b.1 = 'e') || decide (b.1 = 'E')) = false ∧ decide (b.1 = '.') = false := by
    decide
  obtain ⟨⟨other, letter⟩, noExponent, noPoint⟩ := letters _ listed
  have unsigned : splitSign ('0' :: x :: ds) = (false, '0' :: x :: ds) := rfl
  obtain ⟨r, mantissa⟩ : ∃ r, (cutAt (fun c => c = 'e' || c = 'E') ('0' :: x :: ds)).1 =
      '0' :: x :: r := by
    rw [cutAt_cons (by decide), cutAt_cons noExponent]
    exact ⟨_, rfl⟩
  obtain ⟨r', whole⟩ : ∃ r', (cutAt (· = '.') ('0' :: x :: r)).1 = '0' :: x :: r' := by
    rw [cutAt_cons (by decide), cutAt_cons noPoint]
    exact ⟨_, rfl⟩
  simp [isFloat, unsigned, mantissa, whole, isWhole_of_letter other letter]

theorem integer?_based (listed : (x, base) ∈ bases) (digits : Digits base 0 ds n) :
    integer? ('0' :: x :: ds) = inRange? n := by
  simp only [bases, List.mem_cons, Prod.mk.injEq, List.not_mem_nil, or_false] at listed
  rcases listed with ⟨rfl, rfl⟩ | ⟨rfl, rfl⟩ | ⟨rfl, rfl⟩
  · have grouped : isGrouped isHexDigit ds = true := digits.isGrouped (by decide)
    simp [integer?, grouped, digits.valueIn]
  · have grouped : isGrouped isOctalDigit ds = true := digits.isGrouped (by decide)
    simp [integer?, grouped, digits.valueIn]
  · have grouped : isGrouped isBinaryDigit ds = true := digits.isGrouped (by decide)
    simp [integer?, grouped, digits.valueIn]

theorem isDate_based (listed : (x, base) ∈ bases) (digits : Digits base 0 ds n) :
    isDate ('0' :: x :: ds) = false := by
  have unsigned : ('0' :: x :: ds).splitOn '-' = ['0' :: x :: ds] :=
    List.splitOn_eq_singleton fun member =>
      based_forall (P := (· ≠ '-')) listed digits (by decide) (by decide) (by decide) _ member rfl
  exact isDate_of_short (by simp [unsigned])

end Based

/-! ### Words -/

/-- A word of this meaning that no time of day can follow. -/
structure Word (w : List Char) (x : Toml) : Prop where
  nonempty : w ≠ []
  chars : ∀ c ∈ w, isWordChar c = true
  means : word? w = some x
  undated : isDate w = false

section Word

variable {w rest : List Char} {x : Toml} {n : Int}

theorem Word.scalar? (word : Word w x) (stop : ∀ d ∈ rest.head?, isWordChar d = false) :
    scalar? (w ++ rest) = some (x, rest) := by
  unfold Toml.scalar?
  rw [takeWhile_append_stop word.chars stop, dropWhile_append_stop word.chars stop]
  simp only [word.undated, word.means, Bool.false_and, Bool.false_eq_true, ↓reduceIte,
    Option.map_some]
  split
  · rfl
  · rfl

theorem IntegerSpells.word (spells : IntegerSpells w n) (least : -integerBound ≤ n)
    (greatest : n < integerBound) : Word w (.integer n) := by
  have range : inRange? n = some (.integer n) := if_pos ⟨least, greatest⟩
  cases spells with
  | @decimal sign ds negative n signed digits zero =>
    have undated := isDate_decimal signed digits
    have timeless := isMoment_of_free
      (decimal_forall signed digits (by decide) (by decide) (by decide) (by decide)) undated
    have yes : sign ++ ds ≠ ['t', 'r', 'u', 'e'] := decimal_ne signed digits ⟨'t', by simp, rfl⟩
    have no : sign ++ ds ≠ ['f', 'a', 'l', 's', 'e'] :=
      decimal_ne signed digits ⟨'f', by simp, rfl⟩
    refine ⟨by simp [digits.ne_nil],
      decimal_forall signed digits (by decide) (by decide) (by decide) (by decide), ?_, undated⟩
    rw [word?, if_neg yes, if_neg no, timeless, isFloat_decimal signed digits,
      integer?_decimal signed digits zero, range]
    rfl
  | @based letter base n ds listed digits =>
    have undated := isDate_based listed digits
    have timeless : isMoment ('0' :: letter :: ds) = false :=
      isMoment_of_free (based_forall listed digits (by decide) (by decide) (by decide)) undated
    refine ⟨by simp, based_forall listed digits (by decide) (by decide) (by decide), ?_, undated⟩
    rw [word?, if_neg (by simp), if_neg (by simp), timeless, isFloat_based listed,
      integer?_based listed digits, range]
    rfl

theorem word_true : Word ['t', 'r', 'u', 'e'] (.flag true) :=
  ⟨by simp, List.all_eq_true.mp rfl, rfl, by decide +kernel⟩

theorem word_false : Word ['f', 'a', 'l', 's', 'e'] (.flag false) :=
  ⟨by simp, List.all_eq_true.mp rfl, rfl, by decide +kernel⟩

end Word

end SymbolNav.Toml
