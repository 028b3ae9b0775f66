/-
  SymbolNav/Proofs/Hit/Grammar.lean
  =================================
  **The lines that are hits**, said without the reader: `Laid` is how such a line
  is laid out, `IsNumeral` what its third field is.

  Because a field has no space and the text between two fields nothing else, the
  three cuts of the reader can be taken back (`field?_append`, `gap?_append`), and
  a line is laid out in one way only.  What is wrong with any other line is the
  first of three things, and the reason names it (`Fault.Explains`).
-/
import SymbolNav.Hit
import SymbolNav.Proofs.Text.Cut
import SymbolNav.Proofs.Text.Decimal

namespace SymbolNav

open Text

namespace HitLine

/-! ### Fields and gaps -/

/-- How a line is laid out: four fields, of which `i` spaces follow the first, `j` the second and
one the third. -/
structure Laid (s : List Char) (f : Fields) (i j : Nat) : Prop where
  line : s = f.file ++ (List.replicate i ' ' ++ (f.symbol ++ (List.replicate j ' ' ++
    (f.number ++ ' ' :: f.rest))))
  file : f.file ≠ [] ∧ ' ' ∉ f.file
  symbol : f.symbol ≠ [] ∧ ' ' ∉ f.symbol
  number : f.number ≠ [] ∧ ' ' ∉ f.number
  rest : '\n' ∉ f.rest
  gaps : 1 ≤ i ∧ 1 ≤ j

theorem field?_append {w r : List Char} (nonempty : w ≠ []) (solid : ' ' ∉ w)
    (stop : ∀ c ∈ r.head?, c = ' ') : field? (w ++ r) = some (w, r) := by
  have inside : ∀ c ∈ w, decide (c ≠ ' ') = true := by
    intro c member
    simp only [decide_eq_true_eq]
    rintro rfl
    exact solid member
  have ends : ∀ c ∈ r.head?, decide (c ≠ ' ') = false := by
    intro c first
    simp [stop c first]
  simp only [field?]
  rw [takeWhile_append_stop inside ends, dropWhile_append_stop inside ends]
  simp [nonempty]

theorem of_field? {s w r : List Char} (h : field? s = some (w, r)) :
    s = w ++ r ∧ w ≠ [] ∧ ' ' ∉ w := by
  simp only [field?] at h
  split at h
  case isTrue => cases h
  case isFalse nonempty =>
    cases Option.some.inj h
    refine ⟨List.takeWhile_append_dropWhile.symm, nonempty, ?_⟩
    intro member
    simpa using List.mem_takeWhile_imp member

theorem gap?_append {n : Nat} {r : List Char} (pos : 1 ≤ n) (stop : ∀ c ∈ r.head?, c ≠ ' ') :
    gap? (List.replicate n ' ' ++ r) = some r := by
  have first : (List.replicate n ' ' ++ r).head? = some ' ' := by
    obtain ⟨n, rfl⟩ : ∃ m, n = m + 1 := ⟨n - 1, by omega⟩
    rfl
  have inside : ∀ c ∈ List.replicate n ' ', decide (c = ' ') = true := by
    intro c member
    simp [List.eq_of_mem_replicate member]
  have ends : ∀ c ∈ r.head?, decide (c = ' ') = false := by
    intro c first
    simp [stop c first]
  rw [gap?, if_pos first, dropWhile_append_stop inside ends]

theorem of_gap? {s r : List Char} (h : gap? s = some r) :
    ∃ n, s = List.replicate n ' ' ++ r ∧ 1 ≤ n := by
  simp only [gap?] at h
  split at h
  case isFalse => cases h
  case isTrue first =>
    cases Option.some.inj h
    refine ⟨(s.takeWhile (· = ' ')).length, ?_, ?_⟩
    · have all : s.takeWhile (· = ' ') = List.replicate (s.takeWhile (· = ' ')).length ' ' := by
        apply List.eq_replicate_of_mem
        intro c member
        simpa using List.mem_takeWhile_imp member
      rw [← all, List.takeWhile_append_dropWhile]
    · cases s with
      | nil => cases first
      | cons c s => cases Option.some.inj first; simp

theorem head_ne_space {w r : List Char} (nonempty : w ≠ []) (solid : ' ' ∉ w) :
    ∀ c ∈ (w ++ r).head?, c ≠ ' ' := by
  intro c first
  cases w with
  | nil => exact absurd rfl nonempty
  | cons d w => cases Option.some.inj first; rintro rfl; simp at solid

theorem head_space {n : Nat} {r : List Char} (pos : 1 ≤ n) :
    ∀ c ∈ (List.replicate n ' ' ++ r).head?, c = ' ' := by
  intro c first
  obtain ⟨n, rfl⟩ : ∃ m, n = m + 1 := ⟨n - 1, by omega⟩
  exact (Option.some.inj first).symm

/-! ### The layout of a line -/

theorem fields?_of_laid {s : List Char} {f : Fields} {i j : Nat} (h : Laid s f i j) :
    fields? s = some f := by
  rw [h.line]
  simp only [fields?]
  rw [field?_append h.file.1 h.file.2 (head_space h.gaps.1)]
  simp only [Option.bind_eq_bind, Option.bind_some]
  rw [gap?_append h.gaps.1 (head_ne_space h.symbol.1 h.symbol.2)]
  simp only [Option.bind_some]
  rw [field?_append h.symbol.1 h.symbol.2 (head_space h.gaps.2)]
  simp only [Option.bind_some]
  rw [gap?_append h.gaps.2 (head_ne_space h.number.1 h.number.2)]
  simp only [Option.bind_some]
  rw [field?_append h.number.1 h.number.2 (by simp)]
  simp [h.rest]

theorem exists_laid_of_fields? {s : List Char} {f : Fields} (h : fields? s = some f) :
    ∃ i j, Laid s f i j := by
  simp only [fields?, Option.bind_eq_bind, Option.bind_eq_some_iff, Prod.exists] at h
  obtain ⟨file, s₁, readFile, s₂, gap₁, symbol, s₃, readSymbol, s₄, gap₂, number, s₅, readNumber,
    readRest⟩ := h
  obtain ⟨rfl, file⟩ := of_field? readFile
  obtain ⟨i, rfl, i_pos⟩ := of_gap? gap₁
  obtain ⟨rfl, symbol⟩ := of_field? readSymbol
  obtain ⟨j, rfl, j_pos⟩ := of_gap? gap₂
  obtain ⟨rfl, number⟩ := of_field? readNumber
  split at readRest
  case h_2 => cases readRest
  case h_1 rest =>
    split at readRest
    case isTrue => cases readRest
    case isFalse unbroken =>
      cases Option.some.inj readRest
      exact ⟨i, j, rfl, file, symbol, number, by simpa using unbroken, i_pos, j_pos⟩

theorem replicate_append_inj {m n : Nat} {a b : List Char}
    (h : List.replicate m ' ' ++ a = List.replicate n ' ' ++ b)
    (ha : ∀ c ∈ a.head?, c ≠ ' ') (hb : ∀ c ∈ b.head?, c ≠ ' ') : m = n ∧ a = b := by
  have inside (k : Nat) : ∀ c ∈ List.replicate k ' ', decide (c = ' ') = true := by
    intro c member
    simp [List.eq_of_mem_replicate member]
  have taken := congrArg (List.takeWhile (· = ' ')) h
  rw [takeWhile_append_stop (inside m) (by simpa using ha),
    takeWhile_append_stop (inside n) (by simpa using hb)] at taken
  have same : m = n := by simpa using congrArg List.length taken
  subst same
  exact ⟨rfl, List.append_cancel_left h⟩

/-- A line is laid out in one way only. -/
theorem Laid.unique {s : List Char} {f g : Fields} {i j k l : Nat} (h : Laid s f i j)
    (h' : Laid s g k l) : f = g ∧ i = k ∧ j = l := by
  have fields : f = g := Option.some.inj ((fields?_of_laid h).symm.trans (fields?_of_laid h'))
  subst fields
  have lines := h.line.symm.trans h'.line
  obtain ⟨ik, lines⟩ := replicate_append_inj (List.append_cancel_left lines)
    (head_ne_space h.symbol.1 h.symbol.2) (head_ne_space h.symbol.1 h.symbol.2)
  obtain ⟨jl, -⟩ := replicate_append_inj (List.append_cancel_left lines)
    (head_ne_space h.number.1 h.number.2) (head_ne_space h.number.1 h.number.2)
  exact ⟨rfl, ik, jl⟩

/-! ### Line numbers -/

/-- A numeral with its value: digits, in front of which a plus may stand. -/
def IsNumeral (s : List Char) (v : Nat) : Prop :=
  ∃ ds, (s = ds ∨ s = '+' :: ds) ∧ ds ≠ [] ∧ (∀ d ∈ ds, d.isDigit = true) ∧
    v = Nat.ofDigitChars 10 ds 0

theorem isNumeral_of_isDecimal {s : List Char} {v : Nat} (decimal : IsDecimal s v) :
    IsNumeral s v :=
  ⟨s, .inl rfl, decimal.nonempty, decimal.digits, decimal.value⟩

/-- A plus is no digit, so a numeral has one value only. -/
theorem IsNumeral.unique {s : List Char} {v w : Nat} (h : IsNumeral s v) (h' : IsNumeral s w) :
    v = w := by
  have unsigned {ds es : List Char} (digits : ∀ d ∈ ds, d.isDigit = true) : ds ≠ '+' :: es := by
    rintro rfl
    exact absurd (digits '+' List.mem_cons_self) (by decide)
  obtain ⟨ds, signed, -, digits, rfl⟩ := h
  obtain ⟨es, signed', -, digits', rfl⟩ := h'
  rcases signed with rfl | rfl
  · rcases signed' with rfl | plus
    · rfl
    · exact absurd plus (unsigned digits)
  · rcases signed' with plus | plus
    · exact absurd plus.symm (unsigned digits')
    · rw [(List.cons.inj plus).2]

theorem digitsValue_eq (ds : List Char) : digitsValue ds = Nat.ofDigitChars 10 ds 0 := by
  simp [digitsValue, Nat.ofDigitChars_eq_foldl, Nat.mul_comm]

theorem numeral?_eq_some_iff {s : List Char} {v : Nat} :
    numeral? s = some v ↔ IsNumeral s v ∧ v ≤ maxWord := by
  have plus {ds : List Char} (digits : ∀ d ∈ ds, d.isDigit = true) : ds.head? ≠ some '+' := by
    intro first
    have := digits '+' (List.mem_of_head? first)
    simp at this
  simp only [numeral?, Option.ite_none_right_eq_some, Option.some.injEq, List.all_eq_true,
    digitsValue_eq]
  constructor
  · rintro ⟨⟨nonempty, digits, small⟩, rfl⟩
    refine ⟨⟨_, ?_, nonempty, digits, rfl⟩, small⟩
    split
    case isTrue signed =>
      obtain ⟨rest, rfl⟩ := List.head?_eq_some_iff.mp signed
      exact .inr rfl
    case isFalse => exact .inl rfl
  · rintro ⟨⟨ds, signed, nonempty, digits, rfl⟩, small⟩
    rcases signed with rfl | rfl
    · rw [if_neg (plus digits)]
      exact ⟨⟨nonempty, digits, small⟩, rfl⟩
    · exact ⟨⟨nonempty, digits, small⟩, rfl⟩

/-! ### What reading says -/

theorem fields?_eq_none_iff {s : List Char} : fields? s = none ↔ ¬∃ f i j, Laid s f i j := by
  constructor
  · rintro none ⟨f, i, j, laid⟩
    rw [fields?_of_laid laid] at none
    cases none
  · intro unlaid
    cases fields : fields? s with
    | none => rfl
    | some f => exact absurd ⟨f, exists_laid_of_fields? fields⟩ unlaid

theorem numeral?_eq_none_iff {s : List Char} :
    numeral? s = none ↔ ¬∃ v ≤ maxWord, IsNumeral s v := by
  constructor
  · rintro none ⟨v, small, numeral⟩
    rw [numeral?_eq_some_iff.mpr ⟨numeral, small⟩] at none
    cases none
  · intro other
    cases value : numeral? s with
    | none => rfl
    | some v =>
      obtain ⟨numeral, small⟩ := numeral?_eq_some_iff.mp value
      exact absurd ⟨v, small, numeral⟩ other

theorem read_eq_ok_iff {s : List Char} {hit : Hit} :
    HitLine.read s = .ok hit ↔
      ∃ f i j v, Laid s f i j ∧ IsNumeral f.number v ∧ 1 ≤ v ∧ v ≤ maxWord ∧
        hit = ⟨.ofList f.file, .ofList f.symbol, v - 1, .ofList f.rest, .ofList s⟩ := by
  constructor
  · intro ok
    unfold HitLine.read at ok
    split at ok
    case h_1 => cases ok
    case h_2 f fields =>
      obtain ⟨i, j, laid⟩ := exists_laid_of_fields? fields
      split at ok
      case h_1 => cases ok
      case h_2 => cases ok
      case h_3 n value =>
        cases ok
        obtain ⟨numeral, small⟩ := numeral?_eq_some_iff.mp value
        exact ⟨f, i, j, n + 1, laid, numeral, Nat.le_add_left 1 n, small, rfl⟩
  · rintro ⟨f, i, j, v, laid, numeral, pos, small, rfl⟩
    obtain ⟨n, rfl⟩ : ∃ n, v = n + 1 := ⟨v - 1, by omega⟩
    have value := numeral?_eq_some_iff.mpr ⟨numeral, small⟩
    simp [HitLine.read, fields?_of_laid laid, value]

/-- What is wrong with a line. -/
def Fault.Explains (s : List Char) : Fault → Prop
  | .wrongFormat => ¬∃ f i j, Laid s f i j
  | .notANumber number =>
    ∃ f i j, Laid s f i j ∧ f.number = number ∧ ¬∃ v ≤ maxWord, IsNumeral number v
  | .lineZero => ∃ f i j, Laid s f i j ∧ IsNumeral f.number 0

theorem read_eq_error_iff {s : List Char} {fault : Fault} :
    HitLine.read s = .error fault ↔ fault.Explains s := by
  constructor
  · intro error
    unfold HitLine.read at error
    split at error
    case h_1 unlaid =>
      cases error
      exact fields?_eq_none_iff.mp unlaid
    case h_2 f fields =>
      obtain ⟨i, j, laid⟩ := exists_laid_of_fields? fields
      split at error
      case h_1 other =>
        cases error
        exact ⟨f, i, j, laid, rfl, numeral?_eq_none_iff.mp other⟩
      case h_2 zero =>
        cases error
        exact ⟨f, i, j, laid, (numeral?_eq_some_iff.mp zero).1⟩
      case h_3 => cases error
  · intro explains
    cases fault with
    | wrongFormat => simp only [HitLine.read, fields?_eq_none_iff.mpr explains]
    | notANumber number =>
      obtain ⟨f, i, j, laid, rfl, other⟩ := explains
      simp only [HitLine.read, fields?_of_laid laid, numeral?_eq_none_iff.mpr other]
    | lineZero =>
      obtain ⟨f, i, j, laid, zero⟩ := explains
      have value := numeral?_eq_some_iff.mpr ⟨zero, by decide⟩
      simp only [HitLine.read, fields?_of_laid laid, value]

/-- The reasons tell the kinds of faults apart. -/
theorem Fault.reason_ne :
    (∀ number, Fault.reason (.notANumber number) ≠ Fault.reason .wrongFormat) ∧
    (∀ number, Fault.reason (.notANumber number) ≠ Fault.reason .lineZero) ∧
    Fault.reason .wrongFormat ≠ Fault.reason .lineZero := by
  refine ⟨?_, ?_, ?_⟩
  · intro number same
    have := congrArg String.toList same
    simp [reason] at this
  · intro number same
    have := congrArg String.toList same
    simp [reason, quote] at this
  · decide

end HitLine

namespace Hit

open HitLine

theorem parse_eq_ok_iff {line : String} {hit : Hit} :
    Hit.parse line = .ok hit ↔ HitLine.read (dropReturn line.toList) = .ok hit := by
  unfold parse
  dsimp only
  cases HitLine.read (dropReturn line.toList) <;> simp

theorem parse_eq_error_iff {line : String} {e : Error} :
    Hit.parse line = .error e ↔ ∃ fault : Fault, fault.Explains (dropReturn line.toList) ∧
      e = .parse (.ofList (dropReturn line.toList)) fault.reason := by
  simp only [← read_eq_error_iff]
  unfold parse
  dsimp only
  cases HitLine.read (dropReturn line.toList) with
  | ok hit => simp
  | error fault => simp [eq_comm]

/-- A reason is given exactly where its fault is the one that the line has. -/
theorem parse_eq_reason_iff {line : String} (fault : Fault)
    (own : ∀ number, fault = .notANumber number →
      ∃ f i j, Laid (dropReturn line.toList) f i j ∧ f.number = number) :
    Hit.parse line = .error (.parse (.ofList (dropReturn line.toList)) fault.reason) ↔
      fault.Explains (dropReturn line.toList) := by
  rw [parse_eq_error_iff]
  constructor
  · rintro ⟨other, explains, same⟩
    have reason : fault.reason = other.reason := by injection same
    obtain ⟨format, zero, formatZero⟩ := Fault.reason_ne
    cases fault with
    | wrongFormat =>
      cases other with
      | wrongFormat => exact explains
      | notANumber number => exact absurd reason.symm (format number)
      | lineZero => exact absurd reason formatZero
    | notANumber number =>
      cases other with
      | wrongFormat => exact absurd reason (format number)
      | lineZero => exact absurd reason (zero number)
      | notANumber number' =>
        obtain ⟨f, i, j, laid, rfl⟩ := own number rfl
        obtain ⟨f', i', j', laid', rfl, other⟩ := explains
        obtain ⟨rfl, -, -⟩ := laid.unique laid'
        exact ⟨f, i, j, laid, rfl, other⟩
    | lineZero =>
      cases other with
      | wrongFormat => exact absurd reason.symm formatZero
      | notANumber number => exact absurd reason.symm (zero number)
      | lineZero => exact explains
  · intro explains
    exact ⟨fault, explains, rfl⟩

/-- **What a line has to look like to be a hit**, which hit it is, and what is wrong with any other
line. -/
theorem parse_grammar (line : String) :
    (∀ hit, Hit.parse line = .ok hit ↔
      ∃ f i j v, Laid (dropReturn line.toList) f i j ∧ IsNumeral f.number v ∧ 1 ≤ v ∧ v ≤ maxWord ∧
        hit = ⟨.ofList f.file, .ofList f.symbol, v - 1, .ofList f.rest,
          .ofList (dropReturn line.toList)⟩) ∧
    (∀ f g i j k l, Laid (dropReturn line.toList) f i j → Laid (dropReturn line.toList) g k l →
      f = g ∧ i = k ∧ j = l) ∧
    (∀ e, Hit.parse line = .error e →
      ∃ reason, e = .parse (.ofList (dropReturn line.toList)) reason) ∧
    (Hit.parse line = .error (.parse (.ofList (dropReturn line.toList)) "wrong format") ↔
      ¬∃ f i j, Laid (dropReturn line.toList) f i j) ∧
    (∀ f i j, Laid (dropReturn line.toList) f i j →
      (Hit.parse line = .error (.parse (.ofList (dropReturn line.toList))
          ("line number " ++ quote (.ofList f.number) ++ " is not a number")) ↔
        ¬∃ v ≤ maxWord, IsNumeral f.number v)) ∧
    (∀ f i j, Laid (dropReturn line.toList) f i j →
      (Hit.parse line = .error (.parse (.ofList (dropReturn line.toList))
          "line numbers start at 1") ↔ IsNumeral f.number 0)) := by
  refine ⟨?_, ?_, ?_, ?_, ?_, ?_⟩
  · intro hit
    exact parse_eq_ok_iff.trans read_eq_ok_iff
  · intro f g i j k l laid laid'
    exact laid.unique laid'
  · intro e error
    obtain ⟨fault, -, rfl⟩ := parse_eq_error_iff.mp error
    exact ⟨fault.reason, rfl⟩
  · exact parse_eq_reason_iff .wrongFormat nofun
  · intro f i j laid
    have own : ∀ number, Fault.notANumber f.number = .notANumber number →
        ∃ f i j, Laid (dropReturn line.toList) f i j ∧ f.number = number := by
      intro number same
      cases same
      exact ⟨f, i, j, laid, rfl⟩
    refine (parse_eq_reason_iff _ own).trans ⟨?_, ?_⟩
    · rintro ⟨-, -, -, -, -, other⟩
      exact other
    · intro other
      exact ⟨f, i, j, laid, rfl, other⟩
  · intro f i j laid
    refine (parse_eq_reason_iff .lineZero nofun).trans ⟨?_, ?_⟩
    · rintro ⟨f', i', j', laid', zero⟩
      obtain ⟨rfl, -, -⟩ := laid.unique laid'
      exact zero
    · intro zero
      exact ⟨f, i, j, laid, zero⟩

/-- A line with runs of spaces, a tab and a carriage return, whose number is a zero with a sign. -/
theorem parse_grammar_zero :
    Laid (dropReturn "a\n  f +0  x\t\r".toList)
        ⟨['a', '\n'], ['f'], ['+', '0'], [' ', 'x', '\t']⟩ 2 1 ∧
      IsNumeral ['+', '0'] 0 ∧
      Hit.parse "a\n  f +0  x\t\r" =
        .error (.parse "a\n  f +0  x\t" "line numbers start at 1") := by
  have laid : Laid (dropReturn "a\n  f +0  x\t\r".toList)
      ⟨['a', '\n'], ['f'], ['+', '0'], [' ', 'x', '\t']⟩ 2 1 := by
    constructor <;> decide
  have zero : IsNumeral ['+', '0'] 0 := ⟨['0'], .inr rfl, List.cons_ne_nil _ _, by simp, rfl⟩
  refine ⟨laid, zero, ?_⟩
  obtain ⟨-, -, -, -, -, reason⟩ := parse_grammar "a\n  f +0  x\t\r"
  exact (reason _ 2 1 laid).mpr zero

end Hit

end SymbolNav
