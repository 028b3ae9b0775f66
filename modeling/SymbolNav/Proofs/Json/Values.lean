/-
  SymbolNav/Proofs/Json/Values.lean
  =================================
  **What is printed is read back** (`read?_printAt`).

  From the tokens of a value the reader comes to the value, whatever is open around it
  and whatever follows (`Whole.readFrom`).  So an array or an object is read item by item and
  member by member, each of them as if it stood alone.  A whole number is a word of
  its own, and the only one that spells it.
-/
import Mathlib.Data.List.TakeWhile
import SymbolNav.Json.Reader
import SymbolNav.Proofs.Json.Tokens

namespace SymbolNav.Json

open Text

/-! ### Numbers -/

theorem spanDigits_of_digits {ds : List Char} (digits : ∀ d ∈ ds, d.isDigit = true) :
    spanDigits ds = (ds, []) := by
  have none : ds.dropWhile Char.isDigit = [] := List.dropWhile_eq_nil_iff.mpr digits
  rw [spanDigits, List.takeWhile_eq_self_iff.mpr digits, none]

theorem isWhole_of_isDecimal {ds : List Char} {n : Nat} (decimal : IsDecimal ds n) :
    isWhole ds = true := by
  rcases decimal.first with rfl | first
  · rfl
  · cases ds with
    | nil => exact absurd rfl decimal.nonempty
    | cons d ds =>
      have other : d ≠ '0' := by
        intro same
        exact first (congrArg some same)
      simp [isWhole, other]

theorem foldl_of_isDecimal {ds : List Char} {n : Nat} (decimal : IsDecimal ds n) :
    ds.foldl (fun v d => v * 10 + (d.toNat - 48)) 0 = n := by
  rw [decimal.value, Nat.ofDigitChars_eq_foldl]
  simp only [Nat.mul_comm]
  rfl

/-- The digits of a number are read as the number. -/
theorem number?_of_isDecimal {ds : List Char} {n : Nat} (decimal : IsDecimal ds n) :
    number? ds = some (.int n) := by
  have unsigned : ∀ r, ds ≠ '-' :: r := by
    intro r same
    have digit := decimal.digits '-' (same ▸ List.mem_cons_self)
    cases digit
  unfold number?
  split
  rename_i negative s signed
  split at signed
  case h_1 r => exact absurd rfl (unsigned r)
  case h_2 =>
    cases signed
    simp [spanDigits_of_digits decimal.digits, isWhole_of_isDecimal decimal, isTail, isExponent,
      foldl_of_isDecimal decimal]

/-- Behind a minus sign they are read as its opposite, unless it is zero. -/
theorem number?_negative {ds : List Char} {n : Nat} (decimal : IsDecimal ds (n + 1)) :
    number? ('-' :: ds) = some (.int (.negSucc n)) := by
  have positive : ds ≠ ['0'] := by
    intro zero
    have value := decimal.value
    rw [zero] at value
    cases value
  simp [number?, spanDigits_of_digits decimal.digits, isWhole_of_isDecimal decimal, isTail,
    isExponent, positive, foldl_of_isDecimal decimal]
  omega

theorem word?_of_not_letter {c : Char} {w : List Char} (other : c ≠ 'n' ∧ c ≠ 't' ∧ c ≠ 'f') :
    word? (c :: w) = number? (c :: w) := by
  simp [word?, other]

theorem word?_int (n : Int) : word? (toString n).toList = some (.int n) := by
  cases n with
  | ofNat m =>
    have decimal := isDecimal_toString m
    have read := number?_of_isDecimal decimal
    show word? (toString m).toList = _
    cases digits : (toString m).toList with
    | nil => exact absurd digits decimal.nonempty
    | cons d ds =>
      rw [digits] at decimal read
      have digit := decimal.digits d List.mem_cons_self
      rw [word?_of_not_letter, read]
      · rfl
      · refine ⟨?_, ?_, ?_⟩ <;> (rintro rfl; cases digit)
  | negSucc m =>
    rw [toList_toString_negSucc, word?_of_not_letter (by decide)]
    exact number?_negative (isDecimal_toString (m + 1))

/-! ### Values -/

/-- From the tokens of the value the reader comes to the value, wherever one is due and whatever
follows. -/
def ReadFrom (j : Json) : Prop :=
  ∀ (frames : List Frame) (ts : List Token),
    (Reading.mk frames .value).steps (j.tokens ++ ts) =
      (Reading.complete frames j).bind (·.steps ts)

section Reading

variable {outer : List Frame} {ts : List Token}

/-- Where a value is due, a word that spells one completes it. -/
theorem steps_word {w : List Char} {j : Json} (spells : word? w = some j) (frames : List Frame) :
    (Reading.mk frames .value).steps (.word w :: ts) =
      (Reading.complete frames j).bind (·.steps ts) := by
  simp [Reading.steps, Reading.step, Reading.value, spells]

/-- No value begins with the end of an array. -/
theorem exists_tokens_eq_cons (j : Json) :
    ∃ t ts, j.tokens = t :: ts ∧ t ≠ .mark ']' := by
  cases j with
  | null => exact ⟨_, _, rfl, by decide⟩
  | bool b => cases b <;> exact ⟨_, _, rfl, nofun⟩
  | int n => exact ⟨_, _, rfl, nofun⟩
  | decimal literal => exact ⟨_, _, rfl, nofun⟩
  | str s => exact ⟨_, _, rfl, nofun⟩
  | arr items => cases items <;> exact ⟨_, _, rfl, by decide⟩
  | obj members => cases members <;> exact ⟨_, _, rfl, by decide⟩

/-- Where an array has begun, its first item is read as a value. -/
theorem steps_firstItem (j : Json) :
    (Reading.mk (.items [] :: outer) .firstItem).steps (j.tokens ++ ts) =
      (Reading.mk (.items [] :: outer) .value).steps (j.tokens ++ ts) := by
  obtain ⟨t, more, begins, other⟩ := exists_tokens_eq_cons j
  rw [begins]
  simp [Reading.steps, Reading.step, other]

/-- The items behind the first one are read one by one. -/
theorem steps_itemTokens {xs : List Json} (reads : ∀ x ∈ xs, ReadFrom x) (done : List Json) :
    (Reading.mk (.items done :: outer) .next).steps (itemTokens xs ++ .mark ']' :: ts) =
      (Reading.complete outer (.arr (done.reverse ++ xs))).bind (·.steps ts) := by
  induction xs generalizing done with
  | nil => simp [itemTokens, Reading.steps, Reading.step]
  | cons x xs ih =>
    have others : ∀ y ∈ xs, ReadFrom y := by
      intro y member
      exact reads y (List.mem_cons_of_mem x member)
    have item := reads x List.mem_cons_self (.items done :: outer) (itemTokens xs ++ .mark ']' :: ts)
    calc
      _ = (Reading.mk (.items done :: outer) .value).steps
          (x.tokens ++ (itemTokens xs ++ .mark ']' :: ts)) := by
        simp [itemTokens, Reading.steps, Reading.step]
      _ = (Reading.mk (.items (x :: done) :: outer) .next).steps
          (itemTokens xs ++ .mark ']' :: ts) := item
      _ = _ := by
        rw [ih others]
        simp

/-- The name of a member and its value. -/
theorem steps_member {v : Json} (reads : ReadFrom v) (done : List (String × Json)) (k : String)
    {due : Due} (named : due = .key ∨ due = .firstMember) :
    (Reading.mk (.members done :: outer) due).steps
        (.text k.toList :: .mark ':' :: v.tokens ++ ts) =
      (Reading.mk (.members ((k, v) :: done) :: outer) .next).steps ts := by
  have value : (Reading.mk (.member done k :: outer) .value).steps (v.tokens ++ ts) =
      (Reading.mk (.members ((k, v) :: done) :: outer) .next).steps ts :=
    reads (.member done k :: outer) ts
  rcases named with rfl | rfl
  · simpa [Reading.steps, Reading.step, Reading.key] using value
  · simpa [Reading.steps, Reading.step, Reading.key] using value

/-- The members behind the first one are read one by one. -/
theorem steps_memberTokens {ms : List (String × Json)} (reads : ∀ m ∈ ms, ReadFrom m.2)
    (done : List (String × Json)) :
    (Reading.mk (.members done :: outer) .next).steps (memberTokens ms ++ .mark '\x7d' :: ts) =
      (Reading.complete outer (.obj (done.reverse ++ ms))).bind (·.steps ts) := by
  induction ms generalizing done with
  | nil => simp [memberTokens, Reading.steps, Reading.step]
  | cons m ms ih =>
    obtain ⟨k, v⟩ := m
    have others : ∀ m ∈ ms, ReadFrom m.2 := by
      intro m member
      exact reads m (List.mem_cons_of_mem _ member)
    have value : ReadFrom v := reads (k, v) List.mem_cons_self
    calc
      _ = (Reading.mk (.members done :: outer) .key).steps
          (.text k.toList :: .mark ':' :: v.tokens ++
            (memberTokens ms ++ .mark '\x7d' :: ts)) := by
        simp [memberTokens, Reading.steps, Reading.step]
      _ = (Reading.mk (.members ((k, v) :: done) :: outer) .next).steps
          (memberTokens ms ++ .mark '\x7d' :: ts) := steps_member value done k (.inl rfl)
      _ = _ := by
        rw [ih others]
        simp

end Reading

/-- **A value is read from its tokens**, whatever is open around it. -/
theorem Whole.readFrom {j : Json} (whole : Whole j) : ReadFrom j := by
  induction whole with
  | null =>
    intro frames ts
    exact steps_word rfl frames
  | bool b =>
    intro frames ts
    cases b with
    | false => exact steps_word rfl frames
    | true => exact steps_word rfl frames
  | int n =>
    intro frames ts
    exact steps_word (word?_int n) frames
  | str s =>
    intro frames ts
    simp [tokens, Reading.steps, Reading.step, Reading.value]
  | @arr items whole reads =>
    intro frames ts
    cases items with
    | nil => simp [tokens, Reading.steps, Reading.step, Reading.value]
    | cons x xs =>
      have others : ∀ y ∈ xs, ReadFrom y := by
        intro y member
        exact reads y (List.mem_cons_of_mem x member)
      have first := reads x List.mem_cons_self (.items [] :: frames)
        (itemTokens xs ++ .mark ']' :: ts)
      calc
        _ = (Reading.mk (.items [] :: frames) .firstItem).steps
            (x.tokens ++ (itemTokens xs ++ .mark ']' :: ts)) := by
          simp [tokens, Reading.steps, Reading.step, Reading.value]
        _ = (Reading.mk (.items [x] :: frames) .next).steps
            (itemTokens xs ++ .mark ']' :: ts) := (steps_firstItem x).trans first
        _ = _ := steps_itemTokens others [x]
  | @obj members whole reads =>
    intro frames ts
    cases members with
    | nil => simp [tokens, Reading.steps, Reading.step, Reading.value]
    | cons m ms =>
      obtain ⟨k, v⟩ := m
      have others : ∀ m ∈ ms, ReadFrom m.2 := by
        intro m member
        exact reads m (List.mem_cons_of_mem _ member)
      have value : ReadFrom v := reads (k, v) List.mem_cons_self
      calc
        _ = (Reading.mk (.members [] :: frames) .firstMember).steps
            (.text k.toList :: .mark ':' :: v.tokens ++
              (memberTokens ms ++ .mark '\x7d' :: ts)) := by
          simp [tokens, Reading.steps, Reading.step, Reading.value]
        _ = (Reading.mk (.members [(k, v)] :: frames) .next).steps
            (memberTokens ms ++ .mark '\x7d' :: ts) := steps_member value [] k (.inr rfl)
        _ = _ := steps_memberTokens others [(k, v)]

/-- **What is printed is read back**, on one line or laid out over several. -/
theorem read?_printAt {j : Json} (whole : Whole j) (depth : Option Nat) :
    read? (printAt depth j) = some j := by
  have reads := whole.readFrom [] []
  rw [List.append_nil] at reads
  rw [read?, tokens?_printAt whole, Option.bind_some, ofTokens?, reads]
  rfl

end SymbolNav.Json
