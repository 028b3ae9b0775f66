/-
  SymbolNav/Proofs/Text/Encode.lean
  =================================
  **A text comes back from its octets.**

  Reading the octets of one character shows that character and leaves the machine
  where it was (`emittedFrom_char`).  The leading octet determines the range of the
  next one (`lead_three`, `lead_four`), and the range leaves out exactly what is no
  character, so the second octet of a character always lies in it.
-/
import SymbolNav.Text.Utf8
import Mathlib.Tactic.Common

namespace SymbolNav.Text.Utf8

/-! ### Leading octets -/

theorem lead_one : ∀ n < 0x80, lead (.ofNat n) = ([some (Char.ofNat n)], .start) := by
  decide +kernel

theorem lead_two : ∀ n < 32, 2 ≤ n →
    lead (.ofNat (n + 0xC0)) = ([], .inside n 0 0x80 0xBF) := by
  decide +kernel

theorem lead_three : ∀ n < 16, lead (.ofNat (n + 0xE0)) =
    ([], .inside n 1 (if n = 0 then 0xA0 else 0x80) (if n = 13 then 0x9F else 0xBF)) := by
  decide +kernel

theorem lead_four : ∀ n < 5, lead (.ofNat (n + 0xF0)) =
    ([], .inside n 2 (if n = 0 then 0x90 else 0x80) (if n = 4 then 0x8F else 0xBF)) := by
  decide +kernel

theorem emittedFrom_lead {b : UInt8} {value due : Nat} {low high : UInt8}
    (h : lead b = ([], .inside value due low high)) (rest : List UInt8) :
    emittedFrom .start (b :: rest) = emittedFrom (.inside value due low high) rest := by
  simp [emittedFrom, feed, h]

/-! ### Octets that go on -/

section Continues

variable {value due n : Nat} {low high : UInt8}

theorem toNat_continuing (small : n < 64) : (UInt8.ofNat (n + 0x80)).toNat = n + 0x80 := by
  simp only [UInt8.toNat_ofNat']
  omega

theorem continues (small : n < 64) (above : low.toNat ≤ n + 0x80)
    (below : n + 0x80 ≤ high.toNat) :
    low ≤ UInt8.ofNat (n + 0x80) ∧ UInt8.ofNat (n + 0x80) ≤ high := by
  rw [UInt8.le_iff_toNat_le, UInt8.le_iff_toNat_le, toNat_continuing small]
  exact ⟨above, below⟩

theorem emittedFrom_last (small : n < 64) (above : low.toNat ≤ n + 0x80)
    (below : n + 0x80 ≤ high.toNat) (rest : List UInt8) :
    emittedFrom (.inside value 0 low high) (.ofNat (n + 0x80) :: rest) =
      some (Char.ofNat (value * 64 + n)) :: emittedFrom .start rest := by
  simp only [emittedFrom, feed, if_pos (continues small above below), toNat_continuing small,
    Nat.add_sub_cancel, List.singleton_append]

theorem emittedFrom_more (small : n < 64) (above : low.toNat ≤ n + 0x80)
    (below : n + 0x80 ≤ high.toNat) (rest : List UInt8) :
    emittedFrom (.inside value (due + 1) low high) (.ofNat (n + 0x80) :: rest) =
      emittedFrom (.inside (value * 64 + n) due 0x80 0xBF) rest := by
  simp only [emittedFrom, feed, if_pos (continues small above below), toNat_continuing small,
    Nat.add_sub_cancel, List.nil_append]

/-- Where nothing else is said, all octets that go on are within the range. -/
theorem within_usual (small : n < 64) :
    (0x80 : UInt8).toNat ≤ n + 0x80 ∧ n + 0x80 ≤ (0xBF : UInt8).toNat := by
  constructor
  · exact Nat.le_add_left 0x80 n
  · exact Nat.add_le_add_right (Nat.le_of_lt_succ small) 0x80

end Continues

/-! ### Whole characters -/

theorem emittedFrom_char (c : Char) (rest : List UInt8) :
    emittedFrom .start (String.utf8EncodeChar c ++ rest) = some c :: emittedFrom .start rest := by
  have whole : Char.ofNat c.val.toNat = c := Char.ofNat_toNat c
  have valid : c.val.toNat < 0xD800 ∨ 0xDFFF < c.val.toNat ∧ c.val.toNat < 0x110000 := c.valid
  unfold String.utf8EncodeChar
  dsimp only
  generalize c.val.toNat = v at whole valid
  -- the last octet of every character but those of ASCII
  have last {value : Nat} (number : value * 64 + v % 64 = v) :
      emittedFrom (.inside value 0 0x80 0xBF) (.ofNat (v % 64 + 0x80) :: rest) =
        some c :: emittedFrom .start rest := by
    have small : v % 64 < 64 := Nat.mod_lt v (by decide)
    obtain ⟨above, below⟩ := within_usual small
    rw [emittedFrom_last small above below, number, whole]
  by_cases one : v ≤ 0x7F
  · rw [if_pos one]
    simp only [List.singleton_append, emittedFrom, feed, lead_one v (by omega), whole]
  rw [if_neg one]
  by_cases two : v ≤ 0x7FF
  · rw [if_pos two]
    simp only [List.cons_append, List.nil_append]
    rw [emittedFrom_lead (lead_two (v / 64 % 32) (by omega) (by omega)), last (by omega)]
  rw [if_neg two]
  by_cases three : v ≤ 0xFFFF
  · rw [if_pos three]
    simp only [List.cons_append, List.nil_append]
    rw [emittedFrom_lead (lead_three (v / 4096 % 16) (by omega)),
      emittedFrom_more (by omega), last (by omega)]
    · split
      · show 0xA0 ≤ _
        omega
      · show 0x80 ≤ _
        omega
    · split
      · show _ ≤ 0x9F
        omega
      · show _ ≤ 0xBF
        omega
  rw [if_neg three]
  simp only [List.cons_append, List.nil_append]
  have third : v / 64 % 64 < 64 := Nat.mod_lt _ (by decide)
  obtain ⟨above, below⟩ := within_usual third
  rw [emittedFrom_lead (lead_four (v / 262144 % 8) (by omega)), emittedFrom_more (by omega),
    emittedFrom_more third above below, last (by omega)]
  · split
    · show 0x90 ≤ _
      omega
    · show 0x80 ≤ _
      omega
  · split
    · show _ ≤ 0x8F
      omega
    · show _ ≤ 0xBF
      omega

theorem encode_cons (c : Char) (s : List Char) :
    encode (c :: s) = String.utf8EncodeChar c ++ encode s :=
  List.flatMap_cons

theorem encode_append (s t : List Char) : encode (s ++ t) = encode s ++ encode t :=
  List.flatMap_append

theorem emittedFrom_encode_append (s : List Char) (rest : List UInt8) :
    emittedFrom .start (encode s ++ rest) = s.map some ++ emittedFrom .start rest := by
  induction s with
  | nil => rfl
  | cons c s ih =>
    rw [encode_cons, List.append_assoc, emittedFrom_char, ih]
    rfl

theorem emittedFrom_encode (s : List Char) : emittedFrom .start (encode s) = s.map some := by
  have alone := emittedFrom_encode_append s []
  rwa [List.append_nil, emittedFrom, atEnd, List.append_nil] at alone

theorem emitted_encode (s : List Char) : emitted (encode s) = s.map some :=
  (emitted_eq _).trans (emittedFrom_encode s)

theorem decodeLossy_encode (s : List Char) : decodeLossy (encode s) = s := by
  rw [decodeLossy, emitted_encode, List.map_map]
  simp [Function.comp_def]

/-- **Octets that were written for a text are read as that text.** -/
theorem decode?_encode (s : List Char) : decode? (encode s) = some s := by
  have all : (emitted (encode s)).all (·.isSome) = true := by simp [emitted_encode]
  rw [decode?, if_pos all, decodeLossy_encode]

end SymbolNav.Text.Utf8
