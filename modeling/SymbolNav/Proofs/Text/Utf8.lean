/-
  SymbolNav/Proofs/Text/Utf8.lean
  ===============================
  **Octets of ASCII stand for themselves** wherever they are: they break off what
  they interrupt, and no other octet reads as their character.

  Hence it does not matter whether a sequence of octets is cut at such an octet
  first and its pieces are decoded then, or the other way round
  (`decodeLossy_append_ascii`).  The states that reading reaches keep a range in
  which the character being read must lie (`State.Sound`).
-/
import SymbolNav.Proofs.Text.Cut
import SymbolNav.Text.Utf8
import Mathlib.Algebra.Group.Nat.Defs
import Mathlib.Tactic.Common

namespace SymbolNav.Text.Utf8

/-! ### States that reading reaches -/

/-- All numbers from `low` on and below `high` are those of characters that take two octets or
more. -/
def Wide (low high : Nat) : Prop :=
  0x80 ≤ low ∧ (high ≤ 0xD800 ∨ 0xE000 ≤ low ∧ high ≤ 0x110000)

theorem Wide.mono {low low' high high' : Nat} (h : Wide low high) (above : low ≤ low')
    (below : high' ≤ high) : Wide low' high' := by
  obtain ⟨wide, surrogates⟩ := h
  refine ⟨by omega, ?_⟩
  rcases surrogates with before | ⟨after, last⟩
  · exact .inl (by omega)
  · exact .inr ⟨by omega, by omega⟩

/-- Inside a character, no octet of ASCII continues it, and whatever does makes a character of it
that takes two octets or more. -/
def State.Sound : State → Prop
  | .start => True
  | .inside value due low high =>
    0x80 ≤ low.toNat ∧ Wide ((value * 64 + (low.toNat - 0x80)) * 64 ^ due)
      ((value * 64 + (high.toNat - 0x80) + 1) * 64 ^ due)

instance (low high : Nat) : Decidable (Wide low high) := inferInstanceAs (Decidable (_ ∧ _))

instance (s : State) : Decidable s.Sound :=
  match s with
  | .start => inferInstanceAs (Decidable True)
  | .inside .. => inferInstanceAs (Decidable (_ ∧ _))

theorem octet_forall {P : UInt8 → Prop} (h : ∀ n, n < 256 → P (UInt8.ofNat n)) (b : UInt8) :
    P b := by
  have := h b.toNat (UInt8.toNat_lt b)
  rwa [UInt8.ofNat_toNat] at this

theorem sound_lead (b : UInt8) : (lead b).2.Sound :=
  octet_forall (P := fun b => (lead b).2.Sound) (by decide +kernel) b

theorem sound_feed {s : State} (sound : s.Sound) (b : UInt8) : (feed s b).2.Sound := by
  cases s with
  | start => exact sound_lead b
  | inside value due low high =>
    simp only [feed]
    split
    case isFalse => exact sound_lead b
    case isTrue continues =>
      have above : low.toNat ≤ b.toNat := UInt8.le_iff_toNat_le.mp continues.1
      have below : b.toNat ≤ high.toNat := UInt8.le_iff_toNat_le.mp continues.2
      cases due with
      | zero => trivial
      | succ due =>
        refine ⟨by decide, sound.2.mono ?_ ?_⟩
        · rw [Nat.pow_succ', ← Nat.mul_assoc]
          apply Nat.mul_le_mul_right
          have : (0x80 : UInt8).toNat = 0x80 := rfl
          omega
        · rw [Nat.pow_succ', ← Nat.mul_assoc]
          apply Nat.mul_le_mul_right
          have : (0xBF : UInt8).toNat = 0xBF := rfl
          omega

/-! ### Octets of ASCII -/

theorem lead_ascii {b : UInt8} (ascii : b < 0x80) :
    lead b = ([some (Char.ofNat b.toNat)], .start) := by
  simp [lead, ascii]

/-- An octet of ASCII is a character, and breaks what it stands in. -/
theorem feed_ascii {s : State} (sound : s.Sound) {b : UInt8} (ascii : b < 0x80) :
    feed s b = (atEnd s ++ [some (Char.ofNat b.toNat)], .start) := by
  cases s with
  | start => exact lead_ascii ascii
  | inside value due low high =>
    have outside : ¬(low ≤ b ∧ b ≤ high) := by
      rintro ⟨above, -⟩
      have := UInt8.le_iff_toNat_le.mp above
      have := UInt8.lt_iff_toNat_lt.mp ascii
      have : (0x80 : UInt8).toNat = 0x80 := rfl
      have := sound.1
      omega
    simp [feed, outside, lead_ascii ascii, atEnd]

theorem lead_of_not_ascii {b : UInt8} (ascii : ¬b < 0x80) :
    (lead b).1.all (·.isNone) = true :=
  octet_forall (P := fun b => ¬b < 0x80 → (lead b).1.all (·.isNone) = true)
    (by decide +kernel) b ascii

theorem ascii_of_lead {b : UInt8} {c : Char} (emits : some c ∈ (lead b).1) :
    b < 0x80 ∧ c = Char.ofNat b.toNat := by
  by_cases ascii : b < 0x80
  · rw [lead_ascii ascii, List.mem_singleton] at emits
    exact ⟨ascii, Option.some.inj emits⟩
  · have := List.all_eq_true.mp (lead_of_not_ascii ascii) _ emits
    simp at this

theorem toNat_ofNat {n : Nat} (valid : n.isValidChar) : (Char.ofNat n).toNat = n := by
  rw [Char.ofNat, dif_pos valid]
  rfl

theorem toNat_ofNat_of_wide {low high n : Nat} (wide : Wide low high) (above : low ≤ n)
    (below : n < high) : (Char.ofNat n).toNat = n := by
  have valid : n.isValidChar := by
    obtain ⟨-, surrogates⟩ := wide
    unfold Nat.isValidChar
    omega
  exact toNat_ofNat valid

/-- A character of ASCII is read from its own octet only. -/
theorem ascii_of_feed {s : State} (sound : s.Sound) {b : UInt8} {c : Char}
    (emits : some c ∈ (feed s b).1) (ascii : c.toNat < 0x80) : b.toNat = c.toNat := by
  have of_lead {b : UInt8} (emits : some c ∈ (lead b).1) : b.toNat = c.toNat := by
    obtain ⟨small, rfl⟩ := ascii_of_lead emits
    have := UInt8.lt_iff_toNat_lt.mp small
    exact (toNat_ofNat (.inl (Nat.lt_trans this (by decide)))).symm
  cases s with
  | start => exact of_lead emits
  | inside value due low high =>
    simp only [feed] at emits
    split at emits
    case isFalse => exact of_lead (by simpa using emits)
    case isTrue continues =>
      have above : low.toNat ≤ b.toNat := UInt8.le_iff_toNat_le.mp continues.1
      have below : b.toNat ≤ high.toNat := UInt8.le_iff_toNat_le.mp continues.2
      cases due with
      | succ due => simp at emits
      | zero =>
        simp only [List.mem_singleton, Option.some.injEq] at emits
        have number := toNat_ofNat_of_wide (n := value * 64 + (b.toNat - 0x80)) sound.2
          (by omega) (by omega)
        rw [← emits] at number
        have := sound.2.1
        omega

/-! ### Texts -/

theorem emittedFrom_append_ascii {s : State} (sound : s.Sound) (x : List UInt8) {b : UInt8}
    (ascii : b < 0x80) (y : List UInt8) :
    emittedFrom s (x ++ b :: y) =
      emittedFrom s x ++ some (Char.ofNat b.toNat) :: emittedFrom .start y := by
  induction x generalizing s with
  | nil => simp [emittedFrom, feed_ascii sound ascii]
  | cons d x ih => simp [emittedFrom, ih (sound_feed sound d)]

theorem mem_of_mem_emittedFrom {s : State} (sound : s.Sound) {x : List UInt8} {c : Char}
    (emits : some c ∈ emittedFrom s x) (ascii : c.toNat < 0x80) : ∃ b ∈ x, b.toNat = c.toNat := by
  induction x generalizing s with
  | nil => cases s <;> simp [emittedFrom, atEnd] at emits
  | cons d x ih =>
    rcases List.mem_append.mp emits with now | later
    · exact ⟨d, List.mem_cons_self, ascii_of_feed sound now ascii⟩
    · obtain ⟨b, member, same⟩ := ih (sound_feed sound d) later
      exact ⟨b, List.mem_cons_of_mem d member, same⟩

/-- Inside a character something is always shown. -/
theorem emittedFrom_inside_ne_nil (value due : Nat) (low high : UInt8) (x : List UInt8) :
    emittedFrom (.inside value due low high) x ≠ [] := by
  induction x generalizing value due low high with
  | nil => simp [emittedFrom, atEnd]
  | cons b x ih =>
    simp only [emittedFrom, feed]
    split
    · cases due with
      | zero => simp
      | succ due => simpa using ih _ due 0x80 0xBF
    · simp

theorem decodeLossy_append_ascii (x : List UInt8) {b : UInt8} (ascii : b < 0x80) (y : List UInt8) :
    decodeLossy (x ++ b :: y) = decodeLossy x ++ Char.ofNat b.toNat :: decodeLossy y := by
  simp [decodeLossy, emitted_eq, emittedFrom_append_ascii (s := .start) trivial x ascii y]

/-- After an octet of ASCII, reading starts anew. -/
theorem decodeLossy_append_of_getLast {x : List UInt8} (ends : ∀ b ∈ x.getLast?, b < 0x80)
    (y : List UInt8) : decodeLossy (x ++ y) = decodeLossy x ++ decodeLossy y := by
  rcases List.eq_nil_or_concat x with rfl | ⟨z, b, rfl⟩
  · rfl
  · have ascii : b < 0x80 := ends b (by simp)
    rw [List.concat_eq_append, List.append_assoc, List.singleton_append,
      decodeLossy_append_ascii z ascii y, decodeLossy_append_ascii z ascii []]
    simp [decodeLossy, emitted, emittedOnto, atEnd]

/-- Before an octet of ASCII, reading ends. -/
theorem decodeLossy_append_of_head (x : List UInt8) {y : List UInt8}
    (starts : ∀ b ∈ y.head?, b < 0x80) : decodeLossy (x ++ y) = decodeLossy x ++ decodeLossy y := by
  cases y with
  | nil => simp [decodeLossy, emitted, emittedOnto, atEnd]
  | cons b y =>
    have ascii : b < 0x80 := starts b rfl
    have alone : decodeLossy (b :: y) = Char.ofNat b.toNat :: decodeLossy y :=
      decodeLossy_append_ascii [] ascii y
    rw [decodeLossy_append_ascii x ascii y, alone]

theorem mem_of_mem_decodeLossy {x : List UInt8} {c : Char} (member : c ∈ decodeLossy x)
    (ascii : c.toNat < 0x80) : ∃ b ∈ x, b.toNat = c.toNat := by
  rw [decodeLossy, emitted_eq] at member
  obtain ⟨shown, emits, same⟩ := List.mem_map.mp member
  cases shown with
  | none =>
    subst same
    exact absurd ascii (by decide)
  | some d =>
    cases same
    exact mem_of_mem_emittedFrom (s := .start) trivial emits ascii

theorem decodeLossy_eq_nil {x : List UInt8} (h : decodeLossy x = []) : x = [] := by
  rw [decodeLossy, emitted_eq, List.map_eq_nil_iff] at h
  cases x with
  | nil => rfl
  | cons b x =>
    exfalso
    rw [emittedFrom, List.append_eq_nil_iff] at h
    cases state : (feed .start b).2 with
    | inside value due low high =>
      rw [state] at h
      exact emittedFrom_inside_ne_nil _ _ _ _ _ h.2
    | start =>
      have shows : (lead b).2 = .start → (lead b).1 ≠ [] :=
        octet_forall (P := fun b => (lead b).2 = .start → (lead b).1 ≠ []) (by decide +kernel) b
      exact shows state h.1

theorem mem_of_ofNat_mem_decodeLossy {x : List UInt8} {b : UInt8} (ascii : b < 0x80)
    (member : Char.ofNat b.toNat ∈ decodeLossy x) : b ∈ x := by
  have small := UInt8.lt_iff_toNat_lt.mp ascii
  have number : (Char.ofNat b.toNat).toNat = b.toNat :=
    toNat_ofNat (.inl (Nat.lt_trans small (by decide)))
  obtain ⟨d, inside, same⟩ := mem_of_mem_decodeLossy member (by rw [number]; exact small)
  rw [number] at same
  rwa [← UInt8.toNat_inj.mp same]

theorem getLast?_decodeLossy (x : List UInt8) {b : UInt8} (ascii : b < 0x80) :
    (decodeLossy x).getLast? = some (Char.ofNat b.toNat) ↔ x.getLast? = some b := by
  constructor
  · intro last
    -- The last octet `b` of `x` has nothing after it, for it would be read after `b`.
    have inside := mem_of_ofNat_mem_decodeLossy ascii (List.mem_of_getLast? last)
    obtain ⟨y, z, reversed, first⟩ := List.eq_append_cons_of_mem (List.mem_reverse.mpr inside)
    have split : x = z.reverse ++ b :: y.reverse := by
      rw [← List.reverse_reverse x, reversed]
      simp
    rw [split, decodeLossy_append_ascii _ ascii] at last
    have rest : y.reverse = [] := by
      apply decodeLossy_eq_nil
      by_contra some
      rw [List.getLast?_append, List.getLast?_cons_of_ne_nil some,
        List.getLast?_eq_some_getLast some, Option.some_or] at last
      have later : Char.ofNat b.toNat ∈ decodeLossy y.reverse := by
        rw [← Option.some.inj last]
        exact List.getLast_mem some
      exact first (List.mem_reverse.mp (mem_of_ofNat_mem_decodeLossy ascii later))
    rw [split, rest]
    simp
  · intro last
    obtain ⟨y, rfl⟩ := List.getLast?_eq_some_iff.mp last
    rw [decodeLossy_append_ascii y ascii]
    simp [decodeLossy, emitted, emittedOnto, atEnd]

/-- Dropping an octet of ASCII at the end drops its character. -/
theorem decodeLossy_dropLastEq (x : List UInt8) {b : UInt8} (ascii : b < 0x80) :
    decodeLossy (dropLastEq b x) = dropLastEq (Char.ofNat b.toNat) (decodeLossy x) := by
  by_cases last : x.getLast? = some b
  · obtain ⟨y, rfl⟩ := List.getLast?_eq_some_iff.mp last
    rw [dropLastEq_concat, decodeLossy_append_ascii y ascii]
    exact (dropLastEq_concat _ _).symm
  · rw [dropLastEq_of_ne last, dropLastEq_of_ne]
    rwa [ne_eq, getLast?_decodeLossy x ascii]

/-- **Cutting and decoding commute**: the pieces of a decoded text are the decoded pieces. -/
theorem pieces_decodeLossy (x : List UInt8) {b : UInt8} (ascii : b < 0x80) :
    pieces (Char.ofNat b.toNat) (decodeLossy x) =
      (pieces b x).map (fun w => ⟨decodeLossy w.content, w.ended⟩) := by
  have whole {y : List UInt8} (none : b ∉ y) : Char.ofNat b.toNat ∉ decodeLossy y :=
    fun member => none (mem_of_ofNat_mem_decodeLossy ascii member)
  induction x using cut_induction b with
  | last y none =>
    rw [pieces_unended none, pieces_unended (whole none)]
    by_cases empty : y = []
    · subst empty
      rfl
    · have : decodeLossy y ≠ [] := fun nothing => empty (decodeLossy_eq_nil nothing)
      simp [empty, this]
  | cut y z none ih =>
    rw [decodeLossy_append_ascii y ascii, pieces_append_sep _ (whole none),
      pieces_append_sep z none, ih]
    rfl

end SymbolNav.Text.Utf8
