/-
  SymbolNav/Proofs/Text/Boundary.lean
  ===================================
  **The octets of one text are found in those of another only where the text itself
  stands.**

  An octet that begins a character does so wherever it is, so what a text begins with
  is met only where the other text can be cut (`isBoundary_of_occurs`).  It can be cut
  between two characters and nowhere else (`isBoundary_encode_iff`), and from such a
  place on, octets agree exactly as far as characters do (`encode_prefix_iff`).
-/
import SymbolNav.Proofs.Text.Encode

namespace SymbolNav.Text.Utf8

variable {s t before after : List Char} {n : Nat}

/-! ### Octets and characters -/

/-- From the same place on, octets agree exactly as far as characters do. -/
theorem encode_prefix_iff : encode t <+: encode s ↔ t <+: s := by
  constructor
  · rintro ⟨rest, whole⟩
    have shown := congrArg (emittedFrom .start) whole
    rw [emittedFrom_encode_append, emittedFrom_encode] at shown
    have first : t.map some <+: s.map some := ⟨_, shown⟩
    exact (List.prefix_map_iff_of_injective fun _ _ => Option.some.inj).mp first
  · rintro ⟨rest, rfl⟩
    exact ⟨encode rest, (encode_append t rest).symm⟩

/-! ### Boundaries -/

theorem isBoundary_append (x y : List UInt8) (n : Nat) :
    isBoundary (x ++ y) (x.length + n) = isBoundary y n := by
  unfold isBoundary
  rw [List.getElem?_append_right (Nat.le_add_right _ n), Nat.add_sub_cancel_left]
  simp

/-- Of the octets of a character only the first begins one. -/
theorem isBoundary_char (c : Char) (s : List Char) (inside : n < (String.utf8EncodeChar c).length) :
    isBoundary (encode (c :: s)) n = decide (n = 0) := by
  unfold isBoundary
  rw [encode_cons, List.getElem?_append_left inside, List.getElem?_eq_getElem inside]
  exact decide_eq_decide.mpr UInt8.isUTF8FirstByte_getElem_utf8EncodeChar

theorem length_char_pos (c : Char) : 0 < (String.utf8EncodeChar c).length := by
  rw [String.length_utf8EncodeChar]
  exact c.utf8Size_pos

/-- A text has at least as many octets as characters. -/
theorem length_le_length_encode (s : List Char) : s.length ≤ (encode s).length := by
  induction s with
  | nil => exact Nat.le_refl 0
  | cons c s ih =>
    have := length_char_pos c
    rw [encode_cons, List.length_append, List.length_cons]
    omega

theorem isBoundary_zero (s : List Char) : isBoundary (encode s) 0 = true := by
  cases s with
  | nil => rfl
  | cons c s => exact isBoundary_char c s (length_char_pos c)

/-- **A text can be cut between two characters, and nowhere else.** -/
theorem isBoundary_encode_iff :
    isBoundary (encode s) n = true ↔
      ∃ before after, before ++ after = s ∧ n = (encode before).length := by
  constructor
  · intro boundary
    induction s generalizing n with
    | nil =>
      have zero : n = 0 := by simpa [isBoundary, encode] using boundary
      exact ⟨[], [], rfl, zero⟩
    | cons c s ih =>
      by_cases inside : n < (String.utf8EncodeChar c).length
      · rw [isBoundary_char c s inside] at boundary
        exact ⟨[], c :: s, rfl, of_decide_eq_true boundary⟩
      · obtain ⟨m, rfl⟩ := Nat.exists_eq_add_of_le (Nat.le_of_not_lt inside)
        rw [encode_cons, isBoundary_append] at boundary
        obtain ⟨before, after, rfl, rfl⟩ := ih boundary
        refine ⟨c :: before, after, rfl, ?_⟩
        rw [encode_cons, List.length_append]
  · rintro ⟨before, after, rfl, rfl⟩
    have start := isBoundary_append (encode before) (encode after) 0
    rw [Nat.add_zero, isBoundary_zero, ← encode_append] at start
    exact start

/-- What is cut off before a place between two characters is what stands before it. -/
theorem take?_encode (before after : List Char) :
    take? (encode (before ++ after)) (encode before).length = some before := by
  have boundary := isBoundary_encode_iff.mpr ⟨before, after, rfl, rfl⟩
  rw [take?, if_pos boundary, encode_append, List.take_left, decodeLossy_encode]

/-! ### Occurrences -/

theorem isBoundary_of_occurs (nonempty : t ≠ []) (occurs : encode t <+: (encode s).drop n) :
    isBoundary (encode s) n = true := by
  obtain ⟨c, t, rfl⟩ := List.exists_cons_of_ne_nil nonempty
  obtain ⟨rest, octets⟩ := occurs
  have first : (encode s)[n]? = (String.utf8EncodeChar c)[0]? := by
    have head := congrArg (·[0]?) octets
    simp only [encode_cons, List.append_assoc, List.getElem?_drop, Nat.add_zero] at head
    rw [← head, List.getElem?_append_left (length_char_pos c)]
  unfold isBoundary
  rw [first, List.getElem?_eq_getElem (length_char_pos c)]
  exact decide_eq_true UInt8.isUTF8FirstByte_getElem_zero_utf8EncodeChar

/-- **Where the octets of a text are found, the text stands.** -/
theorem exists_split_of_occurs (nonempty : t ≠ []) (occurs : encode t <+: (encode s).drop n) :
    ∃ before after, before ++ after = s ∧ n = (encode before).length ∧ t <+: after := by
  obtain ⟨before, after, rfl, rfl⟩ :=
    isBoundary_encode_iff.mp (isBoundary_of_occurs nonempty occurs)
  rw [encode_append, List.drop_left] at occurs
  exact ⟨before, after, rfl, rfl, encode_prefix_iff.mp occurs⟩

theorem occurs_of_prefix_drop {k : Nat} (stands : t <+: s.drop k) :
    encode t <+: (encode s).drop (encode (s.take k)).length := by
  have cut : encode s = encode (s.take k) ++ encode (s.drop k) := by
    rw [← encode_append, List.take_append_drop]
  rw [cut, List.drop_left]
  exact encode_prefix_iff.mpr stands

end SymbolNav.Text.Utf8
