/-
  SymbolNav/Proofs/Resolve/Source.lean
  ====================================
  **The source line of a hit, and the token on it.**

  A file is decoded as a whole, and only then are its lines counted.  Still each
  line depends on nothing but its own octets (`lineOfBytes_eq`), for a line feed is
  an octet of ASCII.  On the line the token is found where it occurs first
  (`firstMatchFrom_spec`).
-/
import SymbolNav.Proofs.Text.Utf8
import SymbolNav.Resolve

namespace SymbolNav

open Text

/-! ### Source lines -/

namespace Text

theorem dropReturns_dropReturn (s : List Char) : dropReturns (dropReturn s) = dropReturns s := by
  unfold dropReturn
  by_cases last : s.getLast? = some '\r'
  · rcases List.getLast?_eq_some_iff.mp last with ⟨t, rfl⟩
    rw [dropLastEq_concat]
    simp [dropReturns]
  · rw [dropLastEq_of_ne last]

end Text

/-- **A source line depends on nothing but its own octets**: it is what they are read as, without
the carriage returns at its end. -/
theorem lineOfBytes_eq (bytes : List UInt8) (line : Nat) :
    lineOfBytes bytes line = dropReturns (Utf8.decodeLossy
      (((pieces 0x0A bytes)[line]?.map Piece.content).getD [])) := by
  have cut : pieces '\n' (Utf8.decodeLossy bytes) = _ :=
    Utf8.pieces_decodeLossy bytes (b := 0x0A) (by decide)
  unfold lineOfBytes lines
  rw [cut, List.map_map, List.getElem?_map]
  cases (pieces 0x0A bytes)[line]? with
  | none => rfl
  | some w =>
    simp only [Option.map_some, Option.getD_some, Function.comp_apply]
    split
    · exact dropReturns_dropReturn _
    · rfl

/-! ### The token -/

/-- Looking for a token gives the first place from which on it can be read, if there is one. -/
theorem firstMatchFrom_spec {α : Type} [DecidableEq α] (token : List α) (n : Nat) (s : List α) :
    match firstMatchFrom token n s with
    | some m => n ≤ m ∧ token <+: s.drop (m - n) ∧ ∀ k, token <+: s.drop k → m ≤ n + k
    | none => ∀ k, ¬token <+: s.drop k := by
  induction s generalizing n with
  | nil =>
    by_cases empty : token = []
    · simp [firstMatchFrom, empty]
    · simp [firstMatchFrom, empty]
  | cons c s ih =>
    by_cases here : token.isPrefixOf (c :: s) = true
    · simp only [firstMatchFrom, if_pos here]
      refine ⟨Nat.le_refl n, ?_, fun k _ => Nat.le_add_right n k⟩
      rw [Nat.sub_self]
      exact List.isPrefixOf_iff_prefix.mp here
    · have later := ih (n + 1)
      simp only [firstMatchFrom, if_neg here]
      -- a place other than the first is one of what follows
      have shift : ∀ k, token <+: (c :: s).drop k → ∃ j, k = j + 1 ∧ token <+: s.drop j := by
        intro k occurs
        cases k with
        | zero => exact absurd (List.isPrefixOf_iff_prefix.mpr occurs) here
        | succ j => exact ⟨j, rfl, occurs⟩
      split
      case h_1 m found =>
        rw [found] at later
        obtain ⟨above, occurs, first⟩ := later
        refine ⟨by omega, ?_, ?_⟩
        · obtain ⟨j, place⟩ : ∃ j, m - n = j + 1 := ⟨m - n - 1, by omega⟩
          rw [place, List.drop_succ_cons]
          rwa [show m - (n + 1) = j by omega] at occurs
        · intro k occurs
          rcases shift k occurs with ⟨j, rfl, there⟩
          have := first j there
          omega
      case h_2 nowhere =>
        rw [nowhere] at later
        intro k occurs
        rcases shift k occurs with ⟨j, rfl, there⟩
        exact later j there

end SymbolNav
