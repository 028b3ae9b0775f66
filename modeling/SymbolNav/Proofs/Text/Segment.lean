/-
  SymbolNav/Proofs/Text/Segment.lean
  ==================================
  **The `n`-th segment of a sequence, told without cutting it**: what stands after `n`
  separators and goes on to the next one or to the end.

  It is the content of the `n`-th piece (`content_pieces_iff`).  So it stays the same
  whatever is done to the other segments, as long as as many separators come before it
  (`EditsElsewhere`).
-/
import SymbolNav.Proofs.Text.Cut
import Mathlib.Data.List.Count

namespace SymbolNav.Text

variable {α : Type} [DecidableEq α]

/-- `w` stands between the separators, with `n` of them before it. -/
structure Between (sep : α) (n : Nat) (before w after : List α) : Prop where
  count : before.count sep = n
  starts : ∀ c ∈ before.getLast?, c = sep
  whole : sep ∉ w
  ends : ∀ c ∈ after.head?, c = sep

/-- `w` is the `n`-th segment of `l`.  Nothing at all after a final separator is no segment. -/
def IsSegment (sep : α) (l : List α) (n : Nat) (w : List α) : Prop :=
  ∃ before after, Between sep n before w after ∧ before ++ (w ++ after) = l ∧ w ++ after ≠ []

/-- The sequences differ in segments other than the `n`-th, and have as many separators before it;
or both come to an end before it. -/
inductive EditsElsewhere (sep : α) (n : Nat) : List α → List α → Prop
  | around {before before' w after after' : List α} (here : Between sep n before w after)
    (there : Between sep n before' w after') :
    EditsElsewhere sep n (before ++ (w ++ after)) (before' ++ (w ++ after'))
  | beyond {l l' : List α} (few : l.count sep < n) (few' : l'.count sep < n) :
    EditsElsewhere sep n l l'

variable {sep : α} {before w after l l' : List α} {n : Nat}

/-! ### Pieces by their number -/

theorem length_pieces_concat (sep : α) (l : List α) :
    (pieces sep (l ++ [sep])).length = l.count sep + 1 := by
  induction l using cut_induction sep with
  | last a whole =>
    rw [pieces_append_sep [] whole, List.count_eq_zero_of_not_mem whole]
    rfl
  | cut a b first ih =>
    rw [List.append_assoc, List.cons_append, pieces_append_sep _ first, List.length_cons, ih,
      List.count_append, List.count_cons_self, List.count_eq_zero_of_not_mem first, Nat.zero_add]

/-- The pieces before a place where a segment starts are as many as the separators there. -/
theorem getElem?_pieces_append (starts : ∀ c ∈ before.getLast?, c = sep) (l : List α) (k : Nat) :
    (pieces sep (before ++ l))[before.count sep + k]? = (pieces sep l)[k]? := by
  rcases List.eq_nil_or_concat before with rfl | ⟨a, c, rfl⟩
  · simp
  · obtain rfl : c = sep := starts c (by simp)
    have number : (a.concat c).count c = (pieces c (a ++ [c])).length := by
      rw [length_pieces_concat, List.concat_eq_append, List.count_append, List.count_singleton_self]
    rw [number, List.concat_eq_append, List.append_assoc, List.singleton_append,
      pieces_append_of_sep, List.getElem?_append_right (Nat.le_add_right _ k),
      Nat.add_sub_cancel_left]

theorem Between.content_pieces (h : Between sep n before w after) :
    (pieces sep (before ++ (w ++ after)))[n]?.map Piece.content =
      if w ++ after = [] then none else some w := by
  have first := getElem?_pieces_append h.starts (w ++ after) 0
  rw [h.count, Nat.add_zero] at first
  rw [first]
  cases rest : after with
  | nil =>
    rw [List.append_nil, pieces_unended h.whole]
    split <;> rfl
  | cons c r =>
    obtain rfl : c = sep := h.ends c (by simp [rest])
    rw [pieces_append_sep r h.whole]
    simp

theorem content_pieces_iff :
    (pieces sep l)[n]?.map Piece.content = some w ↔ IsSegment sep l n w := by
  constructor
  · intro content
    induction l using cut_induction sep generalizing n with
    | last a whole =>
      rw [pieces_unended whole] at content
      split at content
      case isTrue => simp at content
      case isFalse filled =>
        cases n with
        | succ n => simp at content
        | zero =>
          obtain rfl : a = w := by simpa using content
          exact ⟨[], [], ⟨rfl, by simp, whole, by simp⟩, by simp, by simpa using filled⟩
    | cut a b first ih =>
      rw [pieces_append_sep b first] at content
      cases n with
      | zero =>
        obtain rfl : a = w := by simpa using content
        exact ⟨[], sep :: b, ⟨rfl, by simp, first, by simp⟩, rfl, by simp⟩
      | succ n =>
        obtain ⟨before, after, between, rfl, filled⟩ := ih content
        refine ⟨a ++ sep :: before, after, ⟨?_, ?_, between.whole, between.ends⟩, by simp, filled⟩
        · rw [List.count_append, List.count_cons_self, List.count_eq_zero_of_not_mem first,
            between.count, Nat.zero_add]
        · have := between.starts
          cases before with
          | nil => simp
          | cons c before => simpa [List.getLast?_append, List.getLast?_cons_cons] using this
  · rintro ⟨before, after, between, rfl, filled⟩
    rw [between.content_pieces, if_neg filled]

theorem IsSegment.le_count (h : IsSegment sep l n w) : n ≤ l.count sep := by
  obtain ⟨before, after, between, rfl, -⟩ := h
  rw [List.count_append, between.count]
  exact Nat.le_add_right n _

/-- **A segment stays where other segments are edited.** -/
theorem EditsElsewhere.content_pieces (h : EditsElsewhere sep n l l') :
    ((pieces sep l)[n]?.map Piece.content).getD [] =
      ((pieces sep l')[n]?.map Piece.content).getD [] := by
  have none_of_few {m : List α} (few : m.count sep < n) :
      (pieces sep m)[n]?.map Piece.content = none := by
    cases content : (pieces sep m)[n]?.map Piece.content with
    | none => rfl
    | some w => exact absurd (content_pieces_iff.mp content).le_count (Nat.not_le_of_lt few)
  have content_of_between {x y z : List α} (between : Between sep n x y z) :
      ((pieces sep (x ++ (y ++ z)))[n]?.map Piece.content).getD [] = y := by
    rw [between.content_pieces]
    split
    case isTrue empty => exact (List.append_eq_nil_iff.mp empty).1.symm
    case isFalse => rfl
  cases h with
  | around here there => rw [content_of_between here, content_of_between there]
  | beyond few few' => rw [none_of_few few, none_of_few few']

end SymbolNav.Text
