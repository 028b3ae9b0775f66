/-
  SymbolNav/Proofs/Text/Cut.lean
  ==============================
  **Where a sequence comes apart**: the run at its front, the pieces between its
  separators, and its last element.

  Cutting into pieces is a right fold, while whoever reads goes from the left; so
  the laws here say what the *first* separator does (`pieces_append_sep`), and
  `cut_induction` goes from one separator to the next.
-/
import SymbolNav.Text.Lines
import Mathlib.Data.List.DropRight
import Mathlib.Data.List.TakeWhile
import Mathlib.Tactic.Common

namespace SymbolNav.Text

variable {α : Type}

/-! ### Runs at the front -/

section Runs

variable {p : α → Bool}

theorem takeWhile_append_stop {l r : List α} (inside : ∀ c ∈ l, p c = true)
    (stop : ∀ c ∈ r.head?, p c = false) : (l ++ r).takeWhile p = l := by
  rw [List.takeWhile_append_of_pos inside]
  cases r with
  | nil => simp
  | cons c r => simp [stop c rfl]

theorem dropWhile_append_stop {l r : List α} (inside : ∀ c ∈ l, p c = true)
    (stop : ∀ c ∈ r.head?, p c = false) : (l ++ r).dropWhile p = r := by
  rw [List.dropWhile_append_of_pos inside]
  cases r with
  | nil => simp
  | cons c r => simp [stop c rfl]

/-- A sequence is cut at its last element that is not in the run at its end. -/
theorem exists_of_dropWhile_reverse {l before : List α} {c : α}
    (back : l.reverse.dropWhile p = c :: before) :
    p c = false ∧ ∃ run, (∀ d ∈ run, p d = true) ∧ l = before.reverse ++ c :: run := by
  constructor
  · simpa [back] using List.head?_dropWhile_not p l.reverse
  · refine ⟨(l.reverse.takeWhile p).reverse, ?_, ?_⟩
    · intro d member
      exact List.mem_takeWhile_imp (List.mem_reverse.mp member)
    · have apart := List.takeWhile_append_dropWhile (p := p) (l := l.reverse)
      rw [back] at apart
      simpa using (congrArg List.reverse apart).symm

end Runs

/-! ### Pieces -/

section Pieces

variable [DecidableEq α] {sep : α}

theorem pieces_cons (sep c : α) (l : List α) :
    pieces sep (c :: l) = if c = sep then ⟨[], true⟩ :: pieces sep l
      else match pieces sep l with
        | [] => [⟨[c], false⟩]
        | w :: ws => ⟨c :: w.content, w.ended⟩ :: ws := rfl

/-- The first piece ends at the first separator. -/
theorem pieces_append_sep {a : List α} (b : List α) (h : sep ∉ a) :
    pieces sep (a ++ sep :: b) = ⟨a, true⟩ :: pieces sep b := by
  induction a with
  | nil => simp [pieces_cons]
  | cons c a ih =>
    have other : c ≠ sep := by
      rintro rfl
      simp at h
    rw [List.cons_append, pieces_cons, if_neg other, ih (List.not_mem_of_not_mem_cons h)]

/-- Pieces of which a separator ends each come apart again. -/
theorem pieces_flatMap {ws : List (List α)} (free : ∀ w ∈ ws, sep ∉ w) :
    pieces sep (ws.flatMap (· ++ [sep])) = ws.map (⟨·, true⟩) := by
  induction ws with
  | nil => rfl
  | cons w ws ih =>
    obtain ⟨first, others⟩ := List.forall_mem_cons.mp free
    rw [List.flatMap_cons, List.append_assoc, List.singleton_append, pieces_append_sep _ first,
      ih others, List.map_cons]

theorem pieces_unended {a : List α} (h : sep ∉ a) :
    pieces sep a = if a = [] then [] else [⟨a, false⟩] := by
  induction a with
  | nil => rfl
  | cons c a ih =>
    have other : c ≠ sep := by
      rintro rfl
      simp at h
    rw [pieces_cons, if_neg other, ih (List.not_mem_of_not_mem_cons h)]
    cases a <;> simp

/-- A sequence is cut at its separators from the left. -/
theorem cut_induction {P : List α → Prop} (sep : α) (last : ∀ a, sep ∉ a → P a)
    (cut : ∀ a b, sep ∉ a → P b → P (a ++ sep :: b)) (l : List α) : P l := by
  induction length : l.length using Nat.strong_induction_on generalizing l with
  | _ n ih =>
    by_cases more : sep ∈ l
    · obtain ⟨a, b, rfl, first⟩ := List.eq_append_cons_of_mem more
      apply cut a b first
      apply ih b.length _ b rfl
      simp at length
      omega
    · exact last l more

/-- Up to a separator a sequence is cut as if nothing followed. -/
theorem pieces_append_of_sep (a b : List α) :
    pieces sep (a ++ sep :: b) = pieces sep (a ++ [sep]) ++ pieces sep b := by
  induction a using cut_induction sep with
  | last a whole => rw [pieces_append_sep b whole, pieces_append_sep [] whole]; rfl
  | cut a c first ih =>
    rw [List.append_assoc, List.cons_append, pieces_append_sep _ first, ih, List.append_assoc,
      List.cons_append, pieces_append_sep _ first]
    rfl

/-- No piece holds a separator. -/
theorem sep_not_mem_pieces (sep : α) (l : List α) : ∀ w ∈ pieces sep l, sep ∉ w.content := by
  induction l using cut_induction sep with
  | last a whole =>
    rw [pieces_unended whole]
    split
    · simp
    · simpa using whole
  | cut a b first ih =>
    rw [pieces_append_sep b first]
    exact List.forall_mem_cons.mpr ⟨first, ih⟩

theorem ended_of_mem_pieces (sep : α) (a : List α) :
    ∀ w ∈ pieces sep (a ++ [sep]), w.ended = true := by
  induction a using cut_induction sep with
  | last a whole =>
    rw [pieces_append_sep [] whole]
    simp [pieces]
  | cut a c first ih =>
    rw [List.append_assoc, List.cons_append, pieces_append_sep _ first]
    simpa using ih

/-- The pieces of a sequence: those that a separator ends, and what follows the last separator. -/
theorem exists_pieces_eq (sep : α) (l : List α) :
    ∃ ended, (∀ w ∈ ended, w.ended = true) ∧
      pieces sep l = ended ++ pieces sep (l.rtakeWhile (· ≠ sep)) := by
  have split : l.rdropWhile (· ≠ sep) ++ l.rtakeWhile (· ≠ sep) = l :=
    List.rdropWhile_append_rtakeWhile
  by_cases none : l.rdropWhile (· ≠ sep) = []
  · refine ⟨[], nofun, ?_⟩
    rw [none, List.nil_append] at split
    rw [split]
    rfl
  · have last : (l.rdropWhile (· ≠ sep)).getLast none = sep := by
      simpa using List.rdropWhile_last_not (· ≠ sep) l none
    have ends := List.dropLast_append_getLast none
    rw [last] at ends
    refine ⟨_, ended_of_mem_pieces sep (l.rdropWhile (· ≠ sep)).dropLast, ?_⟩
    rw [← pieces_append_of_sep, ← List.singleton_append, ← List.append_assoc, ends, split]

end Pieces

/-! ### The last element -/

theorem dropLastEq_concat [DecidableEq α] (c : α) (l : List α) : dropLastEq c (l ++ [c]) = l := by
  simp [dropLastEq]

theorem dropLastEq_of_ne [DecidableEq α] {c : α} {l : List α} (h : l.getLast? ≠ some c) :
    dropLastEq c l = l := by
  simp [dropLastEq, h]

theorem dropLastEq_subset [DecidableEq α] (c : α) (l : List α) : dropLastEq c l ⊆ l := by
  unfold dropLastEq
  split
  · exact (List.dropLast_sublist l).subset
  · exact List.Subset.refl l

/-- What is dropped at the end is no part of what stands before another element. -/
theorem dropLastEq_append_cons [DecidableEq α] {c d : α} (other : d ≠ c) (l r : List α) :
    dropLastEq c (l ++ d :: r) = l ++ d :: dropLastEq c r := by
  rcases List.eq_nil_or_concat r with rfl | ⟨t, e, rfl⟩
  · rw [dropLastEq_of_ne (by simpa using other)]
    rfl
  · have regroup : l ++ d :: (t ++ [e]) = (l ++ d :: t) ++ [e] := by simp
    rw [List.concat_eq_append, regroup]
    by_cases last : e = c
    · subst last
      rw [dropLastEq_concat, dropLastEq_concat]
    · have ends (m : List α) : (m ++ [e]).getLast? ≠ some c := by simpa using last
      rw [dropLastEq_of_ne (ends _), dropLastEq_of_ne (ends t), regroup]

theorem dropLastEq_dropLastEq [DecidableEq α] {c : α} {l : List α} (h : ¬[c, c] <:+ l) :
    dropLastEq c (dropLastEq c l) = dropLastEq c l := by
  apply dropLastEq_of_ne
  intro last
  by_cases ends : l.getLast? = some c
  · obtain ⟨m, rfl⟩ := List.getLast?_eq_some_iff.mp ends
    rw [dropLastEq_concat] at last
    obtain ⟨k, rfl⟩ := List.getLast?_eq_some_iff.mp last
    exact h ⟨k, by simp⟩
  · rw [dropLastEq_of_ne ends] at last
    exact ends last

theorem getLast?_rdropWhile_not {p : α → Bool} {l : List α} {c : α}
    (last : (l.rdropWhile p).getLast? = some c) : p c = false := by
  have stop := List.head?_dropWhile_not p l.reverse
  rw [List.rdropWhile, List.getLast?_reverse] at last
  rwa [last] at stop

/-- An element that stays keeps what stands before it from what is dropped behind it. -/
theorem rdropWhile_append_stop {p : α → Bool} {l : List α}
    (stop : ∀ c ∈ l.getLast?, p c = false) (r : List α) :
    (l ++ r).rdropWhile p = l ++ r.rdropWhile p := by
  induction r using List.reverseRecOn with
  | nil =>
    rw [List.append_nil, List.rdropWhile_nil, List.append_nil, List.rdropWhile_eq_self_iff]
    intro some
    simpa using stop _ (List.getLast_mem_getLast? some)
  | append_singleton r c ih =>
    rw [← List.append_assoc, List.rdropWhile_concat, List.rdropWhile_concat, ih]
    split
    · rfl
    · rw [List.append_assoc]

/-! ### All pieces between separators -/

/-- An element that is no separator joins the first piece. -/
theorem exists_splitOn_cons [DecidableEq α] {sep c : α} (other : c ≠ sep) (l : List α) :
    ∃ w ws, l.splitOn sep = w :: ws ∧ (c :: l).splitOn sep = (c :: w) :: ws := by
  obtain ⟨w, ws, pieces⟩ := List.exists_cons_of_ne_nil (List.splitOn_ne_nil sep l)
  refine ⟨w, ws, pieces, ?_⟩
  rw [List.splitOn_cons_eq_if_modifyHead, if_neg (by simpa using other), pieces,
    List.modifyHead_cons]

theorem flatten_splitOn [DecidableEq α] (sep : α) (l : List α) :
    (l.splitOn sep).flatten = l.filter (· ≠ sep) := by
  induction l with
  | nil => rfl
  | cons c l ih =>
    by_cases stop : c = sep
    · rw [List.splitOn_cons_eq_if_modifyHead, if_pos (by simpa using stop)]
      simpa [stop] using ih
    · obtain ⟨w, ws, pieces, more⟩ := exists_splitOn_cons stop l
      rw [pieces] at ih
      rw [more]
      simpa [stop] using ih

theorem sep_not_mem_splitOn [DecidableEq α] {sep : α} {w l : List α}
    (piece : w ∈ l.splitOn sep) : sep ∉ w := by
  intro inside
  have kept : sep ∈ (l.splitOn sep).flatten := List.mem_flatten_of_mem piece inside
  rw [flatten_splitOn] at kept
  simp at kept

end SymbolNav.Text
