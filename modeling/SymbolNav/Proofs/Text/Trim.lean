/-
  SymbolNav/Proofs/Text/Trim.lean
  ===============================
  **What is left of a text without the white space at its ends.**

  A text is white space, what is left of it, and white space (`exists_trim`); and what
  stands between white space with edges that are none is what is left
  (`trim_of_edges`).  Everything about `trim` follows from these two.
-/
import SymbolNav.Proofs.Text.Cut
import SymbolNav.Text.Blank

namespace SymbolNav.Text

variable {s l front core back : List Char}

/-- The text neither begins nor ends with white space. -/
structure Edged (s : List Char) : Prop where
  head : ∀ c ∈ s.head?, isBlank c = false
  last : ∀ c ∈ s.getLast?, isBlank c = false

/-- The program is built on core alone, which has no name for what `trimEnd` does. -/
theorem trimEnd_eq_rdropWhile (s : List Char) : trimEnd s = s.rdropWhile isBlank := rfl

theorem trim_of_edges (before : ∀ c ∈ front, isBlank c = true) (edged : Edged core)
    (behind : ∀ c ∈ back, isBlank c = true) : trim (front ++ core ++ back) = core := by
  unfold trim
  cases core with
  | nil =>
    have nothing : (front ++ [] ++ back).dropWhile isBlank = [] := by
      rw [List.append_nil, List.dropWhile_eq_nil_iff]
      exact fun c member => (List.mem_append.mp member).elim (before c) (behind c)
    rw [nothing]
    rfl
  | cons c core =>
    rw [List.append_assoc, dropWhile_append_stop before (by simpa using edged.head),
      trimEnd_eq_rdropWhile, rdropWhile_append_stop edged.last,
      List.rdropWhile_eq_nil_iff.mpr behind, List.append_nil]

theorem exists_trim (s : List Char) : ∃ front back, (∀ c ∈ front, isBlank c = true) ∧
    (∀ c ∈ back, isBlank c = true) ∧ Edged (trim s) ∧ s = front ++ trim s ++ back := by
  have start : s.takeWhile isBlank ++ s.dropWhile isBlank = s := List.takeWhile_append_dropWhile
  have ends : trim s ++ (s.dropWhile isBlank).rtakeWhile isBlank = s.dropWhile isBlank :=
    List.rdropWhile_append_rtakeWhile
  refine ⟨s.takeWhile isBlank, (s.dropWhile isBlank).rtakeWhile isBlank,
    fun c => List.mem_takeWhile_imp, fun c => List.mem_rtakeWhile_imp, ⟨?_, ?_⟩, ?_⟩
  · intro c first
    have stop := List.head?_dropWhile_not isBlank s
    rw [← ends, List.head?_append, show (trim s).head? = some c from first] at stop
    simpa using stop
  · intro c last
    exact getLast?_rdropWhile_not (l := s.dropWhile isBlank) last
  · rw [List.append_assoc, ends, start]

theorem trim_of_blank (blank : ∀ c ∈ s, isBlank c = true) : trim s = [] := by
  have whole : trim (s ++ [] ++ []) = [] := trim_of_edges blank ⟨nofun, nofun⟩ nofun
  rwa [List.append_nil, List.append_nil] at whole

/-- White space at the end is nothing to what is left. -/
theorem trim_append_blank (blank : ∀ c ∈ back, isBlank c = true) : trim (l ++ back) = trim l := by
  obtain ⟨front, rest, before, behind, edged, whole⟩ := exists_trim l
  have all : ∀ c ∈ rest ++ back, isBlank c = true :=
    fun c member => (List.mem_append.mp member).elim (behind c) (blank c)
  calc trim (l ++ back) = trim (front ++ trim l ++ (rest ++ back)) := by
        rw [← List.append_assoc, ← whole]
    _ = trim l := trim_of_edges before edged all

/-! ### Carriage returns before line feeds -/

/-- The text without the carriage returns that a line feed directly follows. -/
def dropFeedReturns : List Char → List Char
  | [] => []
  | c :: s => if c = '\r' ∧ s.head? = some '\n' then dropFeedReturns s else c :: dropFeedReturns s

theorem dropFeedReturns_subset (s : List Char) : dropFeedReturns s ⊆ s := by
  induction s with
  | nil => exact List.Subset.refl _
  | cons c s ih =>
    rw [dropFeedReturns]
    split
    · exact List.subset_cons_of_subset c ih
    · exact List.cons_subset_cons c ih

theorem dropFeedReturns_append (apart : ¬(l.getLast? = some '\r' ∧ s.head? = some '\n')) :
    dropFeedReturns (l ++ s) = dropFeedReturns l ++ dropFeedReturns s := by
  induction l with
  | nil => rfl
  | cons c l ih =>
    cases l with
    | nil =>
      have stays : ¬(c = '\r' ∧ s.head? = some '\n') := by simpa using apart
      simp [dropFeedReturns, stays]
    | cons d l =>
      rw [List.getLast?_cons_cons] at apart
      rw [List.cons_append, dropFeedReturns, dropFeedReturns, ih apart]
      by_cases feed : c = '\r' ∧ d = '\n' <;> simp [feed]

theorem getLast?_dropFeedReturns (s : List Char) :
    (dropFeedReturns s).getLast? = s.getLast? := by
  induction s with
  | nil => rfl
  | cons c s ih =>
    rw [dropFeedReturns]
    split
    case isTrue feed =>
      cases s with
      | nil => simp at feed
      | cons d s => rw [ih, List.getLast?_cons_cons]
    case isFalse => rw [List.getLast?_cons, List.getLast?_cons, ih]

theorem Edged.dropFeedReturns (edged : Edged s) : Edged (dropFeedReturns s) := by
  refine ⟨?_, by rw [getLast?_dropFeedReturns]; exact edged.last⟩
  cases s with
  | nil => simp [Text.dropFeedReturns]
  | cons c s =>
    have shown : isBlank c = false := edged.head c rfl
    have stays : ¬(c = '\r' ∧ s.head? = some '\n') := by
      rintro ⟨rfl, -⟩
      cases shown
    rw [Text.dropFeedReturns, if_neg stays]
    simpa using shown

/-- The white space at the ends takes no part in what happens between them. -/
theorem dropFeedReturns_trim (s : List Char) :
    dropFeedReturns (trim s) = trim (dropFeedReturns s) := by
  obtain ⟨front, back, before, behind, edged, whole⟩ := exists_trim s
  by_cases nothing : trim s = []
  · have blank : ∀ c ∈ s, isBlank c = true := by
      rw [whole, nothing, List.append_nil]
      exact fun c member => (List.mem_append.mp member).elim (before c) (behind c)
    rw [nothing, trim_of_blank fun c member => blank c (dropFeedReturns_subset s member)]
    rfl
  · -- where the white space ends on either side, no line feed follows a carriage return
    have first : ¬(front.getLast? = some '\r' ∧ (trim s).head? = some '\n') := by
      rintro ⟨-, feed⟩
      cases edged.head _ feed
    have second : ¬((front ++ trim s).getLast? = some '\r' ∧ back.head? = some '\n') := by
      rintro ⟨back, -⟩
      rw [List.getLast?_append_of_ne_nil _ nothing] at back
      cases edged.last _ back
    have parts : dropFeedReturns s =
        dropFeedReturns front ++ dropFeedReturns (trim s) ++ dropFeedReturns back := by
      rw [← dropFeedReturns_append first, ← dropFeedReturns_append second, ← whole]
    rw [parts, trim_of_edges _ edged.dropFeedReturns]
    · exact fun c member => behind c (dropFeedReturns_subset back member)
    · exact fun c member => before c (dropFeedReturns_subset front member)

end SymbolNav.Text
