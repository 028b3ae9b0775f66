/-
  SymbolNav/Proofs/Path/Above.lean
  ================================
  **The path above a path**, by the parts that count.

  It starts where the path does and has all its steps but the last (`parent?_of_parts`), and
  nothing follows its own last step (`Tidy`), though parts that do not count may have stood
  there.
-/
import SymbolNav.Proofs.Path.Names

namespace SymbolNav.Path

open Text

variable {p : Path} {before ws : List Part} {w : Part}

/-! ### The last step -/

/-- Nothing follows the last step. -/
def Tidy (p : Path) : Prop :=
  p.parts.filter Part.counts = [] ∨ ∃ before w, p.parts = before ++ [w] ∧ w.counts = true

theorem withoutIdleEnd_cases (ws : List Part) :
    withoutIdleEnd ws = [] ∨
      ∃ before w, withoutIdleEnd ws = before ++ [w] ∧ w.counts = true := by
  rcases List.eq_nil_or_concat' (withoutIdleEnd ws) with none | ⟨before, w, ends⟩
  · exact .inl none
  · exact .inr ⟨before, w, ends, last_withoutIdleEnd ws w (by simp [ends])⟩

theorem tidy_of_parts {v : Part} (whole : p.parts = v :: withoutIdleEnd ws) : p.Tidy := by
  rcases withoutIdleEnd_cases ws with none | ⟨before, w, ends, counts⟩
  · rw [none] at whole
    by_cases counts : v.counts = true
    · exact .inr ⟨[], v, whole, counts⟩
    · exact .inl (by simp [whole, counts])
  · exact .inr ⟨v :: before, w, by rw [whole, ends, List.cons_append], counts⟩

theorem splitLast?_of_parts (whole : p.parts = before ++ [w]) (counts : w.counts = true) :
    p.splitLast? = some (before, w) := by
  simp [splitLast?, whole, counts]

theorem components_ne_nil (whole : p.parts = before ++ [w]) (counts : w.counts = true) :
    p.components ≠ [] ∧ p.text ≠ "" := by
  have some : p.components ≠ [] := by
    simp [components_eq, steps, whole, stepsOf, counts]
  refine ⟨some, fun empty => some ?_⟩
  obtain rfl : p = ⟨""⟩ := congrArg Path.mk empty
  rfl

/-! ### One step up -/

/-- The path starts where `p` does and takes the steps of some parts. -/
structure UpTo (above p : Path) (before : List Part) : Prop where
  absolute : above.isAbsolute = p.isAbsolute
  tidy : above.Tidy
  steps : above.parts.filter Part.counts = before.filter Part.counts

theorem upTo_root (free : ∀ v ∈ ws, '/' ∉ v) (starts : p.isAbsolute = true) :
    (p.trimEndParts ([] :: ws)).UpTo p ([] :: ws) := by
  have trimmed : p.trimEndParts ([] :: ws) = ⟨"/" ++ (ofParts (withoutIdleEnd ws)).text⟩ :=
    if_pos starts
  obtain ⟨fromRoot, parts⟩ := parts_root (ofParts (withoutIdleEnd ws))
  rw [← trimmed] at fromRoot parts
  have absolute := fromRoot.trans starts.symm
  have steps := filter_withoutIdleEnd ws
  rcases withoutIdleEnd_cases ws with none | ⟨front, u, ends, last⟩
  · -- Nothing but the root is left, and its text has two parts that do not count.
    have idle : ([] :: ws).filter Part.counts = [] := by
      rw [List.filter_cons_of_neg (by decide), ← steps, none, List.filter_nil]
    have nothing : (p.trimEndParts ([] :: ws)).parts.filter Part.counts = [] := by
      rw [parts, none]
      rfl
    exact ⟨absolute, .inl nothing, nothing.trans idle.symm⟩
  · have some : withoutIdleEnd ws ≠ [] := by simp [ends]
    rw [parts_ofParts some (free_withoutIdleEnd free)] at parts
    refine ⟨absolute, tidy_of_parts parts, ?_⟩
    rw [parts, List.filter_cons, List.filter_cons, steps]

theorem upTo_relative {v : Part} (free : ∀ u ∈ v :: ws, '/' ∉ u) (relative : p.isAbsolute = false)
    (filled : v ≠ []) : (p.trimEndParts (v :: ws)).UpTo p (v :: ws) := by
  have kept := free_cons_withoutIdleEnd free
  have trimmed := trimEndParts_of_relative relative filled ws
  have parts : (p.trimEndParts (v :: ws)).parts = v :: withoutIdleEnd ws := by
    rw [trimmed, parts_ofParts (List.cons_ne_nil _ _) kept]
  refine ⟨?_, tidy_of_parts parts, ?_⟩
  · rw [trimmed, relative]
    exact isAbsolute_ofParts kept (by simpa using filled)
  · rw [parts, List.filter_cons, List.filter_cons, filter_withoutIdleEnd]

/-- **The path above has all steps but the last.** -/
theorem parent?_of_parts (whole : p.parts = before ++ [w]) (counts : w.counts = true) :
    ∃ above, p.parent? = some above ∧ above.UpTo p before := by
  have free : ∀ v ∈ before, '/' ∉ v := by
    intro v member
    exact free_of_mem_parts (p := p) v (by simp [whole, member])
  have filled : w ≠ [] := by
    rintro rfl
    cases counts
  have absolute := isAbsolute_of_parts whole filled
  have up : p.parent? = some (p.trimEndParts before) := by
    simp [parent?, splitLast?_of_parts whole counts]
  refine ⟨_, up, ?_⟩
  cases before with
  | nil => exact ⟨absolute.symm, .inl rfl, rfl⟩
  | cons v ws =>
    by_cases root : v = []
    · subst root
      exact upTo_root (fun u member => free u (List.mem_cons_of_mem _ member))
        (by simpa using absolute)
    · exact upTo_relative free (by simpa [root] using absolute) root

/-! ### The character that ends texts -/

/-- A path holds the character that no path may hold if and only if a step does. -/
theorem nul_mem_iff : '\x00' ∈ p.text.toList ↔ ∃ v ∈ p.parts.filter Part.counts, '\x00' ∈ v := by
  have flat := flatten_splitOn '/' p.text.toList
  constructor
  · intro member
    have kept : '\x00' ∈ p.parts.flatten := by
      rw [parts, flat]
      exact List.mem_filter.mpr ⟨member, rfl⟩
    obtain ⟨v, part, inside⟩ := List.mem_flatten.mp kept
    refine ⟨v, List.mem_filter.mpr ⟨part, ?_⟩, inside⟩
    have filled : v ≠ [] := List.ne_nil_of_mem inside
    have undotted : v ≠ ['.'] := by
      rintro rfl
      revert inside
      decide
    simp [Part.counts, filled, undotted]
  · rintro ⟨v, part, inside⟩
    have kept : '\x00' ∈ p.parts.flatten :=
      List.mem_flatten.mpr ⟨v, (List.mem_filter.mp part).1, inside⟩
    rw [parts, flat] at kept
    exact (List.mem_filter.mp kept).1

end SymbolNav.Path
