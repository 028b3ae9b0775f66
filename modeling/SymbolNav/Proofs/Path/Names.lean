/-
  SymbolNav/Proofs/Path/Names.lean
  ================================
  **The name of a file and its extension**, told by the components of its path.

  The last component decides: if it is a name, it is the file name
  (`fileName?_eq_some_iff`), and what follows its last dot is the extension, unless
  nothing stands before that dot (`extension?_eq_some_iff`).
-/
import SymbolNav.Proofs.Path.Components

namespace SymbolNav.Path

open Text

variable {p : Path} {before : List Part} {w name stem ext : Part}

/-! ### The last component -/

/-- The last part that counts has only parts after it that do not. -/
theorem parts_of_splitLast? (last : p.splitLast? = some (before, w)) :
    w.counts = true ∧ ∃ idle, (∀ v ∈ idle, v.counts = false) ∧ p.parts = before ++ w :: idle := by
  unfold splitLast? at last
  split at last
  case h_1 => cases last
  case h_2 w' back whole =>
    cases last
    obtain ⟨counts, idle, rest, parts⟩ := exists_of_dropWhile_reverse whole
    exact ⟨by simpa using counts, idle, by simpa using rest, parts⟩

theorem getLast?_components_of_splitLast? (last : p.splitLast? = some (before, w)) :
    p.components.getLast? = some w.component := by
  obtain ⟨counts, idle, rest, whole⟩ := parts_of_splitLast? last
  have steps : p.steps = stepsOf before ++ [w.component] := by
    rw [Path.steps, whole, List.append_cons, stepsOf_append, stepsOf_append, stepsOf_eq_nil rest]
    simp [stepsOf, counts]
  rw [components_eq, steps, ← List.append_assoc, List.getLast?_concat]

theorem components_of_splitLast?_none (none : p.splitLast? = none) : p.components = p.lead := by
  have idle : ∀ w ∈ p.parts, w.counts = false := by
    unfold splitLast? at none
    split at none
    case h_1 all =>
      intro w member
      simpa using List.dropWhile_eq_nil_iff.mp all w (List.mem_reverse.mpr member)
    case h_2 => cases none
  rw [components_eq, steps, stepsOf_eq_nil idle, List.append_nil]

/-- **The file name is the last component**, if that is a name. -/
theorem fileName?_eq_some_iff :
    p.fileName? = some w ↔ p.components.getLast? = some (.name (.ofList w)) := by
  unfold fileName?
  cases last : p.splitLast? with
  | none =>
    have leads : ∀ s, p.lead.getLast? ≠ some (.name s) := by
      intro s
      unfold lead
      split
      · simp
      · split <;> simp
    simp [components_of_splitLast?_none last, leads]
  | some cut =>
    obtain ⟨before, v⟩ := cut
    rw [getLast?_components_of_splitLast? last, Part.component]
    by_cases back : v = ['.', '.']
    · simp [back]
    · simp [back, String.ofList_inj]

/-! ### Extensions -/

theorem splitName_of_dotless (dotless : '.' ∉ name) : splitName name = (name, none) := by
  have all : name.rtakeWhile (· ≠ '.') = name := by
    rw [List.rtakeWhile_eq_self_iff]
    intro c member
    simpa using ne_of_mem_of_not_mem member dotless
  exact if_pos (.inl (congrArg List.length all))

/-- A name is cut at its last dot, if something stands before that. -/
theorem splitName_append_dot (dotless : '.' ∉ ext) :
    splitName (stem ++ '.' :: ext) =
      if stem = [] then (stem ++ '.' :: ext, none) else (stem, some ext) := by
  have tail : ((stem ++ '.' :: ext).reverse.takeWhile (· ≠ '.')).reverse = ext := by
    have inside : ∀ c ∈ ext.reverse, decide (c ≠ '.') = true := by
      intro c member
      simpa using ne_of_mem_of_not_mem (List.mem_reverse.mp member) dotless
    rw [List.reverse_append, List.reverse_cons, List.append_assoc,
      takeWhile_append_stop inside (by simp), List.reverse_reverse]
  have front : (stem ++ '.' :: ext).take ((stem ++ '.' :: ext).length - ext.length - 1) = stem := by
    have length : (stem ++ '.' :: ext).length - ext.length - 1 = stem.length := by
      simp only [List.length_append, List.length_cons]
      omega
    rw [length, List.take_left]
  have shorter : ext.length ≠ (stem ++ '.' :: ext).length := by
    simp only [List.length_append, List.length_cons]
    omega
  unfold splitName
  dsimp only
  rw [tail, front]
  simp only [shorter, false_or]

theorem snd_splitName_eq_some_iff :
    (splitName name).2 = some ext ↔ ∃ stem, stem ≠ [] ∧ name = stem ++ '.' :: ext ∧ '.' ∉ ext := by
  constructor
  · intro cut
    by_cases dot : '.' ∈ name.reverse
    · obtain ⟨tail, front, whole, first⟩ := List.eq_append_cons_of_mem dot
      have name_eq : name = front.reverse ++ '.' :: tail.reverse := by
        simpa using congrArg List.reverse whole
      have dotless : '.' ∉ tail.reverse := by simpa using first
      rw [name_eq, splitName_append_dot dotless] at cut
      split at cut
      case isTrue => cases cut
      case isFalse some =>
        obtain rfl := Option.some.inj cut
        exact ⟨_, some, name_eq, dotless⟩
    · rw [splitName_of_dotless (by simpa using dot)] at cut
      cases cut
  · rintro ⟨stem, some, rfl, dotless⟩
    rw [splitName_append_dot dotless, if_neg some]

/-- **The extension is what follows the last dot of the file name**, if something stands before
that dot. -/
theorem extension?_eq_some_iff :
    p.extension? = some ext ↔ ∃ stem, stem ≠ [] ∧ '.' ∉ ext ∧
      p.components.getLast? = some (.name (.ofList (stem ++ '.' :: ext))) := by
  unfold extension?
  simp only [Option.bind_eq_some_iff, fileName?_eq_some_iff, snd_splitName_eq_some_iff]
  constructor
  · rintro ⟨w, last, stem, some, rfl, dotless⟩
    exact ⟨stem, some, dotless, last⟩
  · rintro ⟨stem, some, dotless, last⟩
    exact ⟨_, last, stem, some, rfl, dotless⟩

end SymbolNav.Path
