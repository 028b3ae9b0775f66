/-
  SymbolNav/Proofs/Watch/Filter.lean
  ==================================
  **Which files are watched**, told by the components of their paths.

  The last component has to be a name with one of the extensions, and no name from the
  root on may start with a dot (`accepts_iff`).  Texts do not count: paths with the same
  components are treated alike, and so are all roots that a path goes on from alike.
-/
import SymbolNav.Proofs.Path.Names
import SymbolNav.Proofs.Path.Relative
import SymbolNav.Watch.Basic

namespace SymbolNav

open Text

namespace Path

variable {p q root root' : Path} {rest : List Component}

/-- What a path goes on with from a root; all of it, if it is not below the root. -/
def beyond (p root : Path) : List Component :=
  if root.components <+: p.components then p.components.drop root.components.length
  else p.components

theorem beyond_of_append (whole : p.components = root.components ++ rest) :
    p.beyond root = rest := by
  unfold beyond
  rw [if_pos ⟨rest, whole.symm⟩, whole, List.drop_left]

theorem components_relative (p root : Path) :
    ((p.stripPrefix? root).getD p).components = p.beyond root := by
  cases strips : p.stripPrefix? root with
  | some q => exact (beyond_of_append (components_stripPrefix? strips)).symm
  | none => exact (if_neg (stripPrefix?_eq_none strips)).symm

end Path

namespace Watch

variable {extensions : List String} {p q root root' : Path}

/-- The path ends in a name with one of the extensions; of the dots in front of these none
counts, and neither does the case. -/
def Sourced (extensions : List String) (p : Path) : Prop :=
  ∃ stem ext : List Char, stem ≠ [] ∧ '.' ∉ ext ∧
    p.components.getLast? = some (.name (.ofList (stem ++ '.' :: ext))) ∧
    ∃ e ∈ extensions, lowerCase ext = lowerCase (e.toList.dropWhile (· = '.'))

theorem sourced_iff :
    Sourced extensions p ↔ ∃ ext, p.extension? = some ext ∧
      (of extensions root).extensions.contains (lowerCase ext) = true := by
  have listed (ext : Part) : (of extensions root).extensions.contains (lowerCase ext) = true ↔
      ∃ e ∈ extensions, lowerCase ext = lowerCase (e.toList.dropWhile (· = '.')) := by
    simp [of, normal, eq_comm]
  simp only [Sourced, Path.extension?_eq_some_iff, listed]
  constructor
  · rintro ⟨stem, ext, some, dotless, last, extension⟩
    exact ⟨ext, ⟨stem, some, dotless, last⟩, extension⟩
  · rintro ⟨ext, ⟨stem, some, dotless, last⟩, extension⟩
    exact ⟨stem, ext, some, dotless, last, extension⟩

theorem isHidden_eq_false_iff {w : Watch} :
    w.isHidden p = false ↔ ∀ s, .name s ∈ p.beyond w.root → s.toList.head? ≠ some '.' := by
  rw [isHidden, Path.components_relative, List.any_eq_false]
  constructor
  · intro shown s member
    simpa [isHiddenStep] using shown (.name s) member
  · intro shown c member
    cases c with
    | name s => simpa [isHiddenStep] using shown s member
    | root | current | parent => exact Bool.false_ne_true

theorem accepts_eq_true_iff {w : Watch} : w.accepts p = true ↔
    w.isHidden p = false ∧ ∃ ext, p.extension? = some ext ∧
      w.extensions.contains (lowerCase ext) = true := by
  unfold accepts
  cases p.extension? <;> simp

theorem accepts_of_iff : (of extensions root).accepts p = true ↔
    Sourced extensions p ∧ ∀ s, .name s ∈ p.beyond root → s.toList.head? ≠ some '.' := by
  rw [accepts_eq_true_iff, ← sourced_iff, isHidden_eq_false_iff, and_comm]
  rfl

/-- The last component and what comes after the root decide. -/
theorem accepts_congr (last : p.components.getLast? = q.components.getLast?)
    (onward : p.beyond root = q.beyond root') :
    (of extensions root).accepts p = (of extensions root').accepts q := by
  have names : Sourced extensions p ↔ Sourced extensions q := by
    unfold Sourced
    rw [last]
  rw [Bool.eq_iff_iff, accepts_of_iff, accepts_of_iff, names, onward]

/-- **The files that are watched.**  A path is accepted exactly if it ends in a name with one of
the extensions and no name from the root on is hidden.  So it does not count which root a path
goes on from and what is hidden in that, nor how paths are spelled. -/
theorem accepts_iff (extensions : List String) :
    (∀ root p : Path, (of extensions root).accepts p = true ↔
      Sourced extensions p ∧ ∀ s, .name s ∈ p.beyond root → s.toList.head? ≠ some '.') ∧
    (∀ root root' p q : Path, ∀ rest, rest ≠ [] → p.components = root.components ++ rest →
      q.components = root'.components ++ rest →
        (of extensions root).accepts p = (of extensions root').accepts q) ∧
    ∀ root root' p q : Path, root.Same root' → p.Same q →
      (of extensions root).accepts p = (of extensions root').accepts q := by
  refine ⟨fun root p => accepts_of_iff, ?_, ?_⟩
  · intro root root' p q rest further whole whole'
    apply accepts_congr
    · rw [whole, whole', List.getLast?_append_of_ne_nil _ further,
        List.getLast?_append_of_ne_nil _ further]
    · rw [Path.beyond_of_append whole, Path.beyond_of_append whole']
  · intro root root' p q roots same
    have components : p.components = q.components := same
    have rootComponents : root.components = root'.components := roots
    apply accepts_congr
    · rw [components]
    · rw [Path.beyond, Path.beyond, components, rootComponents]

/-- A file below a hidden directory from which the watch starts, and the same steps from elsewhere;
and a name that has nothing before its dot. -/
theorem accepts_iff_hidden :
    let extensions := ["..C", "h"]
    let root : Path := ⟨"/.a/r"⟩
    (of extensions root).accepts ⟨"/.a//r/x.y.c/"⟩ = true ∧
      (of extensions ⟨"q"⟩).accepts ⟨"q/./x.y.c"⟩ = true ∧
      (of extensions root).accepts ⟨"/.a/r/.c"⟩ = false := by
  intro extensions root
  have law := accepts_iff extensions
  have onward : (⟨"/.a//r/x.y.c/"⟩ : Path).beyond root = [.name "x.y.c"] := by decide +kernel
  have accepted : (of extensions root).accepts ⟨"/.a//r/x.y.c/"⟩ = true := by
    refine (law.1 root _).mpr ⟨⟨"x.y".toList, ['c'], by decide, by decide, by decide +kernel,
      "..C", by simp [extensions], by decide +kernel⟩, ?_⟩
    intro s member
    rw [onward, List.mem_singleton] at member
    cases member
    decide
  have same := law.2.1 root ⟨"q"⟩ ⟨"/.a//r/x.y.c/"⟩ ⟨"q/./x.y.c"⟩ [.name "x.y.c"] (by decide)
    (by decide +kernel) (by decide +kernel)
  refine ⟨accepted, same ▸ accepted, ?_⟩
  rw [← Bool.not_eq_true]
  intro accepted
  exact ((law.1 root ⟨"/.a/r/.c"⟩).mp accepted).2 ".c" (by decide +kernel) (by decide)

end Watch

end SymbolNav
