/-
  SymbolNav/Proofs/Files/Replace.lean
  ===================================
  **A file that was replaced is read as what it was replaced with.**

  The temporary file has the same path as the settings file but for its name
  (`parts_temporary`), so both stand in one directory.  The move from the one to the
  other leaves the way to that directory alone: neither place is a directory, and
  neither is above the directory that both are in.
-/
import SymbolNav.ConfigFile
import SymbolNav.Proofs.Files.Tree
import SymbolNav.Proofs.Path.Names

namespace SymbolNav

open Text

namespace Config

open FileTree (Names)

/-! ### The temporary file -/

section Replace

variable {t : FileTree} {p : Path} {before : List Part} {w : Part} {d : Place}

/-- The name of the temporary file. -/
def temporaryName (w : Part) : Part := (Path.splitName w).1 ++ ['.', 't', 'm', 'p']

theorem mem_of_mem_stem {c : Char} (member : c ∈ (Path.splitName w).1) : c ∈ w := by
  unfold Path.splitName at member
  dsimp only at member
  split at member
  · exact member
  · exact List.mem_of_mem_take member

theorem parts_temporary_of_splitLast? (last : p.splitLast? = some (before, w))
    (name : w ≠ ['.', '.']) : (temporary p).parts = before ++ [temporaryName w] := by
  have made : temporary p = .ofParts (before ++ [temporaryName w]) := by
    simp [temporary, Path.withExtension, last, name, temporaryName]
  have free := Path.free_of_mem_parts (p := p)
  obtain ⟨-, idle, -, whole⟩ := Path.parts_of_splitLast? last
  rw [whole] at free
  rw [made]
  refine Path.parts_ofParts (by simp) ?_
  intro v member inside
  rcases List.mem_append.mp member with old | new
  · exact free v (List.mem_append_left _ old) inside
  · cases List.mem_singleton.mp new
    rcases List.mem_append.mp inside with stem | extension
    · exact free w (by simp) (mem_of_mem_stem stem)
    · exact absurd extension (by decide)

theorem parts_temporary (named : p.parts = before ++ [w])
    (name : w ≠ [] ∧ w ≠ ['.'] ∧ w ≠ ['.', '.']) :
    (temporary p).parts = before ++ [temporaryName w] := by
  have counts : w.counts = true := by simp [Part.counts, name.1, name.2.1]
  have last : p.splitLast? = some (before, w) := by
    simp [Path.splitLast?, named, counts]
  exact parts_temporary_of_splitLast? last name.2.2

theorem startOf_temporary (parts : p.parts = before ++ [w])
    (name : w ≠ [] ∧ w ≠ ['.'] ∧ w ≠ ['.', '.']) (t : FileTree) :
    t.startOf (temporary p) = t.startOf p := by
  have filled : temporaryName w ≠ [] := by simp [temporaryName]
  rw [FileTree.startOf, FileTree.startOf, Path.isAbsolute_of_parts parts name.1,
    Path.isAbsolute_of_parts (parts_temporary parts name) filled]

/-! ### Replacing -/

theorem read_of_names {content : List UInt8} {executable : Bool} (names : Names t p before w d)
    (file : t.entry? (d ++ [w]) = some (.file content executable)) :
    t.read p = .ok content := by
  simp only [FileTree.read, names.find file]

/-- The settings file and its temporary file are in the same directory. -/
theorem directory_eq {before' : List Part} {w' : Part} {d' : Place} (names : Names t p before w d)
    (names' : Names t (temporary p) before' w' d') : d' = d := by
  have parts := parts_temporary names.parts names.name
  obtain ⟨same, -⟩ := List.append_inj' (names'.parts.symm.trans parts) rfl
  have walks := names'.walks
  rw [startOf_temporary names.parts names.name, same, names.walks] at walks
  exact (Except.ok.inj walks).symm

/-- A file is replaced by writing the temporary file and renaming it. -/
theorem of_replaceFile {files files' : FileTree} {content : List UInt8}
    (h : replaceFile files p content = (files', none)) :
    ∃ files₁, files.write (temporary p) content = .ok files₁ ∧
      files₁.rename (temporary p) p = .ok files' := by
  unfold replaceFile at h
  split at h
  case h_1 => cases h
  case h_2 files₁ written =>
    split at h
    case h_1 => cases h
    case h_2 files₂ renamed =>
      cases h
      exact ⟨files₁, written, renamed⟩

/-- **A replaced file is there and holds what it was replaced with.** -/
theorem read_replaceFile {files files' : FileTree} {content : List UInt8}
    (h : replaceFile files p content = (files', none)) :
    files'.read p = .ok content := by
  obtain ⟨files₁, written, renamed⟩ := of_replaceFile h
  obtain ⟨before', w', d', executable, names', noDirectory, rfl⟩ := FileTree.of_write written
  have temporary := names'.put noDirectory (.file content executable)
  have file := FileTree.entry?_put_self (t := files) (p := d' ++ [w']) (by simp)
    (e := .file content executable)
  obtain ⟨before, w, d, names, same | ⟨other, free, moved⟩⟩ :=
    FileTree.of_rename renamed temporary file
  · obtain ⟨place, rfl⟩ := same
    exact read_of_names names (by rw [← place]; exact file)
  · cases directory_eq names temporary
    subst moved
    have notDirectory : FileTree.entry? (files.put (d' ++ [w']) (.file content executable))
        (d' ++ [w']) ≠ some .directory := by
      rw [file]
      simp
    have apart : ¬d' ++ [w] <+: d' ++ [w'] := by
      intro below
      exact other (below.eq_of_length (by simp)).symm
    have arrived := FileTree.entry?_move_target
      (t := files.put (d' ++ [w']) (.file content executable)) (by simp) (by simp) apart
    exact read_of_names (names.move notDirectory free) (arrived.trans file)

end Replace

end Config

end SymbolNav
