/-
  SymbolNav/Proofs/Files/Joined.lean
  ==================================
  **A path means the same whether it is joined to a directory or looked up from within it.**

  Joined to the path of a directory, a path names what it names where that directory is
  the working directory (`isFile_join`), be it relative, absolute or empty.  And files
  stay files where nothing is taken away (`Undeleted.isFile`).
-/
import SymbolNav.Proofs.Files.Ways

namespace SymbolNav.FileTree

variable {t t' t'' : FileTree} {root child path : Path} {p d : Place} {ws : List Part}

/-! ### Where a walk starts -/

/-- A walk does not depend on the working directory, except for where it starts. -/
theorem walk_here (t : FileTree) (d p : Place) (ws : List Part) :
    ({ t with here := d } : FileTree).walk p ws = t.walk p ws := by
  induction ws generalizing p with
  | nil => rfl
  | cons w ws ih =>
    rw [walk, walk, show FileTree.entry? { t with here := d } p = t.entry? p from rfl]
    split
    · rfl
    · rfl
    · exact ih (stepTo p w)

theorem find_here_of_isAbsolute (absolute : path.isAbsolute = true) (d : Place) :
    ({ t with here := d } : FileTree).find path = t.find path := by
  simp only [find, startOf, absolute, if_true, walk_here]
  rfl

theorem unusable?_join (usable : unusable? root = none) (filled : child.text ≠ "") :
    unusable? (root.join child) = unusable? child := by
  obtain ⟨clean, named⟩ := unusable?_eq_none_iff.mp usable
  have texts : (root.join child).text ≠ "" := by
    unfold Path.join
    split
    · exact filled
    · split <;> simp [named, filled]
  have nuls : '\x00' ∈ (root.join child).text.toList ↔ '\x00' ∈ child.text.toList := by
    unfold Path.join
    split
    · exact Iff.rfl
    · split <;> simp [clean]
  simp [unusable?, texts, filled, nuls]

/-! ### From a directory -/

/-- The parts that a join puts in front lead to the directory. -/
theorem walk_of_front (there : t.find root = .ok (d, .directory))
    (front : ws = root.parts ∨ ws ++ [[]] = root.parts) : t.walk (t.startOf root) ws = .ok d := by
  obtain ⟨-, walks, -⟩ := find_eq_ok_iff.mp there
  rcases front with rfl | closed
  · exact walks
  · rw [← closed, walk_append] at walks
    cases way : t.walk (t.startOf root) ws with
    | error fault => rw [way] at walks; cases walks
    | ok q =>
      rw [way] at walks
      have ends : d = q := eq_of_walk_empty (by simp) walks
      rw [ends]

theorem walk_join (there : t.find root = .ok (d, .directory))
    (relative : child.isAbsolute = false) :
    t.walk (t.startOf (root.join child)) (root.join child).parts = t.walk d child.parts := by
  have named : root.text ≠ "" := (unusable?_eq_none_iff.mp (find_eq_ok_iff.mp there).1).2
  obtain ⟨ws, -, whole, front⟩ := Path.parts_join named relative
  have start : t.startOf (root.join child) = t.startOf root := by
    rw [startOf, startOf, Path.isAbsolute_join named relative]
  rw [start, whole, walk_append, walk_of_front there front]
  rfl

/-- **What a path names from within a directory, it names when joined to the directory's path.** -/
theorem find_join (there : t.find root = .ok (d, .directory)) (filled : child.text ≠ "") :
    t.find (root.join child) = ({ t with here := d } : FileTree).find child := by
  by_cases absolute : child.isAbsolute = true
  · rw [show root.join child = child from if_pos absolute, find_here_of_isAbsolute absolute d]
  · have relative : child.isAbsolute = false := by simpa using absolute
    have usable := (find_eq_ok_iff.mp there).1
    have start : ({ t with here := d } : FileTree).startOf child = d := by simp [startOf, relative]
    simp only [find, unusable?_join usable filled, walk_join there relative, start, walk_here]
    rfl

/-- Joined with nothing, the path of a directory still names it. -/
theorem find_join_empty (there : t.find root = .ok (d, .directory)) :
    t.find (root.join ⟨""⟩) = .ok (d, .directory) := by
  obtain ⟨usable, -, standing⟩ := find_eq_ok_iff.mp there
  obtain ⟨clean, named⟩ := unusable?_eq_none_iff.mp usable
  refine find_eq_ok_iff.mpr ⟨unusable?_eq_none_iff.mpr ?_, ?_, standing⟩
  · unfold Path.join
    split
    · contradiction
    · split <;> simp [clean, named]
  · rw [walk_join there rfl]
    exact walk_cons_eq_ok.mpr ⟨standing, rfl⟩

theorem isFile_iff : t.isFile path = true ↔
    ∃ place content executable, t.find path = .ok (place, .file content executable) := by
  unfold isFile
  split
  case h_1 place content executable found =>
    exact iff_of_true rfl ⟨place, content, executable, found⟩
  case h_2 other =>
    exact iff_of_false Bool.false_ne_true fun ⟨place, content, executable, found⟩ =>
      other place content executable found

theorem isFile_here_of_isAbsolute (absolute : path.isAbsolute = true) (d : Place) :
    ({ t with here := d } : FileTree).isFile path = t.isFile path := by
  rw [isFile, isFile, find_here_of_isAbsolute absolute d]

/-- **A path is a file from within a directory if and only if it is one when joined to the
directory's path.** -/
theorem isFile_join (there : t.find root = .ok (d, .directory)) (child : Path) :
    t.isFile (root.join child) = ({ t with here := d } : FileTree).isFile child := by
  by_cases filled : child.text = ""
  · obtain rfl : child = ⟨""⟩ := congrArg Path.mk filled
    rw [isFile, find_join_empty there]
    rfl
  · rw [isFile, isFile, find_join there filled]

theorem isFile_of_write {content : List UInt8} (writes : t.write path content = .ok t') :
    t'.isFile path = true := by
  obtain ⟨before, w, d, executable, names, noDirectory, rfl⟩ := of_write writes
  exact isFile_iff.mpr ⟨_, content, executable,
    (names.put noDirectory _).find (FileTree.entry?_put_self (by simp))⟩

/-! ### Where nothing is taken away -/

/-- Files are files still and directories are directories; there may be more, and other content. -/
structure Undeleted (t t' : FileTree) : Prop where
  here : t'.here = t.here
  directories : ∀ q, t.entry? q = some .directory → t'.entry? q = some .directory
  files : ∀ q content executable, t.entry? q = some (.file content executable) →
    ∃ content' executable', t'.entry? q = some (.file content' executable')

theorem Undeleted.refl (t : FileTree) : Undeleted t t :=
  ⟨rfl, fun _ found => found, fun _ content executable found => ⟨content, executable, found⟩⟩

theorem undeleted_put (absent : t.entry? p = none) (e : Entry) : Undeleted t (t.put p e) := by
  have stays {q : Place} {f : Entry} (there : t.entry? q = some f) :
      FileTree.entry? (t.put p e) q = some f := by
    have other : q ≠ p := by
      rintro rfl
      cases absent.symm.trans there
    rw [entry?_put_other other, there]
  exact ⟨rfl, fun q => stays, fun q content executable there => ⟨content, executable, stays there⟩⟩

theorem Undeleted.find_directory (h : Undeleted t t') (there : t.find path = .ok (p, .directory)) :
    t'.find path = .ok (p, .directory) :=
  find_mono h.here h.directories there (h.directories p (find_eq_ok_iff.mp there).2.2)

theorem Undeleted.isFile (h : Undeleted t t') (file : t.isFile path = true) :
    t'.isFile path = true := by
  obtain ⟨place, content, executable, found⟩ := isFile_iff.mp file
  obtain ⟨content', executable', standing⟩ :=
    h.files place content executable (find_eq_ok_iff.mp found).2.2
  exact isFile_iff.mpr
    ⟨place, content', executable', find_mono h.here h.directories found standing⟩

end SymbolNav.FileTree
