/-
  SymbolNav/Proofs/Config/Writable.lean
  =====================================
  **When settings can be saved.**

  The file needs a name, and nothing but directories may be on the way to it: those that
  are missing are made (`laid_makeDirectories`).  Neither the settings file nor the
  temporary file may be a directory, or be made one because the way leads through it.
  This is all that is needed, and nothing less will do (`save_succeeds_iff`).
-/
import SymbolNav.Proofs.Config.Contained

namespace SymbolNav.Config

open Text
open FileTree (Along Grown Names Paved)

variable {c : Config} {files files₁ files₂ files' : FileTree} {p : Path} {before : List Part}
  {w : Part}

/-- A settings file can be written at a path that leads through `before` to the name `w`. -/
structure Writable (files : FileTree) (p : Path) (before : List Part) (w : Part) : Prop where
  clean : '\x00' ∉ p.text.toList
  parts : p.parts = before ++ [w]
  name : w ≠ [] ∧ w ≠ ['.'] ∧ w ≠ ['.', '.']
  /-- No file is on the way. -/
  way : Along files.Passable (files.startOf p) before
  /-- Neither of the two files is a directory, or on the way. -/
  free : ∀ f ∈ [p, temporary p], files.entry? (files.place f) ≠ some .directory ∧
    Along (· ≠ files.place f) (files.startOf p) before

theorem counts_of_name (name : w ≠ [] ∧ w ≠ ['.'] ∧ w ≠ ['.', '.']) : w.counts = true := by
  simp [Part.counts, name.1, name.2.1]

/-! ### The two files -/

theorem clean_temporary (clean : '\x00' ∉ p.text.toList) (parts : p.parts = before ++ [w])
    (name : w ≠ [] ∧ w ≠ ['.'] ∧ w ≠ ['.', '.']) : '\x00' ∉ (temporary p).text.toList := by
  rw [Path.nul_mem_iff] at clean ⊢
  rw [parts, List.filter_append] at clean
  rw [parts_temporary parts name, List.filter_append]
  rintro ⟨v, member, inside⟩
  rcases List.mem_append.mp member with old | new
  · exact clean ⟨v, List.mem_append_left _ old, inside⟩
  · obtain rfl := List.mem_singleton.mp (List.mem_of_mem_filter new)
    rcases List.mem_append.mp inside with stem | extension
    · refine clean ⟨w, List.mem_append_right _ ?_, mem_of_mem_stem stem⟩
      simp [counts_of_name name]
    · revert extension
      decide

/-! ### Saving -/

theorem start_of_here (here : files.entry? files.here = some .directory) (p : Path) :
    files.entry? (files.startOf p) = some .directory := by
  unfold FileTree.startOf
  split
  · exact FileTree.entry?_root files
  · exact here

/-- The directories are made, and what is at the places of the two files stays. -/
theorem prepared_of_writable (rooted : files.Rooted)
    (here : files.entry? files.here = some .directory) (h : Writable files p before w) :
    ∃ files₁, prepared files p = (files₁, none) ∧ files₁.Paved (files₁.startOf p) before ∧
      ∀ f ∈ [p, temporary p], files₁.entry? (files₁.place f) ≠ some .directory := by
  obtain ⟨above, parent, up⟩ := Path.parent?_of_parts h.parts (counts_of_name h.name)
  obtain ⟨files₁, made, laid⟩ := FileTree.laid_makeDirectories up.tidy
    (FileTree.clean_of_upTo up h.parts h.clean) rooted (start_of_here here above)
    (by rw [FileTree.startOf_of_upTo up, FileTree.along_of_upTo up]; exact h.way)
  have grown := grown_prepared files p
  have all : prepared files p = (files₁, none) := by rw [prepared, parent]; exact made
  rw [all] at grown
  refine ⟨files₁, all, ?_, ?_⟩
  · have paved := laid.paved
    rwa [FileTree.startOf_of_upTo up, Paved, FileTree.along_of_upTo up] at paved
  · intro f both
    obtain ⟨free, off⟩ := h.free f both
    rw [FileTree.place_of_here grown.here, laid.off]
    · exact free
    · rw [FileTree.startOf_of_upTo up, FileTree.along_of_upTo up]
      exact off

/-- Where the way is there, both paths name a file in its last directory. -/
theorem names_of_paved {t : FileTree} (h : Writable files p before w)
    (paved : t.Paved (t.startOf p) before) :
    Names t p before w (before.foldl FileTree.stepTo (t.startOf p)) ∧
      Names t (temporary p) before (temporaryName w)
        (before.foldl FileTree.stepTo (t.startOf p)) := by
  have parts := parts_temporary h.parts h.name
  obtain ⟨counts, name⟩ := temporaryName_counts w
  have filled : temporaryName w ≠ [] ∧ temporaryName w ≠ ['.'] := by
    simpa [Part.counts] using counts
  have start := startOf_temporary h.parts h.name t
  constructor
  · exact .of_paved (FileTree.unusable?_of_parts h.clean h.parts (counts_of_name h.name)) h.parts
      h.name paved
  · rw [← start] at paved ⊢
    exact .of_paved
      (FileTree.unusable?_of_parts (clean_temporary h.clean h.parts h.name) parts counts) parts
      ⟨filled.1, filled.2, name⟩ paved

theorem save_of_writable (rooted : files.Rooted)
    (here : files.entry? files.here = some .directory) (h : Writable files p before w)
    (small : c.maxConcurrentReads < Toml.integerBound) :
    ∃ files', c.save files p = (files', none) := by
  obtain ⟨files₁, made, paved, free⟩ := prepared_of_writable rooted here h
  obtain ⟨names, names'⟩ := names_of_paved h paved
  have freeTemporary := free (temporary p) (by simp)
  rw [names'.place_eq] at freeTemporary
  obtain ⟨files₂, written⟩ := FileTree.write_of_names names' freeTemporary (Utf8.encode c.print)
  have writes := written_of_write written
  have names₂ := names.mono writes.here fun q => writes.directory
  have names₂' := names'.mono writes.here fun q => writes.directory
  obtain ⟨executable, file⟩ := writes.file
  have freeTarget : files₂.entry? (files₁.place p) ≠ some .directory :=
    fun there => free p (by simp) (writes.directory_before there)
  rw [names.place_eq] at freeTarget
  rw [names'.place_eq] at file
  obtain ⟨files', renamed⟩ := FileTree.rename_of_names names₂' file names₂ freeTarget
  refine ⟨files', ?_⟩
  rw [save_of_small small made, replaceFile, written]
  simp only [renamed]

/-- Where a file was written and renamed, no directory was in the place of either. -/
theorem free_of_rename {content : List UInt8} (writes : Written files₁ files₂ (temporary p) content)
    (renamed : files₂.rename (temporary p) p = .ok files') :
    (∃ before w d, Names files₂ p before w d) ∧
      ∀ f ∈ [p, temporary p], files₁.entry? (files₁.place f) ≠ some .directory := by
  obtain ⟨executable, file⟩ := writes.file
  obtain ⟨before', w', d', names'⟩ := writes.names
  have source : files₁.place (temporary p) = d' ++ [w'] := by
    rw [← FileTree.place_of_here writes.here, names'.place_eq]
  rw [source] at file
  obtain ⟨before, w, d, names, placed⟩ := FileTree.of_rename renamed names' file
  have target : files₁.place p = d ++ [w] := by
    rw [← FileTree.place_of_here writes.here, names.place_eq]
  refine ⟨⟨before, w, d, names⟩, fun f both there => ?_⟩
  rcases List.mem_pair.mp both with rfl | rfl
  · have there := writes.directory there
    rw [target] at there
    rcases placed with ⟨same, -⟩ | ⟨-, free, -⟩
    · rw [← same, file] at there
      cases there
    · exact free there
  · exact writes.noDirectory there

/-- What has been saved went to a writable path. -/
theorem writable_of_save (saved : c.save files p = (files', none)) :
    ∃ before w, Writable files p before w := by
  have small := (load_of_save saved).1
  have grown := grown_prepared files p
  rcases made : prepared files p with ⟨files₁, _ | fault⟩
  case some => cases (save_of_fault made).symm.trans saved
  rw [made] at grown
  obtain ⟨files₂, written, renamed⟩ := of_replaceFile ((save_of_small small made).symm.trans saved)
  have writes := written_of_write written
  obtain ⟨⟨before, w, d, names⟩, free⟩ := free_of_rename writes renamed
  have start : files₂.startOf p = files.startOf p := by
    rw [← grown.startOf, FileTree.startOf, FileTree.startOf, writes.here]
  have paved : files₁.Paved (files.startOf p) before := by
    rw [← start]
    exact names.paved.imp fun q => writes.directory_before
  have place (f : Path) : files₁.place f = files.place f := FileTree.place_of_here grown.here f
  simp only [place] at free
  refine ⟨before, w, (FileTree.unusable?_eq_none_iff.mp names.usable).1, names.parts, names.name,
    ?_, fun f both => ⟨fun there => free f both (grown.directory there), ?_⟩⟩
  · refine paved.imp fun q there => ?_
    rcases grown.entries q with same | ⟨missing, -, -⟩
    · exact .inr (same ▸ there)
    · exact .inl missing
  · refine paved.imp fun q there same => ?_
    rw [same] at there
    exact free f both there

/-- **Settings can be saved at a path if and only if it is writable**, as long as TOML has a number
for all of them. -/
theorem save_succeeds_iff (c : Config) (p : Path) (rooted : files.Rooted)
    (here : files.entry? files.here = some .directory) :
    (c.save files p).2 = none ↔
      c.maxConcurrentReads < Toml.integerBound ∧ ∃ before w, Writable files p before w := by
  constructor
  · intro saved
    have saved : c.save files p = ((c.save files p).1, none) := Prod.ext rfl saved
    exact ⟨(load_of_save saved).1, writable_of_save saved⟩
  · rintro ⟨small, before, w, writable⟩
    obtain ⟨files', saved⟩ := save_of_writable rooted here writable small
    rw [saved]

end SymbolNav.Config
