/-
  SymbolNav/Proofs/Config/Contained.lean
  ======================================
  **Saving replaces the settings file at once, and touches nothing else.**

  Saving goes through four stages, and each may fail: the directories above the file
  are made, the text is printed, the temporary file is written, and it takes the place
  of the settings file.  The first only makes directories (`Grown`).  The temporary file
  stands beside the settings file, at another place (`place_temporary_ne`), so the third
  changes nothing at the settings file, and the fourth changes these two places alone
  (`Rooted.entry?_move`).
-/
import SymbolNav.Proofs.Config.Saved
import SymbolNav.Proofs.Files.Ways

namespace SymbolNav

open Text

namespace Config

open FileTree (Grown Rooted Names)

variable {c : Config} {files files₁ files₂ files' : FileTree} {p : Path}

/-! ### The temporary file -/

theorem temporaryName_counts (w : Part) :
    Part.counts (temporaryName w) = true ∧ temporaryName w ≠ ['.', '.'] := by
  have length : 4 ≤ (temporaryName w).length := by simp [temporaryName]
  have short {v : Part} (less : v.length < 4) : temporaryName w ≠ v := by
    rintro rfl
    omega
  exact ⟨by simp [Part.counts, short], short (by simp)⟩

/-- Paths with the same names up to the last, and nothing after it that counts, are the same. -/
theorem same_of_parts {q : Path} {before idle : List Part} {w : Part} (counts : w.counts = true)
    (whole : p.parts = before ++ w :: idle) (rest : ∀ v ∈ idle, v.counts = false)
    (parts : q.parts = before ++ [w]) : q.Same p := by
  have filled : w ≠ [] := by
    rintro rfl
    cases counts
  have absolute : q.isAbsolute = p.isAbsolute := by
    rw [Path.isAbsolute_of_parts whole filled, Path.isAbsolute_of_parts parts filled]
  have first : q.parts.head? = p.parts.head? := by
    rw [whole, parts]
    cases before <;> rfl
  have lead : q.lead = p.lead := by rw [Path.lead, Path.lead, absolute, first]
  have steps : q.steps = p.steps := by
    have none := Path.stepsOf_eq_nil rest
    rw [Path.steps, Path.steps, whole, parts, List.append_cons before w idle,
      Path.stepsOf_append _ idle, none, List.append_nil]
  show q.components = p.components
  rw [Path.components_eq, Path.components_eq, lead, steps]

/-- **The temporary file is at another place** than the settings file. -/
theorem place_temporary_ne (other : ¬(temporary p).Same p) (t : FileTree) :
    t.place (temporary p) ≠ t.place p := by
  cases last : p.splitLast? with
  | none =>
    have same : temporary p = p := by simp [temporary, Path.withExtension, last]
    rw [same] at other
    exact absurd rfl other
  | some cut =>
    obtain ⟨before, w⟩ := cut
    by_cases back : w = ['.', '.']
    · have same : temporary p = p := by simp [temporary, Path.withExtension, last, back]
      rw [same] at other
      exact absurd rfl other
    · obtain ⟨counts, idle, rest, whole⟩ := Path.parts_of_splitLast? last
      have parts := parts_temporary_of_splitLast? last back
      obtain ⟨counts', name'⟩ := temporaryName_counts w
      rw [t.place_of_parts whole counts back rest,
        t.place_of_parts parts counts' name' (by simp)]
      intro same
      have names : temporaryName w = w := by
        simpa using congrArg List.getLast? same
      rw [names] at parts
      exact other (same_of_parts counts whole rest parts)

/-! ### The stages -/

/-- A file has been written. -/
structure Written (t t' : FileTree) (p : Path) (content : List UInt8) : Prop where
  here : t'.here = t.here
  names : ∃ before w d, Names t' p before w d
  file : ∃ executable, t'.entry? (t.place p) = some (.file content executable)
  noDirectory : t.entry? (t.place p) ≠ some .directory
  others : ∀ q, q ≠ t.place p → t'.entry? q = t.entry? q
  rooted : t.Rooted → t'.Rooted

theorem written_of_write {t t' : FileTree} {content : List UInt8}
    (h : t.write p content = .ok t') : Written t t' p content := by
  obtain ⟨before, w, d, executable, names, noDirectory, rfl⟩ := FileTree.of_write h
  have leads := names.place_eq
  refine ⟨rfl, ⟨before, w, d, names.put noDirectory _⟩, ⟨executable, ?_⟩, ?_, ?_, ?_⟩
  · rw [leads]
    exact FileTree.entry?_put_self (by simp)
  · rwa [leads]
  · rw [leads]
    exact fun q unlike => FileTree.entry?_put_other unlike
  · exact fun rooted => rooted.put names.directory noDirectory

/-- Directories stay. -/
theorem Written.directory {t t' : FileTree} {content : List UInt8} (h : Written t t' p content)
    {q : Place} (there : t.entry? q = some .directory) : t'.entry? q = some .directory := by
  have unlike : q ≠ t.place p := by
    rintro rfl
    exact h.noDirectory there
  rw [h.others q unlike, there]

/-- Where a file has been written, all directories were there before. -/
theorem Written.directory_before {t t' : FileTree} {content : List UInt8}
    (h : Written t t' p content) {q : Place} (there : t'.entry? q = some .directory) :
    t.entry? q = some .directory := by
  obtain ⟨executable, file⟩ := h.file
  have unlike : q ≠ t.place p := by
    rintro rfl
    rw [file] at there
    cases there
  rw [← h.others q unlike, there]

theorem entries_of_rename {t t' : FileTree} {source : Path} {content : List UInt8}
    {executable : Bool} (rooted : t.Rooted) (h : t.rename source p = .ok t')
    (names : ∃ before w d, Names t source before w d)
    (file : t.entry? (t.place source) = some (.file content executable))
    (apart : t.place source ≠ t.place p) :
    t'.here = t.here ∧ t'.Rooted ∧ ∀ q, t'.entry? q =
      if q = t.place p then some (.file content executable)
      else if q = t.place source then none else t.entry? q := by
  obtain ⟨before, w, d, names⟩ := names
  rw [names.place_eq] at file apart ⊢
  obtain ⟨before', w', d', names', ⟨same, -⟩ | ⟨-, free, rfl⟩⟩ := FileTree.of_rename h names file
  · exact absurd (same.trans names'.place_eq.symm) apart
  · rw [names'.place_eq] at apart ⊢
    refine ⟨rfl, rooted.move file names'.directory free apart, ?_⟩
    rw [← file]
    exact rooted.entry?_move file free apart

/-! ### Making the directories -/

/-- The place is that of a path above. -/
def Above (files : FileTree) (p : Path) (q : Place) : Prop :=
  ∃ a, a.Ancestor p ∧ q = files.place a

theorem grown_prepared (files : FileTree) (p : Path) :
    Grown files (prepared files p).1 (Above files p) := by
  unfold prepared
  cases up : p.parent? with
  | none => exact .refl files
  | some d =>
    refine (FileTree.grown_makeDirectories files d).mono ?_
    rintro q (here | ⟨a, above, here⟩)
    · exact ⟨d, .parent up, here⟩
    · exact ⟨a, .further up above, here⟩

/-! ### What saving does -/

/-- Everything has gone well but the last stage. -/
def OnlyRenameFails (c : Config) (files : FileTree) (p : Path) : Prop :=
  ∃ files₁ s files₂ fault, prepared files p = (files₁, none) ∧ c.text = .ok s ∧
    files₁.write (temporary p) (Utf8.encode s) = .ok files₂ ∧
    files₂.rename (temporary p) p = .error fault

/-- **All or nothing**, at the settings file and around it. -/
structure Contained (c : Config) (files : FileTree) (p : Path) (files' : FileTree)
    (failure : Option Error) : Prop where
  rooted : files'.Rooted
  others : ∀ q e, q ≠ files.place p → q ≠ files.place (temporary p) →
    files.entry? q = some e → files'.entry? q = some e
  added : ∀ q e, files.entry? q = none → files'.entry? q = some e →
    e = .directory ∧ Above files p q ∨ q = files.place p ∧ failure = none ∨
      q = files.place (temporary p) ∧ OnlyRenameFails c files p
  /-- The settings file is as it was, but a directory may have been made there on the way to it. -/
  fails : failure ≠ none →
    (∀ d e, files.find p = .ok (d, e) → files'.find p = .ok (d, e)) ∧
    (files'.entry? (files.place p) = files.entry? (files.place p) ∨
      files.entry? (files.place p) = none ∧ files'.entry? (files.place p) = some .directory ∧
        Above files p (files.place p))
  succeeds : failure = none → ∃ s executable, c.text = .ok s ∧
    files'.entry? (files.place p) = some (.file (Utf8.encode s) executable) ∧
    files'.read p = .ok (Utf8.encode s) ∧
    files'.entry? (files.place (temporary p)) = none ∧ files'.contains (temporary p) = false

/-- Where directories stay and the entry does, a path names what it named. -/
theorem find_of_kept {d : Place} {e : Entry} (here : files'.here = files.here)
    (directories : ∀ q, files.entry? q = some .directory → files'.entry? q = some .directory)
    (kept : files'.entry? d = files.entry? d) (found : files.find p = .ok (d, e)) :
    files'.find p = .ok (d, e) :=
  FileTree.find_mono here directories found
    (kept.trans (FileTree.find_eq_ok_iff.mp found).2.2)

/-- A failure after which only the temporary file is another than when the directories were made. -/
theorem contained_of_failure (rooted : files'.Rooted) (other : ¬(temporary p).Same p)
    (grown : Grown files files₁ (Above files p)) (here : files'.here = files₁.here)
    (kept : ∀ q, q ≠ files.place (temporary p) → files'.entry? q = files₁.entry? q)
    (directories : ∀ q, files₁.entry? q = some .directory → files'.entry? q = some .directory)
    (last : files'.entry? (files.place (temporary p)) =
        files₁.entry? (files.place (temporary p)) ∨ OnlyRenameFails c files p) (e : Error) :
    Contained c files p files' (some e) := by
  have apart : files.place p ≠ files.place (temporary p) := (place_temporary_ne other files).symm
  refine ⟨rooted, ?_, ?_, fun _ => ⟨?_, ?_⟩, nofun⟩
  · intro q e _ unlike there
    rw [kept q unlike]
    rcases grown.entries q with same | ⟨free, -, -⟩
    · rw [same, there]
    · rw [there] at free
      cases free
  · intro q e free there
    have made (same : files'.entry? q = files₁.entry? q) : e = .directory ∧ Above files p q := by
      rcases grown.entries q with old | ⟨-, made, above⟩
      · rw [same, old, free] at there
        cases there
      · rw [same, made] at there
        exact ⟨(Option.some.inj there).symm, above⟩
    by_cases unlike : q = files.place (temporary p)
    · subst unlike
      rcases last with same | only
      · exact .inl (made same)
      · exact .inr (.inr ⟨rfl, only⟩)
    · exact .inl (made (kept q unlike))
  · intro d e found
    have leads : d = files.place p := (FileTree.place_of_find found).symm
    refine find_of_kept (here.trans grown.here) (fun q => directories q ∘ grown.directory) ?_ found
    rw [leads, kept _ apart]
    rcases grown.entries (files.place p) with same | ⟨free, -, -⟩
    · exact same
    · rw [← leads, (FileTree.find_eq_ok_iff.mp found).2.2] at free
      cases free
  · rw [kept _ apart]
    exact grown.entries _

/-- The temporary file has taken the place of the settings file. -/
theorem contained_of_success (rooted : files.Rooted) (other : ¬(temporary p).Same p)
    (grown : Grown files files₁ (Above files p)) {s : List Char} (text : c.text = .ok s)
    (written : files₁.write (temporary p) (Utf8.encode s) = .ok files₂)
    (renamed : files₂.rename (temporary p) p = .ok files') :
    Contained c files p files' none := by
  have replaced : replaceFile files₁ p (Utf8.encode s) = (files', none) := by
    rw [replaceFile, written]
    dsimp only
    rw [renamed]
  have content := read_replaceFile replaced
  have leads (q : Path) : files₁.place q = files.place q := FileTree.place_of_here grown.here q
  have writes := written_of_write written
  obtain ⟨executable, file⟩ := writes.file
  obtain ⟨here, rooted, entries⟩ := entries_of_rename (writes.rooted (grown.rooted rooted)) renamed
    writes.names (by rwa [FileTree.place_of_here writes.here])
    (place_temporary_ne other files₂)
  rw [FileTree.place_of_here writes.here, FileTree.place_of_here writes.here, leads, leads]
    at entries
  have apart : files.place (temporary p) ≠ files.place p := place_temporary_ne other files
  have gone : files'.entry? (files.place (temporary p)) = none := by
    rw [entries, if_neg apart, if_pos rfl]
  have elsewhere {q : Place} (away : q ≠ files.place p) (unlike : q ≠ files.place (temporary p)) :
      files'.entry? q = files₁.entry? q := by
    rw [entries, if_neg away, if_neg unlike]
    exact writes.others q (by rwa [leads])
  refine ⟨rooted, ?_, ?_, nofun, fun _ => ⟨s, executable, text, ?_, content, gone, ?_⟩⟩
  · intro q e away unlike there
    rw [elsewhere away unlike]
    rcases grown.entries q with same | ⟨free, -, -⟩
    · rw [same, there]
    · rw [there] at free
      cases free
  · intro q e free there
    by_cases away : q = files.place p
    · exact .inr (.inl ⟨away, rfl⟩)
    · by_cases unlike : q = files.place (temporary p)
      · rw [unlike, gone] at there
        cases there
      · rw [elsewhere away unlike] at there
        rcases grown.entries q with same | ⟨-, made, above⟩
        · rw [same, free] at there
          cases there
        · rw [made] at there
          exact .inl ⟨(Option.some.inj there).symm, above⟩
  · rw [entries, if_pos rfl]
  · apply FileTree.contains_eq_false
    rw [FileTree.place_of_here (here.trans writes.here), leads]
    exact gone

/-- Whatever becomes of saving, it is contained. -/
theorem save_contained (c : Config) {files : FileTree} {p : Path} (rooted : files.Rooted)
    (other : ¬(temporary p).Same p) :
    Contained c files p (c.save files p).1 (c.save files p).2 := by
  have grown := grown_prepared files p
  have unwritten (e : Error) : Contained c files p (prepared files p).1 (some e) :=
    contained_of_failure (grown.rooted rooted) other grown rfl (fun _ _ => rfl) (fun _ => id)
      (.inl rfl) e
  rw [save_eq]
  rcases made : prepared files p with ⟨files₁, _ | fault⟩
  · rw [made] at grown unwritten
    cases text : c.text with
    | error e => exact unwritten e
    | ok s =>
      dsimp only
      unfold replaceFile
      cases written : files₁.write (temporary p) (Utf8.encode s) with
      | error fault => exact unwritten _
      | ok files₂ =>
        dsimp only
        cases renamed : files₂.rename (temporary p) p with
        | ok files₃ => exact contained_of_success rooted other grown text written renamed
        | error fault =>
          have only : OnlyRenameFails c files p :=
            ⟨files₁, s, files₂, fault, made, text, written, renamed⟩
          have writes := written_of_write written
          have leads := FileTree.place_of_here grown.here (temporary p)
          exact contained_of_failure (writes.rooted (grown.rooted rooted)) other grown writes.here
            (leads ▸ writes.others) (fun q => writes.directory) (.inr only) _
  · rw [made] at unwritten
    exact unwritten _

/-- A settings file in a directory is replaced, unless the settings cannot be written. -/
theorem save_contained_replaced :
    let files : FileTree := ⟨[([['d']], .directory), ([['d'], ['c']], .file [35] false)], []⟩
    let p : Path := ⟨"d/c"⟩
    let c : Config := { standard with maxConcurrentReads := Nat.pow 2 63 }
    files.Rooted ∧ ¬(temporary p).Same p ∧
      ((c.save files p).2 ≠ none ∧
        (c.save files p).1.find p = .ok ([['d'], ['c']], .file [35] false)) ∧
      (standard.save files p).2 = none ∧
        (standard.save files p).1.read p = .ok (Utf8.encode standard.print) := by
  intro files p c
  have rooted : files.Rooted := FileTree.rooted_of_entries (by decide +kernel)
  have other : ¬(temporary p).Same p := by decide +kernel
  have fails : (c.save files p).2 ≠ none := by decide +kernel
  have saved : (standard.save files p).2 = none := by decide +kernel
  obtain ⟨found, -⟩ := (save_contained c rooted other).fails fails
  obtain ⟨s, -, text, -, content, -⟩ := (save_contained standard rooted other).succeeds saved
  cases (text_of_small (c := standard) (by decide)).symm.trans text
  exact ⟨rooted, other, ⟨fails, found _ _ (by decide +kernel)⟩, saved, content⟩

/-- A path that goes through its own place has a directory made there, which no file can replace. -/
theorem save_at_directory_made :
    let files : FileTree := ⟨[([['a']], .file [35] false)], []⟩
    let p : Path := ⟨"x/../x"⟩
    ¬(temporary p).Same p ∧ files.contains p = false ∧ files.entry? (files.place p) = none ∧
      (standard.save files p).2 = some (.io FileFault.isADirectory.message) ∧
      FileTree.entry? (standard.save files p).1 (files.place p) = some .directory := by
  decide +kernel

end Config

end SymbolNav
