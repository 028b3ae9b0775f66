/-
  SymbolNav/Proofs/Resolve/Lines.lean
  ===================================
  **A source line is what its own octets say**, whatever the rest of the file holds.

  The file is decoded before its lines are counted, but a line feed is an octet that
  nothing before it can swallow or create (`lineOfBytes_eq`).  What is left of the
  `n`-th segment is its text without the carriage returns at its end.
-/
import SymbolNav.Host
import SymbolNav.Proofs.Resolve.Source
import SymbolNav.Proofs.Text.Segment

namespace SymbolNav

open Text

/-! ### Carriage returns -/

namespace Text

theorem exists_returns (s : List Char) : ∃ k, s = dropReturns s ++ List.replicate k '\r' := by
  have returns : s.rtakeWhile (· = '\r') =
      List.replicate (s.rtakeWhile (· = '\r')).length '\r' := by
    apply List.eq_replicate_of_mem
    intro c member
    simpa using List.mem_rtakeWhile_imp member
  refine ⟨(s.rtakeWhile (· = '\r')).length, ?_⟩
  rw [← returns]
  exact List.rdropWhile_append_rtakeWhile.symm

theorem getLast?_dropReturns (s : List Char) : (dropReturns s).getLast? ≠ some '\r' := by
  intro last
  have stop := getLast?_rdropWhile_not (p := (· = '\r')) (l := s) last
  simp at stop

theorem dropReturns_subset (s : List Char) : dropReturns s ⊆ s := by
  obtain ⟨k, whole⟩ := exists_returns s
  intro c member
  rw [whole]
  exact List.mem_append_left _ member

end Text

/-! ### Lines -/

/-- The line is the text of the `n`-th segment without the carriage returns at its end; it is empty
if there is no such segment. -/
structure IsSourceLine (bytes : List UInt8) (n : Nat) (line : List Char) : Prop where
  segment : ∀ w, IsSegment 0x0A bytes n w →
    ∃ k, Utf8.decodeLossy w = line ++ List.replicate k '\r'
  missing : (∀ w, ¬IsSegment 0x0A bytes n w) → line = []
  feedless : '\n' ∉ line
  returnless : line.getLast? ≠ some '\r'

theorem isSourceLine_lineOfBytes (bytes : List UInt8) (n : Nat) :
    IsSourceLine bytes n (lineOfBytes bytes n) := by
  rw [lineOfBytes_eq]
  constructor
  · intro w segment
    rw [content_pieces_iff.mpr segment]
    exact exists_returns _
  · intro none
    cases content : (pieces 0x0A bytes)[n]?.map Piece.content with
    | none => rfl
    | some w => exact absurd (content_pieces_iff.mp content) (none w)
  · intro feed
    have octet : (0x0A : UInt8) ∈ ((pieces 0x0A bytes)[n]?.map Piece.content).getD [] :=
      Utf8.mem_of_ofNat_mem_decodeLossy (by decide) (dropReturns_subset _ feed)
    cases content : (pieces 0x0A bytes)[n]?.map Piece.content with
    | none => simp [content] at octet
    | some w =>
      obtain ⟨before, after, between, -, -⟩ := content_pieces_iff.mp content
      rw [content] at octet
      exact between.whole octet
  · exact getLast?_dropReturns _

theorem lineOfBytes_of_edit {bytes bytes' : List UInt8} {n : Nat}
    (edit : EditsElsewhere 0x0A n bytes bytes') : lineOfBytes bytes' n = lineOfBytes bytes n := by
  rw [lineOfBytes_eq, lineOfBytes_eq, edit.content_pieces]

/-- **Source lines are local.**  Reading a line of a file gives the text of its segment without
line end, or nothing past the end of the file; and any file that has been edited in other lines
only, with as many line feeds before this one, gives the same. -/
theorem source_line_local {files : FileTree} {file : Path} {bytes : List UInt8}
    (stored : files.read file = .ok bytes) (n : Nat) :
    ∃ line : List Char, files.sourceReader file n = .text (.ofList line) ∧
      IsSourceLine bytes n line ∧
      ∀ (files' : FileTree) (file' : Path) (bytes' : List UInt8),
        files'.read file' = .ok bytes' → EditsElsewhere 0x0A n bytes bytes' →
          files'.sourceReader file' n = .text (.ofList line) := by
  refine ⟨lineOfBytes bytes n, ?_, isSourceLine_lineOfBytes bytes n, ?_⟩
  · simp only [FileTree.sourceReader, stored]
  · intro files' file' bytes' stored' edit
    simp only [FileTree.sourceReader, stored', lineOfBytes_of_edit edit]

/-- A line that ends in two carriage returns, after a line that is cut off within a character and
before one that has nothing but the beginning of another; the edit takes all of that away. -/
theorem source_line_local_returns :
    let bytes : List UInt8 := [0xE2, 0x82, 0x0A, 0xFF, 0x78, 0x0D, 0x0D, 0x0A, 0xF0]
    let bytes' : List UInt8 := [0x0A, 0xFF, 0x78, 0x0D, 0x0D]
    let files : FileTree := ⟨[([['a']], .file bytes false), ([['b']], .file bytes' false)], []⟩
    files.read ⟨"/a"⟩ = .ok bytes ∧ files.read ⟨"/b"⟩ = .ok bytes' ∧
      EditsElsewhere 0x0A 1 bytes bytes' ∧
      files.sourceReader ⟨"/b"⟩ 1 = files.sourceReader ⟨"/a"⟩ 1 := by
  intro bytes bytes' files
  have stored : files.read ⟨"/a"⟩ = .ok bytes := by decide +kernel
  have stored' : files.read ⟨"/b"⟩ = .ok bytes' := by decide +kernel
  have here : Between (0x0A : UInt8) 1 [0xE2, 0x82, 0x0A] [0xFF, 0x78, 0x0D, 0x0D] [0x0A, 0xF0] :=
    ⟨by decide, by simp, by decide, by simp⟩
  have there : Between (0x0A : UInt8) 1 [0x0A] [0xFF, 0x78, 0x0D, 0x0D] [] :=
    ⟨by decide, by simp, by decide, by simp⟩
  have edit : EditsElsewhere 0x0A 1 bytes bytes' := .around here there
  obtain ⟨line, reads, -, elsewhere⟩ := source_line_local stored 1
  exact ⟨stored, stored', edit, (elsewhere files ⟨"/b"⟩ bytes' stored' edit).trans reads.symm⟩

end SymbolNav
