/-
  SymbolNav/Proofs/Hit/Streaming.lean
  ===================================
  **Hits do not depend on how the output is read**: line by line while it arrives,
  or as a whole.

  Read line by line, the output is cut first and every piece is decoded by itself;
  read as a whole, it is decoded first.  Line feeds and carriage returns are octets
  of ASCII, so this makes no difference.  What remains is the carriage return at the
  end of an unterminated last line: reading line by line takes it for a part of the
  line's end, reading as a whole does not, and the hit itself drops one more.
-/
import SymbolNav.Process
import SymbolNav.Proofs.Hit.Grammar
import SymbolNav.Proofs.Text.Utf8

namespace SymbolNav

open Text

/-! ### One line after the other -/

/-- The lines of a stream, read until there is none. -/
def readLines (bytes : List UInt8) : List String :=
  match _h : nextLine? bytes with
  | none => []
  | some (line, rest) => line :: readLines rest
termination_by bytes.length
decreasing_by exact length_nextLine? _h

theorem readLines_nil : readLines [] = [] := by
  rw [readLines]
  rfl

theorem readLines_of_nextLine? {bytes rest : List UInt8} {line : String}
    (h : nextLine? bytes = some (line, rest)) : readLines bytes = line :: readLines rest := by
  rw [readLines]
  split
  case h_1 none => rw [h] at none; cases none
  case h_2 line' rest' some => rw [h] at some; cases some; rfl

theorem readLines_eq (bytes : List UInt8) :
    readLines bytes = (pieces 0x0A bytes).map
      (fun w => String.ofList (Utf8.decodeLossy (dropLastEq 0x0D w.content))) := by
  have inside {a : List UInt8} (whole : 0x0A ∉ a) : ∀ b ∈ a, decide (b ≠ 0x0A) = true := by
    intro b member
    simp only [decide_eq_true_eq]
    rintro rfl
    exact whole member
  induction bytes using cut_induction (0x0A : UInt8) with
  | last a whole =>
    rw [pieces_unended whole]
    by_cases empty : a = []
    · rw [if_pos empty, empty]
      exact readLines_nil
    · have next : nextLine? a = some (_, _) := if_neg empty
      rw [readLines_of_nextLine? next, if_neg empty,
        List.takeWhile_eq_self_iff.mpr (inside whole), List.dropWhile_eq_nil_iff.mpr (inside whole)]
      simp [readLines_nil]
  | cut a b first ih =>
    have next : nextLine? (a ++ 0x0A :: b) = some (_, _) := if_neg (by simp)
    rw [readLines_of_nextLine? next, pieces_append_sep b first,
      takeWhile_append_stop (inside first) (by simp),
      dropWhile_append_stop (inside first) (by simp)]
    simp [ih]

theorem readLines_stdout (r : Response) : readLines r.stdout = r.lines := by
  simp [readLines_eq, Response.lines, segments]

/-! ### What a text says when its carriage returns are dropped -/

namespace HitLine

/-- The hit that a line is, if it is one; its carriage returns are its own. -/
def hit? (s : List Char) : Option Hit := (HitLine.read s).toOption

end HitLine

open HitLine (hit? Laid IsNumeral)

/-- The hit of a line with one more carriage return at its end. -/
def Hit.withReturn (hit : Hit) : Hit :=
  { hit with trailingText := hit.trailingText ++ "\r", originalLine := hit.originalLine ++ "\r" }

theorem Hit.toOption_parse (line : String) :
    (Hit.parse line).toOption = hit? (dropReturn line.toList) := by
  unfold Hit.parse hit?
  dsimp only
  cases HitLine.read (dropReturn line.toList) <;> rfl

theorem HitLine.hit?_eq_some_iff {s : List Char} {hit : Hit} :
    hit? s = some hit ↔ HitLine.read s = .ok hit := by
  unfold hit?
  cases HitLine.read s <;> simp [Except.toOption]

theorem HitLine.laid_append_return_iff {s : List Char} {g : Fields} {i j : Nat} :
    Laid (s ++ ['\r']) g i j ↔ ∃ f, Laid s f i j ∧ g = { f with rest := f.rest ++ ['\r'] } := by
  constructor
  · intro laid
    -- A space stands before the fourth field, so the carriage return belongs to that field.
    have some : g.rest ≠ [] := by
      intro none
      have last := congrArg List.getLast? laid.line
      simp [none, List.getLast?_append] at last
    obtain ⟨t, c, rest⟩ := (List.eq_nil_or_concat g.rest).resolve_left some
    rw [List.concat_eq_append] at rest
    have line : s ++ ['\r'] = (g.file ++ (List.replicate i ' ' ++ (g.symbol ++
        (List.replicate j ' ' ++ (g.number ++ ' ' :: t))))) ++ [c] := by
      rw [laid.line, rest]
      simp
    obtain ⟨whole, same⟩ := List.append_inj' line rfl
    cases same
    refine ⟨{ g with rest := t }, ⟨whole, laid.file, laid.symbol, laid.number, ?_, laid.gaps⟩, ?_⟩
    · have := laid.rest
      rw [rest] at this
      exact fun member => this (List.mem_append_left _ member)
    · rw [← rest]
  · rintro ⟨f, laid, rfl⟩
    refine ⟨?_, laid.file, laid.symbol, laid.number, ?_, laid.gaps⟩
    · rw [laid.line]
      simp
    · simpa using laid.rest

theorem HitLine.hit?_append_return (s : List Char) :
    hit? (s ++ ['\r']) = (hit? s).map Hit.withReturn := by
  apply Option.ext
  intro hit
  simp only [Option.map_eq_some_iff, HitLine.hit?_eq_some_iff, HitLine.read_eq_ok_iff]
  constructor
  · rintro ⟨g, i, j, v, laid, numeral, pos, small, rfl⟩
    obtain ⟨f, laid', rfl⟩ := HitLine.laid_append_return_iff.mp laid
    refine ⟨_, ⟨f, i, j, v, laid', numeral, pos, small, rfl⟩, ?_⟩
    simp [Hit.withReturn, String.ofList_append]
  · rintro ⟨_, ⟨f, i, j, v, laid, numeral, pos, small, rfl⟩, rfl⟩
    refine ⟨_, i, j, v, HitLine.laid_append_return_iff.mpr ⟨f, laid, rfl⟩, numeral, pos, small, ?_⟩
    simp [Hit.withReturn, String.ofList_append]

/-! ### Both ways to read -/

theorem decodeLossy_dropLastEq_return (x : List UInt8) :
    Utf8.decodeLossy (dropLastEq 0x0D x) = dropReturn (Utf8.decodeLossy x) :=
  Utf8.decodeLossy_dropLastEq x (by decide)

/-- Read line by line, a piece loses a carriage return and the line another one. -/
theorem streamed_eq (r : Response) :
    r.lines.filterMap (fun line => (Hit.parse line).toOption) =
      (pieces 0x0A r.stdout).filterMap
        (fun w => hit? (dropReturn (dropReturn (Utf8.decodeLossy w.content)))) := by
  simp only [Response.lines, segments, List.map_map, List.filterMap_map]
  apply List.filterMap_congr
  intro w _
  simp [Hit.toOption_parse, decodeLossy_dropLastEq_return]

/-- Read as a whole, a piece loses its carriage return only where a line feed follows. -/
theorem buffered_eq (bytes : List UInt8) :
    Hit.parseAll (.ofList (Utf8.decodeLossy bytes)) =
      (pieces 0x0A bytes).filterMap (fun w => hit? (dropReturn
        (if w.ended then dropReturn (Utf8.decodeLossy w.content)
          else Utf8.decodeLossy w.content))) := by
  have cut : pieces '\n' (Utf8.decodeLossy bytes) = _ :=
    Utf8.pieces_decodeLossy bytes (b := 0x0A) (by decide)
  simp only [Hit.parseAll, lines, String.toList_ofList, cut, List.map_map, List.filterMap_map]
  apply List.filterMap_congr
  intro w _
  simp [Hit.toOption_parse]

theorem dropReturn_concat (s : List Char) : dropReturn (s ++ ['\r']) = s :=
  dropLastEq_concat '\r' s

theorem decodeLossy_append_returns (x : List UInt8) :
    Utf8.decodeLossy (x ++ [0x0D, 0x0D]) = Utf8.decodeLossy x ++ ['\r'] ++ ['\r'] := by
  rw [Utf8.decodeLossy_append_ascii x (by decide), List.append_assoc]
  rfl

/-- The hits of all terminated lines are the same; the last line may be read in two ways. -/
theorem exists_hits_before (r : Response) :
    ∃ before : List Hit,
      r.lines.filterMap (fun line => (Hit.parse line).toOption) =
        before ++ (hit? (dropReturn (dropReturn (Utf8.decodeLossy
          (r.stdout.rtakeWhile (· ≠ 0x0A)))))).toList ∧
      Hit.parseAll (.ofList (Utf8.decodeLossy r.stdout)) =
        before ++ (hit? (dropReturn (Utf8.decodeLossy
          (r.stdout.rtakeWhile (· ≠ 0x0A))))).toList := by
  obtain ⟨ended, all, cut⟩ := exists_pieces_eq 0x0A r.stdout
  have whole : 0x0A ∉ r.stdout.rtakeWhile (· ≠ 0x0A) := by
    intro member
    simpa using List.mem_rtakeWhile_imp member
  rw [streamed_eq, buffered_eq, cut, pieces_unended whole]
  generalize r.stdout.rtakeWhile (· ≠ 0x0A) = unended
  refine ⟨ended.filterMap (fun w => hit? (dropReturn (dropReturn (Utf8.decodeLossy w.content)))),
    ?_, ?_⟩
  · rw [List.filterMap_append]
    congr 1
    by_cases empty : unended = []
    · rw [if_pos empty, empty]
      rfl
    · rw [if_neg empty]
      cases h : hit? (dropReturn (dropReturn (Utf8.decodeLossy unended))) <;> simp [h]
  · rw [List.filterMap_append]
    congr 1
    · apply List.filterMap_congr
      intro w member
      rw [if_pos (all w member)]
    · by_cases empty : unended = []
      · rw [if_pos empty, empty]
        rfl
      · rw [if_neg empty]
        cases h : hit? (dropReturn (Utf8.decodeLossy unended)) <;> simp [h]

/-- **Reading line by line and reading all at once give the same hits**, but for a last line that
ends in two carriage returns and in no line feed: its hit keeps one of them if all is read at
once. -/
theorem streamed_eq_buffered (r : Response) :
    let streamed := r.lines.filterMap (fun line => (Hit.parse line).toOption)
    let buffered := Hit.parseAll (.ofList (Utf8.decodeLossy r.stdout))
    let unended := r.stdout.rtakeWhile (· ≠ 0x0A)
    readLines r.stdout = r.lines ∧
    (¬[0x0D, 0x0D] <:+ unended → streamed = buffered) ∧
    ([0x0D, 0x0D] <:+ unended → ∃ (before : List Hit) (last : Option Hit),
      streamed = before ++ last.toList ∧
        buffered = before ++ (last.map Hit.withReturn).toList) := by
  intro streamed buffered unended
  obtain ⟨before, streamed_eq, buffered_eq⟩ := exists_hits_before r
  refine ⟨readLines_stdout r, ?_, ?_⟩
  · intro few
    have once : dropReturn (dropReturn (Utf8.decodeLossy unended)) =
        dropReturn (Utf8.decodeLossy unended) := by
      rw [← decodeLossy_dropLastEq_return, ← decodeLossy_dropLastEq_return,
        dropLastEq_dropLastEq few]
    calc streamed = _ := streamed_eq
      _ = before ++ (hit? (dropReturn (Utf8.decodeLossy unended))).toList := by rw [once]
      _ = buffered := buffered_eq.symm
  · rintro ⟨x, ends⟩
    have decoded : Utf8.decodeLossy unended = _ :=
      (congrArg Utf8.decodeLossy ends).symm.trans (decodeLossy_append_returns x)
    refine ⟨before, hit? (Utf8.decodeLossy x), streamed_eq.trans ?_, buffered_eq.trans ?_⟩
    · rw [decoded, dropReturn_concat, dropReturn_concat]
    · rw [decoded, dropReturn_concat, HitLine.hit?_append_return]

/-- A file name that is no UTF-8, a line that loses two carriage returns, and a last line with one
and with two of them. -/
theorem streamed_eq_buffered_returns :
    let one : Response := ⟨[0xFF, 0x20, 0x66, 0x20, 0x31, 0x20, 0x78, 0x0D, 0x0D, 0x0A,
      0x61, 0x20, 0x66, 0x20, 0x32, 0x20, 0x79, 0x0D], [], some 0⟩
    let two : Response := { one with stdout := one.stdout ++ [0x0D] }
    (¬[0x0D, 0x0D] <:+ one.stdout.rtakeWhile (· ≠ 0x0A) ∧
      one.lines.filterMap (fun line => (Hit.parse line).toOption) =
        Hit.parseAll (.ofList (Utf8.decodeLossy one.stdout))) ∧
    [0x0D, 0x0D] <:+ two.stdout.rtakeWhile (· ≠ 0x0A) ∧
      ∃ (before : List Hit) (last : Option Hit),
        two.lines.filterMap (fun line => (Hit.parse line).toOption) = before ++ last.toList ∧
          Hit.parseAll (.ofList (Utf8.decodeLossy two.stdout)) =
            before ++ (last.map Hit.withReturn).toList := by
  intro one two
  have few : ¬[0x0D, 0x0D] <:+ one.stdout.rtakeWhile (· ≠ 0x0A) := by decide
  have both : [0x0D, 0x0D] <:+ two.stdout.rtakeWhile (· ≠ 0x0A) := by decide
  exact ⟨⟨few, (streamed_eq_buffered one).2.1 few⟩, both, (streamed_eq_buffered two).2.2 both⟩

end SymbolNav
