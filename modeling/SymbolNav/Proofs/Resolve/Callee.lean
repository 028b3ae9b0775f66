/-
  SymbolNav/Proofs/Resolve/Callee.lean
  ====================================
  **Called names are found on their lines, whatever octets they are made of.**

  The name of a callee reaches the search twice: from the line that the indexer
  writes, and from the source line.  Both are read as text with U+FFFD for what is
  no UTF-8, and which octets that replaces depends on their neighbours.  In the
  indexer's line the neighbours are spaces, in the source line they are octets of
  ASCII, too; so the name reads the same in both places (`call_located`).
-/
import SymbolNav.Proofs.Engine.Answers
import SymbolNav.Proofs.Hit.Streaming
import SymbolNav.Proofs.Resolve.Span
import SymbolNav.Proofs.Text.Encode

namespace SymbolNav

open Text HitLine

/-- What an indexer writes for a hit: its file, its symbol, the number of its line and more. -/
def reportLine (file : List Char) (symbol : List UInt8) (line : Nat) (rest : List UInt8) :
    List UInt8 :=
  Utf8.encode file ++ 0x20 :: (symbol ++ 0x20 ::
    (Utf8.encode (Nat.toDigits 10 line) ++ 0x20 :: rest))

/-! ### The line of the indexer -/

/-- The octets of a name: none of them is a space or a control character. -/
def Solid (symbol : List UInt8) : Prop := symbol ≠ [] ∧ ∀ b ∈ symbol, 0x20 < b

theorem Solid.not_mem {symbol : List UInt8} (solid : Solid symbol) {b : UInt8} (small : b ≤ 0x20) :
    Char.ofNat b.toNat ∉ Utf8.decodeLossy symbol := by
  have number := UInt8.le_iff_toNat_le.mp small
  have limit : (0x20 : UInt8).toNat = 0x20 := rfl
  have ascii : b < 0x80 := by
    apply UInt8.lt_iff_toNat_lt.mpr
    have : (0x80 : UInt8).toNat = 0x80 := rfl
    omega
  intro member
  have inside := solid.2 b (Utf8.mem_of_ofNat_mem_decodeLossy ascii member)
  have := UInt8.lt_iff_toNat_lt.mp inside
  omega

theorem Solid.decodeLossy_ne_nil {symbol : List UInt8} (solid : Solid symbol) :
    Utf8.decodeLossy symbol ≠ [] := fun nothing => solid.1 (Utf8.decodeLossy_eq_nil nothing)

/-- What the line of a hit is read as. -/
theorem decodeLossy_reportLine (file : List Char) (symbol : List UInt8) (line : Nat)
    (rest : List UInt8) :
    Utf8.decodeLossy (reportLine file symbol line rest) =
      file ++ ' ' :: (Utf8.decodeLossy symbol ++ ' ' ::
        (Nat.toDigits 10 line ++ ' ' :: Utf8.decodeLossy rest)) := by
  have space (x y : List UInt8) :
      Utf8.decodeLossy (x ++ 0x20 :: y) = Utf8.decodeLossy x ++ ' ' :: Utf8.decodeLossy y :=
    Utf8.decodeLossy_append_ascii x (by decide) y
  rw [reportLine, space, space, space, Utf8.decodeLossy_encode, Utf8.decodeLossy_encode]

/-- The line of a hit, as it is read, is laid out like one; its carriage returns are no part of it. -/
theorem laid_reportLine {file : List Char} {symbol rest : List UInt8} (line : Nat)
    (name : file ≠ [] ∧ ' ' ∉ file) (solid : Solid symbol) (unbroken : 0x0A ∉ rest) :
    Laid (dropReturn (dropReturn (Utf8.decodeLossy (reportLine file symbol line rest))))
      ⟨file, Utf8.decodeLossy symbol, Nat.toDigits 10 line,
        dropReturn (dropReturn (Utf8.decodeLossy rest))⟩ 1 1 := by
  have trimmed (t : List Char) : dropReturn (file ++ ' ' :: (Utf8.decodeLossy symbol ++ ' ' ::
        (Nat.toDigits 10 line ++ ' ' :: t))) =
      file ++ ' ' :: (Utf8.decodeLossy symbol ++ ' ' ::
        (Nat.toDigits 10 line ++ ' ' :: dropReturn t)) := by
    have regroup (t : List Char) : file ++ ' ' :: (Utf8.decodeLossy symbol ++ ' ' ::
          (Nat.toDigits 10 line ++ ' ' :: t)) =
        (file ++ ' ' :: (Utf8.decodeLossy symbol ++ ' ' :: Nat.toDigits 10 line)) ++ ' ' :: t := by
      simp
    rw [regroup, dropReturn, dropLastEq_append_cons (by decide), regroup]
    rfl
  have digits : ' ' ∉ Nat.toDigits 10 line := (isDecimal_toDigits line).not_mem (by decide)
  have feedless : '\n' ∉ dropReturn (dropReturn (Utf8.decodeLossy rest)) := by
    rw [← decodeLossy_dropLastEq_return, ← decodeLossy_dropLastEq_return]
    intro member
    have inside : (0x0A : UInt8) ∈ dropLastEq 0x0D (dropLastEq 0x0D rest) :=
      Utf8.mem_of_ofNat_mem_decodeLossy (b := 0x0A) (by decide) member
    exact unbroken (dropLastEq_subset _ rest (dropLastEq_subset _ _ inside))
  rw [decodeLossy_reportLine, trimmed, trimmed]
  exact ⟨rfl, name, ⟨solid.decodeLossy_ne_nil, solid.not_mem (b := 0x20) (by decide)⟩,
    ⟨Nat.toDigits_ne_nil, digits⟩, feedless, Nat.le_refl 1, Nat.le_refl 1⟩

/-- The line of a hit is read as that hit. -/
theorem parse_reportLine {file : List Char} {symbol rest : List UInt8} {line : Nat}
    (name : file ≠ [] ∧ ' ' ∉ file) (solid : Solid symbol) (unbroken : 0x0A ∉ rest)
    (pos : 1 ≤ line) (small : line ≤ maxWord) :
    ∃ hit, Hit.parse (.ofList (Utf8.decodeLossy
        (dropLastEq 0x0D (reportLine file symbol line rest)))) = .ok hit ∧
      hit.file = .ofList file ∧ hit.symbol = .ofList (Utf8.decodeLossy symbol) ∧
      hit.lineNumber = line - 1 := by
  have laid := laid_reportLine line name solid unbroken
  have numeral : IsNumeral (Nat.toDigits 10 line) line :=
    isNumeral_of_isDecimal (isDecimal_toDigits line)
  rw [← decodeLossy_dropLastEq_return] at laid
  rw [← String.toList_ofList (l := Utf8.decodeLossy _)] at laid
  exact ⟨_, Hit.parse_eq_ok_iff.mpr (read_eq_ok_iff.mpr ⟨_, 1, 1, line, laid, numeral, pos, small,
    rfl⟩), rfl, rfl, rfl⟩

/-! ### The source line -/

/-- A name of which its neighbours on the line cannot become a part. -/
structure SetOff (pre symbol post : List UInt8) : Prop where
  solid : Solid symbol
  before : ∀ b ∈ pre.getLast?, b < 0x80
  after : ∀ b ∈ post.head?, b < 0x80

/-- The name reads the same on its line as alone. -/
theorem SetOff.lineOfBytes_eq {pre symbol post bytes : List UInt8} (h : SetOff pre symbol post)
    {line : Nat}
    (stands : (pieces 0x0A bytes)[line]?.map Piece.content = some (pre ++ symbol ++ post)) :
    lineOfBytes bytes line = Utf8.decodeLossy pre ++ Utf8.decodeLossy symbol ++
      dropReturns (Utf8.decodeLossy post) := by
  have visible : ∀ c ∈ (Utf8.decodeLossy pre ++ Utf8.decodeLossy symbol).getLast?,
      decide (c = '\r') = false := by
    intro c last
    rw [List.getLast?_append_of_ne_nil _ h.solid.decodeLossy_ne_nil] at last
    rw [decide_eq_false_iff_not]
    rintro rfl
    exact h.solid.not_mem (b := 0x0D) (by decide) (List.mem_of_getLast? last)
  rw [SymbolNav.lineOfBytes_eq, stands, Option.getD_some,
    Utf8.decodeLossy_append_of_head _ h.after, Utf8.decodeLossy_append_of_getLast h.before]
  exact rdropWhile_append_stop visible _

/-- The item spans the name, at or before the place where the name stands on its line. -/
structure Item.Spans (item : Item) (before name after : List Char) : Prop where
  symbol : item.symbol.toList = name
  line : item.lineText.toList = before ++ name ++ after
  length : item.length = name.length
  visible : 0 < item.length
  column : item.column ≤ before.length
  text : (item.lineText.toList.drop item.column).take item.length = name

theorem spans_itemAt {hit : Hit} {root : Path} {before name after : List Char}
    (named : hit.symbol = .ofList name) (nonempty : name ≠ []) :
    (hit.itemAt root (.ofList (before ++ name ++ after))
      (locate (before ++ name ++ after) name)).Spans before name after := by
  have exact := exact_itemAt hit root (.ofList (before ++ name ++ after)) name
  rw [String.toList_ofList] at exact
  have line : (hit.itemAt root (.ofList (before ++ name ++ after))
      (locate (before ++ name ++ after) name)).lineText.toList = before ++ name ++ after :=
    String.toList_ofList
  obtain ⟨length, text, first⟩ := exact.found nonempty ⟨before, after, line.symm⟩
  constructor
  · exact (congrArg String.toList named).trans String.toList_ofList
  · exact line
  · exact length
  · rw [length]
    exact List.length_pos_iff.mpr nonempty
  · by_contra beyond
    apply first before.length (Nat.lt_of_not_le beyond)
    rw [line, List.append_assoc, List.drop_left]
    exact List.prefix_append name after
  · exact text

/-! ### Calls -/

theorem mem_ofLines {response : Response} {line : List UInt8} {hit : Hit}
    (written : line ∈ (pieces 0x0A response.stdout).map Piece.content)
    (parses : Hit.parse (.ofList (Utf8.decodeLossy (dropLastEq 0x0D line))) = .ok hit) :
    hit ∈ Hit.ofLines response.lines := by
  rcases List.mem_map.mp written with ⟨w, member, rfl⟩
  apply List.mem_filterMap.mpr
  refine ⟨_, List.mem_map_of_mem (List.mem_map_of_mem member), ?_⟩
  rw [parses]
  rfl

/-- **A called name is found on its line**, whatever octets it is made of and whatever else is in
the file and in the report, as long as its neighbours on the line are octets of ASCII.  Every full
answer to the question has its item. -/
theorem call_located {response : Response} {files : FileTree} {root : Path} (pattern : String)
    {file : String} {pre symbol post rest bytes : List UInt8} {line : Nat}
    (name : file.toList ≠ [] ∧ ' ' ∉ file.toList) (setOff : SetOff pre symbol post)
    (pos : 1 ≤ line) (small : line ≤ maxWord)
    (reported : reportLine file.toList symbol line rest ∈
      (pieces 0x0A response.stdout).map Piece.content)
    (stored : files.read (root.join ⟨file⟩) = .ok bytes)
    (stands : (pieces 0x0A bytes)[line - 1]?.map Piece.content = some (pre ++ symbol ++ post)) :
    ∃ hit ∈ Hit.ofLines response.lines, ∃ item,
      Hit.parse (.ofList (Utf8.decodeLossy
        (dropLastEq 0x0D (reportLine file.toList symbol line rest)))) = .ok hit ∧
      (⟨.callee, pattern⟩ : QuerySpec).resolve files.sourceReader root hit = .value item ∧
      item.file = root.join ⟨file⟩ ∧ item.line = line - 1 ∧
      item.Spans (Utf8.decodeLossy pre) (Utf8.decodeLossy symbol)
        (dropReturns (Utf8.decodeLossy post)) ∧
      ∀ s, Engine.FullAnswer ⟨.callee, pattern⟩ root files.sourceReader response (.ok s) →
        item ∈ s.items := by
  have unbroken : 0x0A ∉ rest := by
    rcases List.mem_map.mp reported with ⟨w, member, content⟩
    have free := sep_not_mem_pieces 0x0A response.stdout w member
    rw [content] at free
    intro inside
    exact free (by simp [reportLine, inside])
  rcases parse_reportLine name setOff.solid unbroken pos small with
    ⟨hit, parses, named, symbols, number⟩
  have path : hit.path root = root.join ⟨file⟩ := by rw [Hit.path, named, String.ofList_toList]
  have read : files.sourceReader (hit.path root) hit.lineNumber =
      .text (.ofList (Utf8.decodeLossy pre ++ Utf8.decodeLossy symbol ++
        dropReturns (Utf8.decodeLossy post))) := by
    rw [path, number, ← setOff.lineOfBytes_eq stands]
    simp only [FileTree.sourceReader, stored]
  have resolves : (⟨.callee, pattern⟩ : QuerySpec).resolve files.sourceReader root hit =
      .value (hit.itemAt root (.ofList (Utf8.decodeLossy pre ++
        Utf8.decodeLossy symbol ++ dropReturns (Utf8.decodeLossy post)))
        (locate (Utf8.decodeLossy pre ++ Utf8.decodeLossy symbol ++
          dropReturns (Utf8.decodeLossy post)) (Utf8.decodeLossy symbol))) := by
    show hit.resolve files.sourceReader root hit.symbol = _
    rw [Hit.resolve_text read, symbols, String.toList_ofList, String.toList_ofList]
  have member := mem_ofLines reported parses
  refine ⟨hit, member, _, parses, resolves, path, number,
    spans_itemAt symbols setOff.solid.decodeLossy_ne_nil, ?_⟩
  rintro s ⟨-, -, -, items, -⟩
  apply items.mem_iff.mpr
  refine List.mem_filterMap.mpr ⟨hit, member, ?_⟩
  rw [resolves]
  rfl

/-- A name that is cut off in the middle of a character, between a space that follows an octet of
no character and a bracket that a carriage return follows. -/
theorem call_located_broken :
    let symbol : List UInt8 := [0xE2, 0x82, 0x66]
    let bytes : List UInt8 := [0xC3, 0x0A, 0xFF, 0x20] ++ symbol ++ [0x28, 0x0D, 0x0A, 0xF0]
    let files : FileTree := ⟨[([['a', '.', 'c']], .file bytes false)], []⟩
    let root : Path := ⟨"/"⟩
    let response : Response := ⟨reportLine "a.c".toList symbol 2 [0xC3, 0x0D, 0x0A], [], some 0⟩
    SetOff [0xFF, 0x20] symbol [0x28, 0x0D] ∧
      files.read (root.join ⟨"a.c"⟩) = .ok bytes ∧
      reportLine "a.c".toList symbol 2 [0xC3, 0x0D] ∈
        (pieces 0x0A response.stdout).map Piece.content ∧
      (pieces 0x0A bytes)[1]?.map Piece.content = some ([0xFF, 0x20] ++ symbol ++ [0x28, 0x0D]) ∧
      ∃ hit ∈ Hit.ofLines response.lines, ∃ item,
        (⟨.callee, "main"⟩ : QuerySpec).resolve files.sourceReader root hit = .value item ∧
        item.Spans ['\uFFFD', ' '] ['\uFFFD', 'f'] ['('] := by
  intro symbol bytes files root response
  have setOff : SetOff [0xFF, 0x20] symbol [0x28, 0x0D] :=
    ⟨⟨by decide +kernel, by decide +kernel⟩, by decide +kernel, by decide +kernel⟩
  have stored : files.read (root.join ⟨"a.c"⟩) = .ok bytes := by decide +kernel
  have reported : reportLine "a.c".toList symbol 2 [0xC3, 0x0D] ∈
      (pieces 0x0A response.stdout).map Piece.content := by decide +kernel
  have stands : (pieces 0x0A bytes)[1]?.map Piece.content =
      some ([0xFF, 0x20] ++ symbol ++ [0x28, 0x0D]) := by decide +kernel
  rcases call_located "main" ⟨by decide, by decide⟩ setOff (by decide) (by decide)
    reported stored stands with ⟨hit, member, item, -, resolves, -, -, spans, -⟩
  exact ⟨setOff, stored, reported, stands, hit, member, item, resolves, spans⟩

end SymbolNav
