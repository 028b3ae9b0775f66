/-
  SymbolNav/Proofs/Resolve/Span.lean
  ==================================
  **An item spans the first place at which its token stands.**

  The search goes by octets, and what it finds is a place between two characters: as
  many octets in as the characters before the token take up (`firstMatchFrom_encode`).
  So the line can be cut there, the characters before the cut are the column, and a
  hit whose line could be read always becomes an item (`resolve_text`).
-/
import SymbolNav.Proofs.Resolve.Source
import SymbolNav.Proofs.Text.Boundary

namespace SymbolNav

open Text

/-! ### The first match -/

section FirstMatch

variable {α : Type} [DecidableEq α] {token s : List α} {m : Nat}

theorem firstMatchFrom_nil (n : Nat) (s : List α) : firstMatchFrom [] n s = some n := by
  cases s <;> simp [firstMatchFrom]

theorem firstMatchFrom_eq_none (nowhere : firstMatchFrom token 0 s = none) (k : Nat) :
    ¬token <+: s.drop k := by
  have spec := firstMatchFrom_spec token 0 s
  rw [nowhere] at spec
  exact spec k

theorem firstMatchFrom_eq_some_iff :
    firstMatchFrom token 0 s = some m ↔
      token <+: s.drop m ∧ ∀ k, token <+: s.drop k → m ≤ k := by
  have spec := firstMatchFrom_spec token 0 s
  constructor
  · intro found
    rw [found] at spec
    simpa using spec
  · rintro ⟨stands, first⟩
    cases found : firstMatchFrom token 0 s with
    | none => exact absurd stands (firstMatchFrom_eq_none found m)
    | some n =>
      rw [found] at spec
      have le : n ≤ m := by simpa using spec.2.2 m stands
      have ge : m ≤ n := first n (by simpa using spec.2.1)
      rw [Nat.le_antisymm le ge]

theorem firstMatchFrom_within (found : firstMatchFrom token 0 s = some m) :
    m + token.length ≤ s.length := by
  obtain ⟨stands, first⟩ := firstMatchFrom_eq_some_iff.mp found
  have inside : m ≤ s.length := by
    by_contra beyond
    -- past the end there is as little as at the end
    have empty : s.drop m = s.drop s.length := by
      rw [List.drop_length, List.drop_eq_nil_of_le (by omega)]
    rw [empty] at stands
    exact beyond (first _ stands)
  have := stands.length_le
  rw [List.length_drop] at this
  omega

end FirstMatch

/-! ### Octets and characters -/

/-- **The octets of a token are found after those of the characters before it.** -/
theorem firstMatchFrom_encode (line token : List Char) :
    firstMatchFrom (Utf8.encode token) 0 (Utf8.encode line) =
      (firstMatchFrom token 0 line).map (fun column => (Utf8.encode (line.take column)).length) := by
  by_cases empty : token = []
  · rw [empty, firstMatchFrom_nil]
    exact firstMatchFrom_nil 0 (Utf8.encode line)
  · cases found : firstMatchFrom token 0 line with
    | none =>
      cases octets : firstMatchFrom (Utf8.encode token) 0 (Utf8.encode line) with
      | none => rfl
      | some offset =>
        obtain ⟨before, after, rfl, -, stands⟩ :=
          Utf8.exists_split_of_occurs empty (firstMatchFrom_eq_some_iff.mp octets).1
        refine absurd ?_ (firstMatchFrom_eq_none found before.length)
        rwa [List.drop_left]
    | some column =>
      obtain ⟨stands, first⟩ := firstMatchFrom_eq_some_iff.mp found
      apply firstMatchFrom_eq_some_iff.mpr
      refine ⟨Utf8.occurs_of_prefix_drop stands, ?_⟩
      intro offset occurs
      obtain ⟨before, after, rfl, rfl, later⟩ := Utf8.exists_split_of_occurs empty occurs
      have le : column ≤ before.length := first before.length (by rwa [List.drop_left])
      have shorter : (before ++ after).take column <+: before := by
        rw [List.take_append_of_le_length le]
        exact List.take_prefix column before
      exact (Utf8.encode_prefix_iff.mpr shorter).length_le

/-- The line can be cut where the token is found, and what is found is the token itself. -/
theorem locate?_eq (line token : List Char) : locate? line token = some (locate line token) := by
  unfold locate? locate
  dsimp only
  rw [firstMatchFrom_encode]
  cases found : firstMatchFrom token 0 line with
  | none => rfl
  | some column =>
    have within := firstMatchFrom_within found
    have cut := Utf8.take?_encode (line.take column) (line.drop column)
    rw [List.take_append_drop] at cut
    have column_eq : (line.take column).length = column := List.length_take_of_le (by omega)
    simp only [Option.map_some, cut, column_eq]

/-- A hit whose line could be read becomes an item. -/
theorem Hit.resolve_text {hit : Hit} {reader : SourceReader} {root : Path} {line : String}
    (read : reader (hit.path root) hit.lineNumber = .text line) (token : String) :
    hit.resolve reader root token =
      .value (hit.itemAt root line (locate line.toList token.toList)) := by
  simp only [Hit.resolve, read, locate?_eq]

/-! ### Spans -/

/-- The item has its token where that stands first on the line, and no span if it does not stand
there or has no characters. -/
structure Item.Exact (item : Item) (token : List Char) : Prop where
  within : item.column + item.length ≤ item.lineText.toList.length
  found : token ≠ [] → token <:+: item.lineText.toList →
    item.length = token.length ∧
      (item.lineText.toList.drop item.column).take item.length = token ∧
      ∀ k < item.column, ¬token <+: item.lineText.toList.drop k
  missing : token = [] ∨ ¬token <:+: item.lineText.toList → item.column = 0 ∧ item.length = 0

theorem exact_itemAt (hit : Hit) (root : Path) (line : String) (token : List Char) :
    (hit.itemAt root line (locate line.toList token)).Exact token := by
  unfold locate
  cases found : firstMatchFrom token 0 line.toList with
  | none =>
    have nowhere := firstMatchFrom_eq_none found
    refine ⟨Nat.zero_le _, ?_, fun _ => ⟨rfl, rfl⟩⟩
    intro _ somewhere
    obtain ⟨before, after, whole⟩ : token <:+: line.toList := somewhere
    refine absurd ?_ (nowhere before.length)
    rw [← whole, List.append_assoc, List.drop_left]
    exact List.prefix_append token after
  | some column =>
    obtain ⟨stands, first⟩ := firstMatchFrom_eq_some_iff.mp found
    refine ⟨firstMatchFrom_within found, ?_, ?_⟩
    · rintro - -
      refine ⟨rfl, (List.prefix_iff_eq_take.mp stands).symm, ?_⟩
      intro k earlier there
      exact Nat.not_le_of_lt earlier (first k there)
    · rintro (rfl | nowhere)
      · rw [firstMatchFrom_nil] at found
        cases found
        exact ⟨rfl, rfl⟩
      · exact absurd (stands.isInfix.trans (List.drop_suffix column _).isInfix) nowhere

/-- **A hit whose line could be read becomes an item with an exact span**, for the symbol of the
hit if callees were asked for and for the pattern if anything else was.  The octets of the token
are found between two characters, and the line is cut there. -/
theorem resolve_exact (spec : QuerySpec) {hit : Hit} {reader : SourceReader} {root : Path}
    {line : String} (read : reader (hit.path root) hit.lineNumber = .text line) :
    let token := (if spec.kind = .callee then hit.symbol else spec.pattern).toList
    ∃ item, spec.resolve reader root hit = .value item ∧ item.lineText = line ∧
      item.Exact token ∧
      ∀ offset,
        firstMatchFrom (Utf8.encode token) 0 (Utf8.encode line.toList) = some offset →
          Utf8.isBoundary (Utf8.encode line.toList) offset = true ∧
          Utf8.take? (Utf8.encode line.toList) offset = some (line.toList.take item.column) := by
  intro token
  have asked : (spec.searchToken hit.symbol).toList = token := by
    unfold QuerySpec.searchToken
    cases kind : spec.kind <;> simp [token, kind]
  have resolves : spec.resolve reader root hit =
      .value (hit.itemAt root line (locate line.toList token)) := by
    rw [← asked]
    exact Hit.resolve_text read _
  refine ⟨_, resolves, rfl, exact_itemAt hit root line token, ?_⟩
  intro offset octets
  rw [firstMatchFrom_encode] at octets
  obtain ⟨column, found, rfl⟩ := Option.map_eq_some_iff.mp octets
  have cut := Utf8.take?_encode (line.toList.take column) (line.toList.drop column)
  rw [List.take_append_drop] at cut
  have span : locate line.toList token = (column, token.length) := by
    unfold locate
    rw [found]
  rw [span]
  exact ⟨Utf8.isBoundary_encode_iff.mpr ⟨_, _, List.take_append_drop _ _, rfl⟩, cut⟩

/-- A called name of characters of two, three and four octets, of which a part stands on the line
before the whole does. -/
theorem resolve_exact_overlapping :
    let name := ['é', '€', 'é', '😀']
    let line := ['x', ' ', 'é', '€'] ++ name ++ ['(', ')']
    let hit : Hit := ⟨"a.c", .ofList name, 4, "", ""⟩
    let reader : SourceReader := fun _ _ => .text (.ofList line)
    reader (hit.path ⟨"/"⟩) hit.lineNumber = .text (.ofList line) ∧
      ∃ item, (⟨.callee, "main"⟩ : QuerySpec).resolve reader ⟨"/"⟩ hit = .value item ∧
        item.Exact name ∧ item.length = 4 := by
  intro name line hit reader
  have read : reader (hit.path ⟨"/"⟩) hit.lineNumber = .text (.ofList line) := rfl
  rcases resolve_exact ⟨.callee, "main"⟩ read with ⟨item, resolves, text, exact, -⟩
  rw [if_pos rfl, String.toList_ofList] at exact
  refine ⟨read, item, resolves, exact, ?_⟩
  refine (exact.found (by decide) ?_).1
  rw [text, String.toList_ofList]
  exact List.infix_append _ name _

end SymbolNav
