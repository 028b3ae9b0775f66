/-
  SymbolNav/Proofs/Presentation/Places.lean
  =========================================
  **Lines are shown with the numbers that they were reported with.**

  A reported number counts from one, the items count from zero, and whatever is shown of
  them counts from one again (`Item.shownAt`).  All of it stays within 64 bits: the
  number was read from a numeral that does, and a column is no larger than its line
  (`Item.Exact.column_lt`).
-/
import SymbolNav.Proofs.Hit.Grammar
import SymbolNav.Proofs.Presentation.Grouping
import SymbolNav.Proofs.Resolve.Span

namespace SymbolNav

open Text HitLine

/-! ### What is shown of an item -/

/-- The text has these two numbers in plain decimal, between these texts. -/
def ShowsNumbers (shown before between after : String) (m n : Nat) : Prop :=
  ∃ s t, IsDecimal s m ∧ IsDecimal t n ∧
    shown = before ++ String.ofList s ++ between ++ String.ofList t ++ after

theorem showsNumbers_of_eq {shown before between after : String} {m n : Nat}
    (whole : shown = before ++ toString m ++ between ++ toString n ++ after) :
    ShowsNumbers shown before between after m n := by
  refine ⟨_, _, isDecimal_toString m, isDecimal_toString n, ?_⟩
  rw [String.ofList_toList, String.ofList_toList, whole]

/-- Wherever the item is shown, it is with this line and this column. -/
structure Item.ShownAt (i : Item) (root : Path) (line column : Nat) : Prop where
  row : ShowsNumbers (i.listEntry root).detail (i.relativePath root ++ ":") ":" "" line column
  leaf : ShowsNumbers i.leaf.label (i.symbol ++ "[") ":"
    ("] " ++ String.ofList (trim i.lineText.toList)) line column
  call : ShowsNumbers (i.call root).detail ("[" ++ i.relativePath root ++ ":") ":"
    ("]" ++ i.lineText) line column
  text : ShowsNumbers (i.textLine root) (i.relativePath root ++ ":") ":"
    (": " ++ withoutBlankEnd i.lineText ++ "\n") line column

theorem Item.shownAt (i : Item) (root : Path) : i.ShownAt root (i.line + 1) (i.column + 1) where
  row := showsNumbers_of_eq (String.append_empty).symm
  leaf := showsNumbers_of_eq (by simp only [Item.leaf, shownLine, shownColumn, String.append_assoc])
  call := showsNumbers_of_eq (by
    simp only [Item.call, location, shownLine, shownColumn, String.append_assoc])
  text := showsNumbers_of_eq (by
    simp only [textLine, location, shownLine, shownColumn, String.append_assoc])

/-! ### What is shown of many -/

/-- What a presentation shows, each time with the item that it is shown for. -/
def Presentation.rows : Presentation → List (String × Item)
  | .list entries => entries.map (fun e => (e.detail, e.item))
  | .tree t => t.leaves.map (fun l => (l.label, l.item))

/-- The text with the place of an item in a presentation of this shape. -/
def Item.rowText (i : Item) (root : Path) : OutputMode → String
  | .list => (i.listEntry root).detail
  | .tree => i.leaf.label

/-- A presentation has a row for each item that is presented, and no others. -/
theorem Presentation.rows_ofItems (mode : OutputMode) (title : String) (items : List Item)
    (root : Path) :
    (ofItems mode title items root).rows.Perm (items.map (fun i => (i.rowText root mode, i))) := by
  cases mode with
  | list =>
    show ((items.map (·.listEntry root)).map _).Perm _
    rw [List.map_map]
    rfl
  | tree =>
    have leaves := (ResultTree.grouped_ofItems title items root).leaves
    have rows := leaves.map (fun l => (l.label, l.item))
    rwa [List.map_map] at rows

theorem Presentation.mem_rows_ofItems {mode : OutputMode} {title shown : String}
    {items : List Item} {root : Path} {i : Item} :
    (shown, i) ∈ (ofItems mode title items root).rows ↔
      i ∈ items ∧ shown = i.rowText root mode := by
  rw [(rows_ofItems mode title items root).mem_iff, List.mem_map]
  constructor
  · rintro ⟨j, member, row⟩
    obtain ⟨rfl, rfl⟩ := Prod.mk.inj row
    exact ⟨member, rfl⟩
  · rintro ⟨member, rfl⟩
    exact ⟨i, member, rfl⟩

theorem textOfItems_append_cons (before : List Item) (i : Item) (after : List Item) (root : Path) :
    textOfItems (before ++ i :: after) root =
      textOfItems before root ++ i.textLine root ++ textOfItems after root := by
  simp only [textOfItems, List.map_append, List.map_cons, String.join_append, String.join_cons,
    String.append_assoc]

/-! ### Within 64 bits -/

/-- A line of less than 2^63 octets has no column whose number leaves 64 bits. -/
theorem Item.Exact.column_lt {i : Item} {token : List Char} (exact : i.Exact token)
    (small : (Utf8.encode i.lineText.toList).length ≤ Nat.pow 2 63 - 1) :
    i.column + 1 ≤ maxWord := by
  have within := exact.within
  have octets := Utf8.length_le_length_encode i.lineText.toList
  have word : Nat.pow 2 63 ≤ maxWord := by decide
  have pos : 0 < Nat.pow 2 63 := by decide
  omega

/-- **Lines are shown with the numbers that they were reported with.**  If a line is a hit whose
number is read as `v`, the hit and every item that it becomes count one less, and whatever is shown
of the item has `v` again, and the column counted from one.  No number leaves 64 bits on the way. -/
theorem place_as_reported {line : String} {hit : Hit} (accepted : Hit.parse line = .ok hit)
    {f : Fields} {i j v : Nat} (laid : Laid (dropReturn line.toList) f i j)
    (numeral : IsNumeral f.number v) :
    1 ≤ v ∧ v ≤ maxWord ∧ hit.lineNumber = v - 1 ∧ hit.lineNumber + 1 = v ∧
    ∀ (spec : QuerySpec) (reader : SourceReader) (root : Path) (text : String),
      reader (hit.path root) hit.lineNumber = .text text →
      (Utf8.encode text.toList).length ≤ Nat.pow 2 63 - 1 →
        ∃ item, spec.resolve reader root hit = .value item ∧
          item.line = v - 1 ∧ item.line + 1 ≤ maxWord ∧ item.column + 1 ≤ maxWord ∧
          ∀ seen : Path, item.ShownAt seen v (item.column + 1) ∧
            (item.call seen).line = v - 1 ∧ (item.call seen).column = item.column ∧
            (∀ before after, textOfItems (before ++ item :: after) seen =
              textOfItems before seen ++ item.textLine seen ++ textOfItems after seen) ∧
            ∀ (mode : OutputMode) (title : String) (items : List Item) (shown : String),
              (shown, item) ∈ (Presentation.ofItems mode title items seen).rows ↔
                item ∈ items ∧ shown = item.rowText seen mode := by
  obtain ⟨f', i', j', w, laid', numeral', pos, small, number⟩ :=
    read_eq_ok_iff.mp (Hit.parse_eq_ok_iff.mp accepted)
  obtain ⟨rfl, -, -⟩ := laid.unique laid'
  obtain rfl := numeral.unique numeral'
  have one_less : hit.lineNumber = v - 1 := by rw [number]
  have back : hit.lineNumber + 1 = v := by omega
  refine ⟨pos, small, one_less, back, ?_⟩
  intro spec reader root text read short
  have exact := exact_itemAt hit root text (spec.searchToken hit.symbol).toList
  refine ⟨_, Hit.resolve_text read _, one_less, back.trans_le small, exact.column_lt short, ?_⟩
  intro seen
  refine ⟨?_, one_less, rfl, fun before after => textOfItems_append_cons before _ after seen,
    fun mode title items shown => Presentation.mem_rows_ofItems⟩
  rw [← back]
  exact Item.shownAt _ seen

namespace Hit.Sample

/-- A line whose number is the last one, with a sign and zeros in front of it. -/
def lastLine : String := "a.c f +0018446744073709551615 f ()"

def lastFields : Fields :=
  ⟨"a.c".toList, ['f'], "+0018446744073709551615".toList, "f ()".toList⟩

end Hit.Sample

open Hit.Sample in
/-- The last line that there can be; the token stands behind a character of three octets. -/
theorem place_as_reported_last :
    ∃ hit item, Hit.parse lastLine = .ok hit ∧
      (⟨.symbol, "f"⟩ : QuerySpec).resolve (fun _ _ => .text "€ f ()") ⟨"/p"⟩ hit = .value item ∧
      item.line = 18446744073709551614 ∧
      item.ShownAt ⟨"/p"⟩ 18446744073709551615 (item.column + 1) := by
  have laid : Laid (dropReturn lastLine.toList) lastFields 1 1 := by
    constructor <;> decide
  have numeral : IsNumeral lastFields.number 18446744073709551615 :=
    ⟨"0018446744073709551615".toList, .inr rfl, by decide, List.all_eq_true.mp (by decide),
      by decide⟩
  have accepted := Hit.parse_eq_ok_iff.mpr (read_eq_ok_iff.mpr
    ⟨_, 1, 1, _, laid, numeral, by decide, by decide, rfl⟩)
  obtain ⟨-, -, -, -, shows⟩ := place_as_reported accepted laid numeral
  obtain ⟨item, resolves, line, -, -, shown⟩ := shows ⟨.symbol, "f"⟩ (fun _ _ => .text "€ f ()")
    ⟨"/p"⟩ "€ f ()" rfl (by decide)
  exact ⟨_, item, accepted, resolves, line, (shown ⟨"/p"⟩).1⟩

end SymbolNav
