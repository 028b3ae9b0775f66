/-
  SymbolNav/Proofs/Presentation/PlainText.lean
  ============================================
  **The plain text of results can be read back.**

  A line of it is `path:line:column: text`.  Whatever the source text looks like, it
  comes last, so a reader who goes from the left and cuts at the colons that come first
  is never misled by it (`Mention.read?_lineOf`).  What can mislead him is a path with
  a colon, or a line feed; without these the text has a line for each item, in their
  order, from which the item's place and source line are read (`plain_text_reads_back`).
-/
import SymbolNav.Presentation
import SymbolNav.Proofs.Hit.Grammar
import Mathlib.Data.List.Forall2

namespace SymbolNav

open Text HitLine

/-! ### What a line mentions -/

/-- A place and what stands there, as it is printed: line and column count from one. -/
structure Mention where
  path : List Char
  line : Nat
  column : Nat
  text : List Char
deriving DecidableEq, Repr

namespace Mention

/-- What stands before the first colon, and what stands after it. -/
def cutColon? (s : List Char) : Option (List Char × List Char) :=
  match s.dropWhile (· ≠ ':') with
  | [] => none
  | _ :: rest => some (s.takeWhile (· ≠ ':'), rest)

/-- Cut a line at its first two colons, and at the colon and the space that follow the second
number. -/
def read? (s : List Char) : Option Mention := do
  let (path, s) ← cutColon? s
  let (line, s) ← cutColon? s
  let (column, s) ← cutColon? s
  let line ← numeral? line
  let column ← numeral? column
  match s with
  | ' ' :: text => some ⟨path, line, column, text⟩
  | _ => none

end Mention

/-- The mention is of the item: of its file as it is shown, of its line and column, and of its
source line up to the white space at the end. -/
structure Item.MentionedBy (i : Item) (root : Path) (m : Mention) : Prop where
  path : m.path = (i.relativePath root).toList
  line : m.line = i.line + 1
  column : m.column = i.column + 1
  text : ∃ blank, i.lineText.toList = m.text ++ blank ∧ ∀ c ∈ blank, isBlank c = true
  edge : ∀ c ∈ m.text.getLast?, isBlank c = false

/-- The item can be printed on a line of its own. -/
structure Item.Printable (i : Item) (root : Path) : Prop where
  colonless : ':' ∉ (i.relativePath root).toList
  path : '\n' ∉ (i.relativePath root).toList
  text : '\n' ∉ i.lineText.toList
  line : i.line < maxWord
  column : i.column < maxWord

/-! ### One line -/

namespace Item

/-- The line for an item, without its end. -/
def lineOf (i : Item) (root : Path) : List Char :=
  (i.relativePath root).toList ++ ':' :: ((toString (i.line + 1)).toList ++
    ':' :: ((toString (i.column + 1)).toList ++ ':' :: ' ' :: trimEnd i.lineText.toList))

/-- What is read from the line for an item. -/
def mention (i : Item) (root : Path) : Mention :=
  ⟨(i.relativePath root).toList, i.line + 1, i.column + 1, trimEnd i.lineText.toList⟩

theorem toList_textLine (i : Item) (root : Path) :
    (i.textLine root).toList = i.lineOf root ++ ['\n'] := by
  have colon : ":".toList = [':'] := rfl
  have gap : ": ".toList = [':', ' '] := rfl
  have feed : "\n".toList = ['\n'] := rfl
  simp only [textLine, location, withoutBlankEnd, shownLine, shownColumn, lineOf,
    String.toList_append, String.toList_ofList, colon, gap, feed, List.append_assoc,
    List.cons_append, List.nil_append]

theorem toList_textOfItems (items : List Item) (root : Path) :
    (textOfItems items root).toList = (items.map (·.lineOf root)).flatMap (· ++ ['\n']) := by
  simp [textOfItems, String.toList_join, toList_textLine, List.flatMap_map]

end Item

namespace Mention

theorem cutColon?_append {a : List Char} (free : ':' ∉ a) (b : List Char) :
    cutColon? (a ++ ':' :: b) = some (a, b) := by
  have inside : ∀ c ∈ a, decide (c ≠ ':') = true := by
    intro c member
    simp only [decide_eq_true_eq]
    rintro rfl
    exact free member
  have stop : ∀ c ∈ (':' :: b).head?, decide (c ≠ ':') = false := by simp
  rw [cutColon?, takeWhile_append_stop inside stop, dropWhile_append_stop inside stop]

theorem numeral?_toString {n : Nat} (small : n ≤ maxWord) :
    numeral? (toString n).toList = some n :=
  numeral?_eq_some_iff.mpr ⟨isNumeral_of_isDecimal (isDecimal_toString n), small⟩

/-- **The line of an item is read as what it says**, for its numbers have no colon, and the text
that may have one comes after them. -/
theorem read?_lineOf {i : Item} {root : Path} (printable : i.Printable root) :
    read? (i.lineOf root) = some (i.mention root) := by
  have digits (n : Nat) : ':' ∉ (toString n).toList := (isDecimal_toString n).not_mem (by decide)
  have line : numeral? (toString (i.line + 1)).toList = some (i.line + 1) :=
    numeral?_toString printable.line
  have column : numeral? (toString (i.column + 1)).toList = some (i.column + 1) :=
    numeral?_toString printable.column
  simp only [read?, Item.lineOf, Option.bind_eq_bind]
  rw [cutColon?_append printable.colonless, Option.bind_some, cutColon?_append (digits _),
    Option.bind_some, cutColon?_append (digits _), Option.bind_some, line, Option.bind_some, column]
  rfl

end Mention

theorem Item.mentionedBy_mention (i : Item) (root : Path) :
    i.MentionedBy root (i.mention root) where
  path := rfl
  line := rfl
  column := rfl
  text := by
    refine ⟨i.lineText.toList.rtakeWhile isBlank, ?_, fun c => List.mem_rtakeWhile_imp⟩
    exact List.rdropWhile_append_rtakeWhile.symm
  edge := by
    intro c last
    exact getLast?_rdropWhile_not (l := i.lineText.toList) last

/-! ### All lines -/

variable {root root' : Path} {items items' : List Item}

theorem Item.Printable.feedless {i : Item} (printable : i.Printable root) :
    '\n' ∉ i.lineOf root := by
  have digits (n : Nat) : '\n' ∉ Nat.toDigits 10 n := (isDecimal_toDigits n).not_mem (by decide)
  have text : '\n' ∉ trimEnd i.lineText.toList := by
    intro member
    exact printable.text ((List.rdropWhile_prefix _ _).subset member)
  simp [lineOf, printable.path, digits, text]

/-- The plain text comes apart into the lines of the items. -/
theorem pieces_textOfItems (printable : ∀ i ∈ items, i.Printable root) :
    pieces '\n' (textOfItems items root).toList = items.map (fun i => ⟨i.lineOf root, true⟩) := by
  rw [Item.toList_textOfItems, pieces_flatMap, List.map_map]
  · rfl
  · intro l member
    obtain ⟨i, inside, rfl⟩ := List.mem_map.mp member
    exact (printable i inside).feedless

/-- The lines are read as what they say. -/
theorem map_read?_pieces (printable : ∀ i ∈ items, i.Printable root) :
    (pieces '\n' (textOfItems items root).toList).map (fun w => Mention.read? w.content) =
      (items.map (·.mention root)).map some := by
  rw [pieces_textOfItems printable, List.map_map, List.map_map]
  exact List.map_congr_left fun i member => Mention.read?_lineOf (printable i member)

/-- **The plain text of results can be read back.**  It has one ended line for each item, in their
order, and each line is read as a mention of its item.  So if two lists of items have the same
text, the items in the same place of them are mentioned alike. -/
theorem plain_text_reads_back (printable : ∀ i ∈ items, i.Printable root) :
    List.Forall₂ (fun (i : Item) (w : Piece Char) =>
        w.ended = true ∧ ∃ m, Mention.read? w.content = some m ∧ i.MentionedBy root m)
      items (pieces '\n' (textOfItems items root).toList) ∧
    ∀ (items' : List Item) (root' : Path), (∀ i ∈ items', i.Printable root') →
      textOfItems items root = textOfItems items' root' →
        List.Forall₂ (fun i j : Item => ∃ m, i.MentionedBy root m ∧ j.MentionedBy root' m)
          items items' := by
  constructor
  · rw [pieces_textOfItems printable, List.forall₂_map_right_iff, List.forall₂_same]
    intro i member
    exact ⟨rfl, _, Mention.read?_lineOf (printable i member), i.mentionedBy_mention root⟩
  · intro items' root' printable' same
    have mentions : items.map (·.mention root) = items'.map (·.mention root') := by
      apply List.map_injective_iff.mpr fun _ _ => Option.some.inj
      rw [← map_read?_pieces printable, ← map_read?_pieces printable', same]
    rw [← List.forall₂_eq_eq_eq, List.forall₂_map_left_iff, List.forall₂_map_right_iff] at mentions
    refine mentions.imp fun i j alike => ⟨i.mention root, i.mentionedBy_mention root, ?_⟩
    rw [alike]
    exact j.mentionedBy_mention root'

namespace Mention.Sample

/-- A source line that looks like a line of the text, one of white space and one without
characters; the second file is not below the root. -/
def misleading : List Item :=
  [⟨⟨"/p/a.c"⟩, "f", 1, 6, 1, "b.c:1:2: f  ", ""⟩, ⟨⟨"/q/b c"⟩, "f", 0, 0, 0, " \t", ""⟩,
    ⟨⟨"/p/a.c"⟩, "f", 9, 0, 0, "", ""⟩]

/-- The same with other symbols, and without the white space. -/
def misleadingTrimmed : List Item :=
  [⟨⟨"/p/a.c"⟩, "g", 1, 6, 1, "b.c:1:2: f", ""⟩, ⟨⟨"/q/b c"⟩, "g", 0, 0, 0, "", ""⟩,
    ⟨⟨"/p/a.c"⟩, "g", 9, 0, 0, "", ""⟩]

theorem printable_misleading : ∀ i ∈ misleading, i.Printable ⟨"/p"⟩ := by
  simp only [misleading, List.forall_mem_cons]
  refine ⟨?_, ?_, ?_, nofun⟩ <;> constructor <;> decide +kernel

theorem printable_misleadingTrimmed : ∀ i ∈ misleadingTrimmed, i.Printable ⟨"/p/."⟩ := by
  simp only [misleadingTrimmed, List.forall_mem_cons]
  refine ⟨?_, ?_, ?_, nofun⟩ <;> constructor <;> decide +kernel

end Mention.Sample

open Mention.Sample in
/-- Different items can have the same text; what it mentions of them is the same. -/
theorem plain_text_reads_back_misleading :
    (∀ i ∈ misleading, i.Printable ⟨"/p"⟩) ∧ (∀ i ∈ misleadingTrimmed, i.Printable ⟨"/p/."⟩) ∧
      textOfItems misleading ⟨"/p"⟩ = textOfItems misleadingTrimmed ⟨"/p/."⟩ ∧
      misleading ≠ misleadingTrimmed ∧
      List.Forall₂ (fun i j : Item => ∃ m, i.MentionedBy ⟨"/p"⟩ m ∧ j.MentionedBy ⟨"/p/."⟩ m)
        misleading misleadingTrimmed := by
  have same : textOfItems misleading ⟨"/p"⟩ = textOfItems misleadingTrimmed ⟨"/p/."⟩ := by
    decide +kernel
  exact ⟨printable_misleading, printable_misleadingTrimmed, same, by decide,
    (plain_text_reads_back printable_misleading).2 _ _ printable_misleadingTrimmed same⟩

end SymbolNav
