/-
  SymbolNav/Item.lean
  ===================
  **Items**: hits whose place in the source text is known, down to the column.
  Lines, columns and lengths count from zero and in characters.

  Items of one run come in no order of their own; `Item.sort` puts them in the
  order of their places, and keeps the order of items at the same place.

  An `Item` is a `ResolvedItem` of the resolver, `relativePath` its
  `relative_path`, and `Item.sort` the order of `sorted_items`.
-/
import SymbolNav.Path

namespace SymbolNav

structure Position where
  file : Path
  line : Nat
  column : Nat
deriving DecidableEq, Repr, Inhabited

/-- A hit with its exact span. -/
structure Item where
  /-- The source file. -/
  file : Path
  /-- The symbol that the hit was reported for. -/
  symbol : String
  line : Nat
  /-- Where the token starts on the line. -/
  column : Nat
  /-- The length of the token, zero if it is not on the line. -/
  length : Nat
  /-- The line as the file has it now. -/
  lineText : String
  /-- The line as the indexer reported it. -/
  trailingText : String
deriving DecidableEq, Repr, Inhabited

namespace Item

def position (i : Item) : Position := ⟨i.file, i.line, i.column⟩

/-- The item's file as it is shown for a project root. -/
def relativePath (i : Item) (root : Path) : String := i.file.relativeTo root

def shownLine (i : Item) : Nat := i.line + 1

def shownColumn (i : Item) : Nat := i.column + 1

/-! ### Order -/

/-- The item does not stand after the other. -/
def notAfter (i j : Item) : Bool :=
  compareLex (compareOn fun k => k.file.key)
    (compareLex (compareOn Item.line) (compareOn Item.column)) i j != .gt

/-- The items in the order of their places. -/
def sort (items : List Item) : List Item := items.mergeSort notAfter

end Item

end SymbolNav
