/-
  SymbolNav/Presentation.lean
  ===========================
  **Items as people see them**: a flat list, a tree by file, or the calls of a
  function.  Labels count lines and columns from one; the items inside keep
  counting from zero.

  The tree keeps the order of the items: a file comes where its first item
  comes, and the items of a file keep their order.

  `Item.listEntry` makes the rows of `list_entries`, `ResultTree.ofItems` is
  `result_tree`, and `Item.call` makes the rows of `call_hierarchy_items`.  In
  plain text, `textOfItems` is `format_items` and `ResultTree.text` is
  `format_tree`.
-/
import SymbolNav.Item
import SymbolNav.Text.Blank

namespace SymbolNav

open Text

inductive OutputMode
  | list
  | tree
deriving DecidableEq, Repr, Inhabited

namespace OutputMode

def name : OutputMode → String
  | .list => "list"
  | .tree => "tree"

def ofName? (s : String) : Option OutputMode :=
  if s = "list" then some .list else if s = "tree" then some .tree else none

end OutputMode

/-- The place of an item in one word: file, line and column. -/
def Item.location (i : Item) (root : Path) : String :=
  i.relativePath root ++ ":" ++ toString i.shownLine ++ ":" ++ toString i.shownColumn

/-! ### The list -/

/-- A row of the flat list (of `list_entries`). -/
structure ListEntry where
  label : String
  detail : String
  item : Item
deriving DecidableEq, Repr

def Item.listEntry (i : Item) (root : Path) : ListEntry :=
  { label := i.symbol ++ " : " ++ i.trailingText, detail := i.location root, item := i }

/-! ### The tree -/

/-- An item below its file. -/
structure Leaf where
  label : String
  item : Item
deriving DecidableEq, Repr

structure FileGroup where
  path : String
  children : List Leaf
deriving DecidableEq, Repr

/-- The items by file. -/
structure ResultTree where
  title : String
  files : List FileGroup
deriving DecidableEq, Repr

/-- The leaf of an item. -/
def Item.leaf (i : Item) : Leaf :=
  { label := i.symbol ++ "[" ++ toString i.shownLine ++ ":" ++ toString i.shownColumn ++ "] " ++
      String.ofList (trim i.lineText.toList),
    item := i }

namespace ResultTree

/-- The groups with one more leaf, in the group of its path or in a new one at the end. -/
def add (path : String) (leaf : Leaf) : List FileGroup → List FileGroup
  | [] => [⟨path, [leaf]⟩]
  | g :: gs =>
    if g.path = path then ⟨g.path, g.children ++ [leaf]⟩ :: gs else g :: add path leaf gs

/-- The items by the file that is shown for them, as `result_tree` groups them. -/
def ofItems (title : String) (items : List Item) (root : Path) : ResultTree :=
  ⟨title, items.foldl (fun gs i => add (i.relativePath root) i.leaf gs) []⟩

def leaves (t : ResultTree) : List Leaf := t.files.flatMap (·.children)

def size (t : ResultTree) : Nat := t.files.foldl (fun n f => n + f.children.length) 0

def isEmpty (t : ResultTree) : Bool := t.files.isEmpty

end ResultTree

/-! ### Either -/

/-- A set of results in one of the two shapes. -/
inductive Presentation
  | list (entries : List ListEntry)
  | tree (t : ResultTree)
deriving DecidableEq, Repr

namespace Presentation

/-- The items in the shape of the mode. -/
def ofItems (mode : OutputMode) (title : String) (items : List Item) (root : Path) :
    Presentation :=
  match mode with
  | .list => .list (items.map (·.listEntry root))
  | .tree => .tree (ResultTree.ofItems title items root)

/-- The items in the order in which they are shown. -/
def items : Presentation → List Item
  | .list entries => entries.map (·.item)
  | .tree t => t.leaves.map (·.item)

def size : Presentation → Nat
  | .list entries => entries.length
  | .tree t => t.size

def isEmpty : Presentation → Bool
  | .list entries => entries.isEmpty
  | .tree t => t.isEmpty

end Presentation

/-! ### Calls -/

/-- A caller or callee of a function. -/
structure Call where
  /-- The calling function, or the called one. -/
  name : String
  detail : String
  file : Path
  line : Nat
  column : Nat
  length : Nat
deriving DecidableEq, Repr

def Item.call (i : Item) (root : Path) : Call :=
  { name := i.symbol, detail := "[" ++ i.location root ++ "]" ++ i.lineText, file := i.file,
    line := i.line, column := i.column, length := i.length }

/-! ### Plain text -/

/-- A text with nothing blank at its end. -/
def withoutBlankEnd (s : String) : String := String.ofList (trimEnd s.toList)

/-- The line for an item. -/
def Item.textLine (i : Item) (root : Path) : String :=
  i.location root ++ ": " ++ withoutBlankEnd i.lineText ++ "\n"

def textOfItems (items : List Item) (root : Path) : String :=
  String.join (items.map (·.textLine root))

/-- The rule above and below a title. -/
def titleRule : String := String.ofList (List.replicate 43 '═') ++ "\n"

/-- A file and its leaves, after an empty line. -/
def FileGroup.text (g : FileGroup) : String :=
  "\n" ++ g.path ++ "\n" ++ String.join (g.children.map (fun l => "  " ++ l.label ++ "\n"))

/-- The tree below its title. -/
def ResultTree.text (t : ResultTree) : String :=
  titleRule ++ "  " ++ t.title ++ " (" ++ toString t.size ++ " results)\n" ++ titleRule ++
    String.join (t.files.map (·.text))

/-- The line for a call. -/
def Call.textLine (c : Call) : String :=
  "  " ++ c.name ++ " " ++ withoutBlankEnd c.detail ++ "\n"

end SymbolNav
