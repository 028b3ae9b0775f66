/-
  SymbolNav/History.lean
  ======================
  **The way back**: a stack of the positions that were left by a jump.
  Positions are neither checked nor merged.  Taking from an empty history is no
  error; it gives nothing and a notice.

  A `History` is a `NavigationHistory`; `peek?` is its `peek`, and its `pop` is
  taken apart into what it returns (`peek?`), leaves (`drop`) and shows
  (`dropNotices`).
-/
import SymbolNav.Item

namespace SymbolNav

/-- The positions that were left, the latest first. -/
structure History where
  positions : List Position
deriving DecidableEq, Repr, Inhabited

namespace History

def empty : History := ⟨[]⟩

/-- The notice for taking from an empty history. -/
def endNotice : String := "End of History."

def push (h : History) (p : Position) : History := ⟨p :: h.positions⟩

def peek? (h : History) : Option Position := h.positions.head?

def drop (h : History) : History := ⟨h.positions.tail⟩

/-- What taking the latest position shows: a notice if there is none. -/
def dropNotices (h : History) : List String := if h.positions.isEmpty then [endNotice] else []

def size (h : History) : Nat := h.positions.length

def isEmpty (h : History) : Bool := h.positions.isEmpty

end History

end SymbolNav
