/-
  SymbolNav/Text/Lines.lean
  =========================
  **Lines**, in the two ways in which a text comes apart at its line feeds.

    * `lines`     a carriage return belongs to the line end only where the
                  line feed follows it, so an unterminated last line keeps its
                  own;
    * `segments`  every segment loses one carriage return at its end, whether
                  a line feed follows or not (`dropReturn`).

  The first is how a whole text is read, the second how octets are that arrive
  one segment at a time.  Neither starts a line after a final line feed: both are
  made of `pieces`, in which the separator is the *end* of a piece, so that a
  final separator starts no further piece and the empty sequence has none.

  `parse_output` and `read_line` go by `lines`, and `next_line` by `segments`.
-/

namespace SymbolNav.Text

/-- A piece of a sequence, and whether the separator that ends it is there. -/
structure Piece (α : Type) where
  content : List α
  ended : Bool
deriving DecidableEq, Repr

/-- The pieces that `sep` ends, in order; what follows the last separator is a piece only if it
is not empty. -/
def pieces {α : Type} [DecidableEq α] (sep : α) (l : List α) : List (Piece α) :=
  l.foldr (fun c acc =>
    if c = sep then ⟨[], true⟩ :: acc
    else match acc with
      | [] => [⟨[c], false⟩]
      | w :: ws => ⟨c :: w.content, w.ended⟩ :: ws) []

/-- A sequence without its last element where that is `c`. -/
def dropLastEq {α : Type} [DecidableEq α] (c : α) (l : List α) : List α :=
  if l.getLast? = some c then l.dropLast else l

/-- A text without the carriage return at its end. -/
def dropReturn (s : List Char) : List Char := dropLastEq '\r' s

/-- A text without all the carriage returns at its end. -/
def dropReturns (s : List Char) : List Char := (s.reverse.dropWhile (· = '\r')).reverse

/-- The lines of a text, without their ends. -/
def lines (s : List Char) : List (List Char) :=
  (pieces '\n' s).map (fun w => if w.ended then dropReturn w.content else w.content)

/-- The segments of a stream of octets that a line feed ends, each without one carriage return at
its end. -/
def segments (bytes : List UInt8) : List (List UInt8) :=
  (pieces 0x0A bytes).map (fun w => dropLastEq 0x0D w.content)

end SymbolNav.Text
