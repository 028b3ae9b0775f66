/-
  SymbolNav/Hit.lean
  ==================
  **Hits**: the lines of an indexer's answer.

  A line has four fields.  The first three are runs of characters other than
  the space, with at least one space between them; the fourth is everything
  after the *single* space that follows the third.  Only the space separates:
  tabs, other white space and even line feeds belong to the first three fields,
  while the fourth has no line feed.  The third field is the line number,
  counted from one.

  Because every run is as long as it can be, the line comes apart in one way
  only, and reading is three cuts from the left (`fields?`).

  A `Hit` is a `RawHit` of the parser, `Hit.parse` is its `parse_line` and
  `Hit.parseAll` its `parse_output`; `fields?` is the match of a line with
  `LINE_PATTERN`.
-/
import SymbolNav.Error
import SymbolNav.Text.Lines

namespace SymbolNav

open Text

/-- A hit whose column is not known yet. -/
structure Hit where
  /-- The file as the indexer names it, often relative. -/
  file : String
  /-- The enclosing function, or the called one. -/
  symbol : String
  /-- The line, counted from zero. -/
  lineNumber : Nat
  /-- The text after the line number. -/
  trailingText : String
  /-- The line that was read. -/
  originalLine : String
deriving DecidableEq, Repr, Inhabited

/-! ### Numerals -/

/-- The value of a run of decimal digits. -/
def digitsValue (ds : List Char) : Nat := ds.foldl (fun v d => v * 10 + (d.toNat - 48)) 0

def maxWord : Nat := Nat.pow 2 64 - 1

/-- The value of a numeral: an optional plus and at least one decimal digit, within 64 bits. -/
def numeral? (s : List Char) : Option Nat :=
  let ds := if s.head? = some '+' then s.tail else s
  if ds ≠ [] ∧ ds.all Char.isDigit ∧ digitsValue ds ≤ maxWord then some (digitsValue ds) else none

namespace HitLine

/-- Why a line is no hit. -/
inductive Fault
  | wrongFormat
  | notANumber (field : List Char)
  | lineZero
deriving DecidableEq, Repr

def Fault.reason : Fault → String
  | .wrongFormat => "wrong format"
  | .notANumber field => "line number " ++ quote (String.ofList field) ++ " is not a number"
  | .lineZero => "line numbers start at 1"

/-- The four fields of a line. -/
structure Fields where
  file : List Char
  symbol : List Char
  number : List Char
  rest : List Char
deriving DecidableEq, Repr

/-- A run of characters other than the space, and what follows it; none if the run is empty. -/
def field? (s : List Char) : Option (List Char × List Char) :=
  let w := s.takeWhile (· ≠ ' ')
  if w = [] then none else some (w, s.dropWhile (· ≠ ' '))

/-- What follows a run of at least one space. -/
def gap? (s : List Char) : Option (List Char) :=
  if s.head? = some ' ' then some (s.dropWhile (· = ' ')) else none

/-- The fields of a line that has the shape of a hit. -/
def fields? (s : List Char) : Option Fields := do
  let (file, s) ← field? s
  let s ← gap? s
  let (symbol, s) ← field? s
  let s ← gap? s
  let (number, s) ← field? s
  match s with
  | ' ' :: rest => if rest.contains '\n' then none else some ⟨file, symbol, number, rest⟩
  | _ => none

/-- Read a line that has lost its carriage return. -/
def read (s : List Char) : Except Fault Hit :=
  match fields? s with
  | none => .error .wrongFormat
  | some f =>
    match numeral? f.number with
    | none => .error (.notANumber f.number)
    | some 0 => .error .lineZero
    | some (n + 1) => .ok
      { file := String.ofList f.file, symbol := String.ofList f.symbol, lineNumber := n,
        trailingText := String.ofList f.rest, originalLine := String.ofList s }

end HitLine

/-- Read one line of an indexer's answer, as `parse_line` does; one carriage return at its end is
not part of it. -/
def Hit.parse (line : String) : Except Error Hit :=
  let s := dropReturn line.toList
  match HitLine.read s with
  | .ok hit => .ok hit
  | .error fault => .error (.parse (String.ofList s) fault.reason)

/-- The hits of a whole answer, as `parse_output` collects them. -/
def Hit.parseAll (output : String) : List Hit :=
  (lines output.toList).filterMap (fun l => (Hit.parse (String.ofList l)).toOption)

end SymbolNav
