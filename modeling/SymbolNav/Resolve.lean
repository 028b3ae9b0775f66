/-
  SymbolNav/Resolve.lean
  ======================
  **From a hit to an item.**  An indexer reports a file and a line.  The line is
  read again and the token is looked for on it, as plain text.  An index may be
  out of date, so a token that is no longer there still gives an item, at column
  zero and without length; only a file that cannot be read gives none.

  The search goes by octets (`locate?`), while columns count characters; so the
  line is cut where the octets are found, and what stands before is counted.

  Where lines come from is a parameter, a `SourceReader`, whose answer depends
  on nothing but the file and the line.

  The parts are those of the resolver: `Hit.path` is `absolute_path`, `locate?`
  is `locate_token`, `lineOfBytes` the `read_line` of `FsSourceReader`, and
  `Hit.resolve` puts them together as `ResultResolver` does in `resolve`.
-/
import SymbolNav.Hit
import SymbolNav.Item
import SymbolNav.Query
import SymbolNav.Text.Utf8

namespace SymbolNav

open Text

/-! ### Where a token is -/

/-- The offset of the first occurrence of `token` in a sequence that begins `n` elements in. -/
def firstMatchFrom {α : Type} [DecidableEq α] (token : List α) (n : Nat) : List α → Option Nat
  | [] => if token = [] then some n else none
  | c :: s => if token.isPrefixOf (c :: s) then some n else firstMatchFrom token (n + 1) s

/-- Column and length of a token in a line; both are zero if it does not occur. -/
def locate (line token : List Char) : Nat × Nat :=
  match firstMatchFrom token 0 line with
  | some column => (column, token.length)
  | none => (0, 0)

/-- Column and length of a token whose octets are looked for among those of the line, as
`locate_token` does; none if the line cannot be cut where they are found. -/
def locate? (line token : List Char) : Option (Nat × Nat) :=
  let octets := Utf8.encode line
  match firstMatchFrom (Utf8.encode token) 0 octets with
  | some offset => (Utf8.take? octets offset).map (fun before => (before.length, token.length))
  | none => some (0, 0)

/-! ### Reading source lines -/

/-- What asking for a line gives. -/
inductive LineRead
  | text (line : String)
  | failed (message : String)
  /-- The reader ended abnormally. -/
  | crashed
deriving DecidableEq, Repr

/-- Where source lines come from: the line of a file, counted from zero, without its end. -/
abbrev SourceReader := Path → Nat → LineRead

/-- The line of a file with the given octets, without its end (`read_line`); a line past the end is
empty. -/
def lineOfBytes (bytes : List UInt8) (line : Nat) : List Char :=
  dropReturns ((lines (Utf8.decodeLossy bytes))[line]?.getD [])

/-! ### Resolving -/

/-- The file of a hit, seen from the directory in which the indexer ran (`absolute_path`). -/
def Hit.path (hit : Hit) (root : Path) : Path := root.join ⟨hit.file⟩

/-- The item of a hit on a line with the given text, with this column and length. -/
def Hit.itemAt (hit : Hit) (root : Path) (lineText : String) (span : Nat × Nat) : Item :=
  { file := hit.path root, symbol := hit.symbol, line := hit.lineNumber, column := span.1,
    length := span.2, lineText, trailingText := hit.trailingText }

/-- Read the line of a hit and find the token on it (`resolve`). -/
def Hit.resolve (hit : Hit) (reader : SourceReader) (root : Path) (token : String) :
    Outcome Item :=
  let file := hit.path root
  match reader file hit.lineNumber with
  | .text lineText =>
    match locate? lineText.toList token.toList with
    | some span => .value (hit.itemAt root lineText span)
    | none => .crashed
  | .failed message => .failed (.sourceRead file.text message)
  | .crashed => .crashed

/-- What the task of a hit resolves: the token is the one of the question. -/
def QuerySpec.resolve (spec : QuerySpec) (reader : SourceReader) (root : Path) (hit : Hit) :
    Outcome Item :=
  hit.resolve reader root (spec.searchToken hit.symbol)

end SymbolNav
