/-
  SymbolNav/Toml/Quoted.lean
  ==========================
  **Strings of TOML**, read from the text behind their opening quotation mark.

  There are four forms.  Escapes are undone between double quotation marks and
  mean nothing between single ones.  The forms with three marks hold line
  feeds, lose one directly behind the opening marks, and may end in up to two
  more marks than the three that close them.

  The settings that are texts come to `load_from` in these forms.
-/
import SymbolNav.Toml.Scalar

namespace SymbolNav.Toml

def isPlain (c : Char) : Bool := c = '\t' || (0x20 ≤ c.toNat && c ≠ '\x7f')

/-- The character with this number, if there is one. -/
def charOf? (n : Nat) : Option Char := if n.isValidChar then some (Char.ofNat n) else none

/-- The character of an escape, from the text behind the backslash. -/
def escape? : List Char → Option (Char × List Char)
  | 'b' :: r => some ('\x08', r)
  | 't' :: r => some ('\t', r)
  | 'n' :: r => some ('\n', r)
  | 'f' :: r => some ('\x0c', r)
  | 'r' :: r => some ('\r', r)
  | '"' :: r => some ('"', r)
  | '\\' :: r => some ('\\', r)
  | 'u' :: a :: b :: c :: d :: r =>
    if [a, b, c, d].all isHexDigit then (charOf? (valueIn 16 [a, b, c, d])).map (·, r) else none
  | 'U' :: a :: b :: c :: d :: e :: f :: g :: h :: r =>
    if [a, b, c, d, e, f, g, h].all isHexDigit then
      (charOf? (valueIn 16 [a, b, c, d, e, f, g, h])).map (·, r)
    else none
  | _ => none

/-- A line end is read as a line feed. -/
def newline? : List Char → Option (List Char)
  | '\n' :: r => some r
  | '\r' :: '\n' :: r => some r
  | _ => none

/-- The text without spaces and tabs at its front. -/
def skipBlank (s : List Char) : List Char := s.dropWhile (fun c => c = ' ' || c = '\t')

/-- The text without blanks and line ends at its front. -/
def skipBlankLines : List Char → List Char
  | [] => []
  | '\r' :: '\n' :: r => skipBlankLines r
  | c :: r => if c = ' ' ∨ c = '\t' ∨ c = '\n' then skipBlankLines r else c :: r

/-- The text behind a backslash at the end of a line: where it goes on. -/
def continued? (s : List Char) : Option (List Char) := (newline? (skipBlank s)).map skipBlankLines

/-- A string between single marks of one kind; `fuel` bounds its length. -/
def lineString? (mark : Char) : (fuel : Nat) → (read : List Char) → List Char →
    Option (List Char × List Char)
  | 0, _, _ => none
  | _ + 1, _, [] => none
  | fuel + 1, read, c :: r =>
    if c = mark then some (read.reverse, r)
    else if c = '\\' ∧ mark = '"' then
      match escape? r with
      | some (d, r) => lineString? mark fuel (d :: read) r
      | none => none
    else if isPlain c then lineString? mark fuel (c :: read) r
    else none

/-- A string between three marks of one kind; `fuel` bounds its length. -/
def blockString? (mark : Char) : (fuel : Nat) → (read : List Char) → List Char →
    Option (List Char × List Char)
  | 0, _, _ => none
  | _ + 1, _, [] => none
  | fuel + 1, read, c :: r =>
    if c = mark then
      let marks := (c :: r).takeWhile (· = mark)
      let after := (c :: r).dropWhile (· = mark)
      if marks.length < 3 then blockString? mark fuel (marks ++ read) after
      else if marks.length ≤ 5 then some ((marks.drop 3 ++ read).reverse, after)
      else none
    else if c = '\\' ∧ mark = '"' then
      match escape? r with
      | some (d, r) => blockString? mark fuel (d :: read) r
      | none =>
        match continued? r with
        | some r => blockString? mark fuel read r
        | none => none
    else
      match newline? (c :: r) with
      | some r => blockString? mark fuel ('\n' :: read) r
      | none => if isPlain c then blockString? mark fuel (c :: read) r else none

/-- The string that a text begins with, in one of the forms that stay on one line. -/
def lineText? : List Char → Option (List Char × List Char)
  | '"' :: r => lineString? '"' (r.length + 1) [] r
  | '\x27' :: r => lineString? '\x27' (r.length + 1) [] r
  | _ => none

def text? : List Char → Option (List Char × List Char)
  | '"' :: '"' :: '"' :: r => blockString? '"' (r.length + 1) [] ((newline? r).getD r)
  | '\x27' :: '\x27' :: '\x27' :: r => blockString? '\x27' (r.length + 1) [] ((newline? r).getD r)
  | s => lineText? s

end SymbolNav.Toml
