/-
  SymbolNav/Toml/Printer.lean
  ===========================
  **Writing TOML.**  A string takes the first form that it fits into:

    1. double marks on one line, if nothing in it needs care;
    2. single marks on one line;
    3. three double marks, if nothing has to be escaped;
    4. three single marks;
    5. double marks with escapes, three of them if there is a line feed.

  A string with a line feed begins on the line after its opening marks, which
  reading takes off again.

  This is how `save_to` and `run_show` write the settings.
-/
import SymbolNav.Toml.Quoted

namespace SymbolNav.Toml

inductive StringForm
  /-- Between `"`. -/
  | basic
  /-- Between `'`. -/
  | literal
  /-- Between `"""`. -/
  | basicBlock
  /-- Between `'''`. -/
  | literalBlock
deriving DecidableEq, Repr

/-- Whether a character can only be written as an escape. -/
def needsEscape (c : Char) : Bool := (c.toNat < 0x20 && c ≠ '\t' && c ≠ '\n') || c = '\x7f'

/-- Whether three of the characters stand in a row, `seen` of them being in front. -/
def threeInRow (mark : Char) (seen : Nat) : List Char → Bool
  | [] => false
  | c :: r => if c = mark then seen = 2 || threeInRow mark (seen + 1) r else threeInRow mark 0 r

def StringForm.of (s : List Char) : StringForm :=
  let lines := s.contains '\n'
  if s.any needsEscape then if lines then .basicBlock else .basic
  else if !s.contains '\\' && !s.contains '"' && !lines then .basic
  else if !s.contains '\x27' && !lines then .literal
  else if !s.contains '\\' && !threeInRow '"' 0 s then .basicBlock
  else if !threeInRow '\x27' 0 s then .literalBlock
  else if lines then .basicBlock
  else .basic

/-- A hexadecimal digit in upper case. -/
def upperHexDigit (n : Nat) : Char := (Nat.digitChar n).toUpper

/-- How a character other than a double mark and a line feed stands between double marks. -/
def basicChar (c : Char) : List Char :=
  if c = '\x08' then ['\\', 'b']
  else if c = '\t' then ['\\', 't']
  else if c = '\x0c' then ['\\', 'f']
  else if c = '\r' then ['\\', 'r']
  else if c = '\\' then ['\\', '\\']
  else if needsEscape c then
    ['\\', 'u', '0', '0', upperHexDigit (c.toNat / 16), upperHexDigit (c.toNat % 16)]
  else [c]

/-- A text between double marks: a mark is escaped where it would be number `limit` in a row.
`seen` marks stand directly in front. -/
def basicText (limit : Nat) (seen : Nat) : List Char → List Char
  | [] => []
  | c :: r =>
    if c = '"' then
      if seen + 1 = limit then '\\' :: '"' :: basicText limit 0 r
      else '"' :: basicText limit (seen + 1) r
    else if c = '\n' then '\n' :: basicText limit 0 r
    else basicChar c ++ basicText limit 0 r

/-- The line feed after the opening marks of a string that has one. -/
def openingBreak (s : List Char) : List Char := if s.contains '\n' then ['\n'] else []

/-- A string in some form. -/
def printTextAs (s : List Char) : StringForm → List Char
  | .basic => '"' :: basicText 1 0 s ++ ['"']
  | .literal => '\x27' :: s ++ ['\x27']
  | .basicBlock => ['"', '"', '"'] ++ openingBreak s ++ basicText 3 0 s ++ ['"', '"', '"']
  | .literalBlock => ['\x27', '\x27', '\x27'] ++ openingBreak s ++ s ++ ['\x27', '\x27', '\x27']

def printText (s : String) : List Char := printTextAs s.toList (StringForm.of s.toList)

def printTexts : List String → List Char
  | [] => ['[', ']']
  | [s] => '[' :: printText s ++ [']']
  | ss => ['[', '\n'] ++ ss.flatMap (fun s => ' ' :: ' ' :: ' ' :: ' ' :: printText s ++ [',', '\n']) ++
      [']']

def printFlag (b : Bool) : List Char :=
  if b then ['t', 'r', 'u', 'e'] else ['f', 'a', 'l', 's', 'e']

def printLine (key : String) (value : List Char) : List Char :=
  key.toList ++ [' ', '=', ' '] ++ value ++ ['\n']

end SymbolNav.Toml
