/-
  SymbolNav/Json/Printer.lean
  ===========================
  **JSON values as text**, on one line or laid out over several.

  The layout is given by the depth of the value: `none` puts everything on one
  line without a single blank, `some d` puts every element and every member on
  a line of its own, two spaces further in for each level.  An empty array or
  object stays closed up in both.

  `pretty` is the layout of `to_json`.
-/
import SymbolNav.Json.Basic

namespace SymbolNav.Json

/-! ### Strings -/

def hexDigit (n : Nat) : Char := Nat.digitChar n

/-- How a character stands in a string. -/
def escapeChar (c : Char) : List Char :=
  if c = '"' ∨ c = '\\' then ['\\', c]
  else if c = '\x08' then ['\\', 'b']
  else if c = '\x0c' then ['\\', 'f']
  else if c = '\n' then ['\\', 'n']
  else if c = '\r' then ['\\', 'r']
  else if c = '\t' then ['\\', 't']
  else if c.toNat < 0x20 then
    ['\\', 'u', '0', '0', hexDigit (c.toNat / 16), hexDigit (c.toNat % 16)]
  else [c]

/-- A string with its quotation marks. -/
def printString (s : String) : List Char := '"' :: s.toList.flatMap escapeChar ++ ['"']

/-! ### Values -/

/-- The depth of what stands inside a value. -/
def inside (depth : Option Nat) : Option Nat := depth.map (· + 1)

/-- What stands before an element, a member or a closing bracket. -/
def lineBreak : Option Nat → List Char
  | none => []
  | some d => '\n' :: List.replicate (2 * d) ' '

/-- What stands between the name of a member and its value. -/
def colon : Option Nat → List Char
  | none => [':']
  | some _ => [':', ' ']

mutual

/-- The text of a value at some depth. -/
def printAt (depth : Option Nat) : Json → List Char
  | .null => ['n', 'u', 'l', 'l']
  | .bool true => ['t', 'r', 'u', 'e']
  | .bool false => ['f', 'a', 'l', 's', 'e']
  | .int n => (toString n).toList
  | .decimal literal => literal.toList
  | .str s => printString s
  | .arr [] => ['[', ']']
  | .arr (x :: xs) =>
    '[' :: lineBreak (inside depth) ++ printAt (inside depth) x ++ printItems (inside depth) xs ++
      lineBreak depth ++ [']']
  | .obj [] => ['\x7b', '\x7d']
  | .obj ((k, v) :: ms) =>
    '\x7b' :: lineBreak (inside depth) ++ printString k ++ colon depth ++ printAt (inside depth) v ++
      printMembers (inside depth) ms ++ lineBreak depth ++ ['\x7d']

def printItems (depth : Option Nat) : List Json → List Char
  | [] => []
  | x :: xs => ',' :: lineBreak depth ++ printAt depth x ++ printItems depth xs

def printMembers (depth : Option Nat) : List (String × Json) → List Char
  | [] => []
  | (k, v) :: ms =>
    ',' :: lineBreak depth ++ printString k ++ colon depth ++ printAt depth v ++
      printMembers depth ms

end

def compact (j : Json) : String := String.ofList (printAt none j)

def pretty (j : Json) : String := String.ofList (printAt (some 0) j)

end SymbolNav.Json
