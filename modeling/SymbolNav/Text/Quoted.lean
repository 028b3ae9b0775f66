/-
  SymbolNav/Text/Quoted.lean
  ==========================
  **Texts between double quotes**, as messages show them: one line whatever the
  text holds, and every character told apart from every other.

  A `NavError` is displayed with lines and paths in this form.
-/
import SymbolNav.Text.Printable

namespace SymbolNav.Text

/-- How a character stands in a quoted text. -/
def quoteChar (c : Char) : List Char :=
  if c = '\x00' then ['\\', '0']
  else if c = '\t' then ['\\', 't']
  else if c = '\r' then ['\\', 'r']
  else if c = '\n' then ['\\', 'n']
  else if c = '"' ∨ c = '\\' then ['\\', c]
  else if isHidden c then
    ['\\', 'u', '\x7b'] ++ Nat.toDigits 16 c.toNat ++ ['\x7d']
  else [c]

/-- A text between double quotes. -/
def quote (s : String) : String :=
  String.ofList ('"' :: s.toList.flatMap quoteChar ++ ['"'])

end SymbolNav.Text
