/-
  SymbolNav/Text/Blank.lean
  =========================
  **White space**, in the sense of the Unicode property White_Space: what is
  cut off at the ends of a text and what stands between the words of one.

  `trim` is done to the output of a whole process by `run` and to lines by
  `result_tree`, `trimEnd` to lines by `format_items`, and `words` are what
  `split_flags` returns.
-/

namespace SymbolNav.Text

/-- The characters with the property White_Space. -/
def isBlank (c : Char) : Bool :=
  (0x9 ≤ c.toNat && c.toNat ≤ 0xD) || c.toNat = 0x20 || c.toNat = 0x85 || c.toNat = 0xA0 ||
  c.toNat = 0x1680 || (0x2000 ≤ c.toNat && c.toNat ≤ 0x200A) || c.toNat = 0x2028 ||
  c.toNat = 0x2029 || c.toNat = 0x202F || c.toNat = 0x205F || c.toNat = 0x3000

/-- The text without white space at its end. -/
def trimEnd (s : List Char) : List Char := (s.reverse.dropWhile isBlank).reverse

/-- The text without white space at its ends. -/
def trim (s : List Char) : List Char := trimEnd (s.dropWhile isBlank)

/-- The parts of a text that white space separates, none of them empty. -/
def words (s : List Char) : List (List Char) :=
  (s.splitOnP isBlank).filter (fun w => !w.isEmpty)

end SymbolNav.Text
