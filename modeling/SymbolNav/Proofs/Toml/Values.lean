/-
  SymbolNav/Proofs/Toml/Values.lean
  =================================
  **What is written for a value is one of its spellings**: of a string, an array of
  strings, a truth value or a whole number.  So a line with a key and a value says that
  the key has it (`says_printLine`).

  The digits of a number are a spelling of it because they make up the number
  (`digits_toDigits`) and no zero stands in front of them (`isDecimal_toDigits`).
-/
import SymbolNav.Proofs.Text.Decimal
import SymbolNav.Proofs.Toml.Quoted
import SymbolNav.Proofs.Toml.Written

namespace SymbolNav.Toml

open Text

theorem spells_printText (s : String) : Spells (printText s) (.text s) :=
  .text (stringSpells_printText s)

theorem spells_printFlag (b : Bool) : Spells (printFlag b) (.flag b) := by
  cases b with
  | false => exact .no
  | true => exact .yes

/-! ### Whole numbers -/

section Digits

variable {seen m n v : Nat} {d : Char} {s : List Char}

theorem Digits.concat (digits : Digits 10 seen s n) (listed : (d, v) ∈ digitValues)
    (small : v < 10) : Digits 10 seen (s ++ [d]) (n * 10 + v) := by
  induction digits with
  | last listed' small' => exact .next listed' small' (.last listed small)
  | next listed' small' rest ih => exact .next listed' small' ih
  | apart listed' small' rest ih => exact .apart listed' small' ih

theorem digitChar_listed : ∀ v < 10, (Nat.digitChar v, v) ∈ digitValues := by
  decide

theorem digits_toDigits (n : Nat) : Digits 10 0 (Nat.toDigits 10 n) n := by
  induction n using Nat.strongRecOn with
  | ind n ih =>
    rw [Nat.toDigits_eq_if (by decide)]
    by_cases small : n < 10
    · have digit : Digits 10 0 [n.digitChar] (0 * 10 + n) := .last (digitChar_listed n small) small
      rw [if_pos small]
      simpa using digit
    · have below : n % 10 < 10 := Nat.mod_lt n (by decide)
      have digits := (ih (n / 10) (by omega)).concat (digitChar_listed _ below) below
      rw [if_neg small]
      simpa [Nat.div_add_mod'] using digits

theorem spells_toDigits (small : n < integerBound) :
    Spells (Nat.toDigits 10 n) (.integer n) := by
  have spells := IntegerSpells.decimal .none (digits_toDigits n) (isDecimal_toDigits n).first
  have least : -integerBound ≤ (n : Int) := by
    have : 0 < integerBound := by decide
    omega
  exact .integer (by simpa using spells) least small

end Digits

/-! ### Arrays of strings -/

/-- An item of an array that is written on lines. -/
def itemLine (s : String) : List Char := ' ' :: ' ' :: ' ' :: ' ' :: printText s ++ [',', '\n']

theorem textsSpell_itemLines (ss : List String) :
    TextsSpell ('\n' :: (ss.flatMap itemLine ++ [']'])) ss := by
  have feed {g : List Char} (gap : Gap g) : Gap ('\n' :: g) := .newline .feed gap
  induction ss with
  | nil => exact .close (feed .nil)
  | cons s ss ih =>
    have indent : Gap ('\n' :: [' ', ' ', ' ', ' ']) :=
      feed (.blank (.inl rfl) (.blank (.inl rfl) (.blank (.inl rfl) (.blank (.inl rfl) .nil))))
    have more := TextsSpell.more indent (stringSpells_printText s) .nil ih
    simpa [itemLine] using more

theorem spells_printTexts (ss : List String) :
    Spells (printTexts ss) (.array (ss.map .text)) := by
  match ss with
  | [] => exact .texts (.close .nil)
  | [s] => exact .texts (.last .nil (stringSpells_printText s) .nil)
  | s :: s' :: ss => exact .texts (textsSpell_itemLines (s :: s' :: ss))

/-! ### Lines -/

theorem says_printLine {key : String} {written rest : List Char} {x : Toml}
    {sts : List Statement} (nonempty : key.toList ≠ []) (bare : ∀ c ∈ key.toList, isBare c = true)
    (spells : Spells written x) (more : Says rest sts) :
    Says (printLine key written ++ rest) (.assign [key] x :: sts) := by
  have blank : Blank [] := nofun
  have space : Blank [' '] := by simp [Blank]
  have named : KeySpells key.toList key := by
    have named := KeySpells.bare nonempty bare
    rwa [String.ofList_toList] at named
  have line := Says.assign blank (.mk named space space spells)
    (.newline blank .none .feed) more
  simpa [printLine] using line

end SymbolNav.Toml
