/-
  SymbolNav/Toml/Scalar.lean
  ==========================
  **Values in one word**: numbers, truth values, dates and times.  A word is a
  run of the characters that occur in them, so that it comes apart from what
  follows before anybody asks what it is.

  Digits may be grouped by single underscores, which stand between two digits
  and nowhere else.

  The switches and the count among the settings come to `load_from` as such
  words.
-/
import SymbolNav.Toml.Basic

namespace SymbolNav.Toml

/-! ### Digits -/

def digitValue (c : Char) : Nat :=
  if c.isDigit then c.toNat - 48 else if 'a' ≤ c ∧ c ≤ 'f' then c.toNat - 87 else c.toNat - 55

/-- The value of digits in a base; underscores do not count. -/
def valueIn (base : Nat) (s : List Char) : Nat :=
  (s.filter (· ≠ '_')).foldl (fun v d => v * base + digitValue d) 0

/-- Whether the text is groups of such characters with single underscores between them. -/
def isGrouped (p : Char → Bool) (s : List Char) : Bool :=
  (s.splitOn '_').all (fun w => !w.isEmpty && w.all p)

def isHexDigit (c : Char) : Bool :=
  c.isDigit || ('a' ≤ c && c ≤ 'f') || ('A' ≤ c && c ≤ 'F')

def isOctalDigit (c : Char) : Bool := '0' ≤ c && c ≤ '7'

def isBinaryDigit (c : Char) : Bool := c = '0' || c = '1'

/-- Whether the text is a whole number without a sign: no zero stands before other digits. -/
def isWhole (s : List Char) : Bool :=
  isGrouped Char.isDigit s && (s = ['0'] || s.head? ≠ some '0')

/-- Whether there is a minus sign, and what follows the sign. -/
def splitSign : List Char → Bool × List Char
  | '-' :: r => (true, r)
  | '+' :: r => (false, r)
  | s => (false, s)

/-! ### Whole numbers -/

/-- The least whole number that cannot be written. -/
def integerBound : Int := Int.pow 2 63

/-- The number, if it is within range. -/
def inRange? (n : Int) : Option Toml :=
  if -integerBound ≤ n ∧ n < integerBound then some (.integer n) else none

/-- The whole number that a word is. -/
def integer? (w : List Char) : Option Toml :=
  match w with
  | '0' :: 'x' :: ds => if isGrouped isHexDigit ds then inRange? (valueIn 16 ds) else none
  | '0' :: 'o' :: ds => if isGrouped isOctalDigit ds then inRange? (valueIn 8 ds) else none
  | '0' :: 'b' :: ds => if isGrouped isBinaryDigit ds then inRange? (valueIn 2 ds) else none
  | _ =>
    let (negative, ds) := splitSign w
    if isWhole ds then
      let n : Int := valueIn 10 ds
      inRange? (if negative then -n else n)
    else none

/-! ### Other numbers -/

/-- What is before and after the first character that satisfies `p`. -/
def cutAt (p : Char → Bool) (s : List Char) : List Char × Option (List Char) :=
  match s.dropWhile (fun c => !p c) with
  | [] => (s, none)
  | _ :: r => (s.takeWhile (fun c => !p c), some r)

/-- The least number that is rounded to infinity: half a step above the greatest finite one. -/
def floatBound : Nat := (Nat.pow 2 54 - 1) * Nat.pow 2 970

/-- Whether `m · 10 ^ e` is rounded to infinity. -/
def overflows (m : Nat) (e : Int) : Bool :=
  if m = 0 then false
  else if e > 400 then true
  else if 0 ≤ e then floatBound ≤ m * Nat.pow 10 e.toNat
  else if (Nat.toDigits 10 m).length < (-e).toNat then false
  else floatBound * Nat.pow 10 (-e).toNat ≤ m

/-- Whether a word is a number with a fraction, an exponent or both.  One that is too great is
refused, one that is too small is not. -/
def isFloat (w : List Char) : Bool :=
  let (negative, s) := splitSign w
  if s = ['i', 'n', 'f'] ∨ s = ['n', 'a', 'n'] then true
  else
    let (mantissa, exponent) := cutAt (fun c => c = 'e' || c = 'E') s
    let (whole, fraction) := cutAt (· = '.') mantissa
    let (exponentNegative, exponentDigits) := splitSign (exponent.getD ['0'])
    let exponentValue : Int := valueIn 10 exponentDigits
    let scale := (fraction.getD []).filter (· ≠ '_')
    isWhole whole && (fraction.isSome || exponent.isSome) &&
      (fraction.isNone || isGrouped Char.isDigit (fraction.getD [])) &&
      isGrouped Char.isDigit exponentDigits &&
      (negative || !overflows (valueIn 10 (whole ++ scale))
        ((if exponentNegative then -exponentValue else exponentValue) - scale.length))

/-! ### Dates and times -/

/-- The number that exactly `n` digits are. -/
def fixed? (n : Nat) (s : List Char) : Option Nat :=
  if s.length = n ∧ s.all Char.isDigit then some (valueIn 10 s) else none

def daysIn (year month : Nat) : Nat :=
  if month = 2 then
    if year % 4 = 0 ∧ (year % 100 ≠ 0 ∨ year % 400 = 0) then 29 else 28
  else if month = 4 ∨ month = 6 ∨ month = 9 ∨ month = 11 then 30
  else 31

/-- Whether the text is a day of the calendar, such as `1979-05-27`. -/
def isDate (s : List Char) : Bool :=
  match s.splitOn '-' with
  | [y, m, d] =>
    match fixed? 4 y, fixed? 2 m, fixed? 2 d with
    | some year, some month, some day =>
      1 ≤ month && month ≤ 12 && 1 ≤ day && day ≤ daysIn year month
    | _, _, _ => false
  | _ => false

/-- Whether the text is a number of two digits up to `greatest`. -/
def isUpTo (greatest : Nat) (s : List Char) : Bool :=
  match fixed? 2 s with
  | some n => n ≤ greatest
  | none => false

/-- Whether the text is a time of day, such as `07:32:00.5`. -/
def isTime (s : List Char) : Bool :=
  let (clock, fraction) := cutAt (· = '.') s
  (match clock.splitOn ':' with
    | [h, m, s] => isUpTo 23 h && isUpTo 59 m && isUpTo 60 s
    | _ => false) &&
  (match fraction with
    | none => true
    | some ds => !ds.isEmpty && ds.all Char.isDigit)

/-- Whether the text is the distance from universal time, such as `-07:00`. -/
def isOffset (s : List Char) : Bool :=
  match s.splitOn ':' with
  | [h, m] => isUpTo 23 h && isUpTo 59 m
  | _ => false

/-- Whether the text is a time of day that may say its distance from universal time. -/
def isTimeWithOffset (s : List Char) : Bool :=
  let (time, offset) := cutAt (fun c => c = '+' || c = '-') s
  match offset with
  | some o => isTime time && isOffset o
  | none =>
    if s.getLast? = some 'Z' ∨ s.getLast? = some 'z' then isTime s.dropLast else isTime s

/-- Whether a word is a date, a time, or a date and a time with a letter between them. -/
def isMoment (w : List Char) : Bool :=
  let (date, time) := cutAt (fun c => c = 'T' || c = 't') w
  match time with
  | some t => isDate date && isTimeWithOffset t
  | none => isDate w || isTime w

/-! ### Words -/

def isWordChar (c : Char) : Bool :=
  c.isAlphanum || c = '_' || c = '+' || c = '-' || c = '.' || c = ':'

/-- The value that a word is. -/
def word? (w : List Char) : Option Toml :=
  if w = ['t', 'r', 'u', 'e'] then some (.flag true)
  else if w = ['f', 'a', 'l', 's', 'e'] then some (.flag false)
  else if isMoment w then some .moment
  else if isFloat w then some .float
  else integer? w

/-- The value that a text begins with, and what follows it.  A blank may stand between a date and
a time. -/
def scalar? (s : List Char) : Option (Toml × List Char) :=
  let w := s.takeWhile isWordChar
  let rest := s.dropWhile isWordChar
  match rest with
  | ' ' :: after =>
    if isDate w && (after.head?.map Char.isDigit).getD false then
      if isTimeWithOffset (after.takeWhile isWordChar) then
        some (.moment, after.dropWhile isWordChar)
      else none
    else (word? w).map (·, rest)
  | _ => (word? w).map (·, rest)

end SymbolNav.Toml
