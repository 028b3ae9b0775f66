/-
  SymbolNav/Json/Token.lean
  =========================
  **The tokens of JSON**: brackets and separators, strings, and words, which
  are the numbers and the three names.

  A text is read character by character.  `Scan` says what the characters
  read so far have begun; `scan` takes one more.  A word ends only when a
  character comes that belongs to no word, and that character is then a token
  itself, begins a string, or is a blank.
-/
import SymbolNav.Json.Basic

namespace SymbolNav.Json

/-- What a text of JSON is made of. -/
inductive Token
  /-- One of the brackets, the comma or the colon. -/
  | mark (c : Char)
  /-- A run of other characters: a number or a name. -/
  | word (s : List Char)
  /-- A string, with its escapes undone. -/
  | text (s : List Char)
deriving DecidableEq, Repr

/-- How far the reading of an escape is. -/
inductive Escape
  /-- No escape has begun. -/
  | plain
  /-- A backslash has been read. -/
  | begun
  /-- A numbered escape lacks `missing + 1` of its digits. -/
  | digits (missing value : Nat)
deriving DecidableEq, Repr

/-- What the characters read so far have begun; read characters are kept in reverse. -/
inductive Scan
  | between
  | word (read : List Char)
  /-- Inside a string; `high` is the first half of a character that is written as two escapes. -/
  | text (read : List Char) (high : Option Nat) (escape : Escape)
deriving DecidableEq, Repr

/-- The characters that separate tokens and mean nothing. -/
def isGap (c : Char) : Bool := c = ' ' || c = '\t' || c = '\n' || c = '\r'

/-- The characters that are tokens by themselves. -/
def isMark (c : Char) : Bool :=
  c = '[' || c = ']' || c = '\x7b' || c = '\x7d' || c = ',' || c = ':'

def hexValue? (c : Char) : Option Nat :=
  if '0' ≤ c ∧ c ≤ '9' then some (c.toNat - 48)
  else if 'a' ≤ c ∧ c ≤ 'f' then some (c.toNat - 87)
  else if 'A' ≤ c ∧ c ≤ 'F' then some (c.toNat - 55)
  else none

/-- The character that a letter after a backslash stands for. -/
def escaped? (c : Char) : Option Char :=
  if c = '"' ∨ c = '\\' ∨ c = '/' then some c
  else if c = 'b' then some '\x08'
  else if c = 'f' then some '\x0c'
  else if c = 'n' then some '\n'
  else if c = 'r' then some '\r'
  else if c = 't' then some '\t'
  else none

/-- A numbered escape is complete: it is a character, or half of one. -/
def numbered (read : List Char) (high : Option Nat) (value : Nat) : Option Scan :=
  match high with
  | none =>
    if 0xD800 ≤ value ∧ value < 0xDC00 then some (.text read (some value) .plain)
    else if 0xDC00 ≤ value ∧ value < 0xE000 then none
    else some (.text (Char.ofNat value :: read) none .plain)
  | some h =>
    if 0xDC00 ≤ value ∧ value < 0xE000 then
      some (.text (Char.ofNat (0x10000 + (h - 0xD800) * 0x400 + (value - 0xDC00)) :: read)
        none .plain)
    else none

/-- A character where a token may begin. -/
def start (c : Char) : List Token × Scan :=
  if isGap c then ([], .between)
  else if isMark c then ([.mark c], .between)
  else if c = '"' then ([], .text [] none .plain)
  else ([], .word [c])

/-- One more character: the tokens that it completes, and what has been begun after it. -/
def scan : Scan → Char → Option (List Token × Scan)
  | .between, c => some (start c)
  | .word read, c =>
    if isGap c || isMark c || c = '"' then
      some (.word read.reverse :: (start c).1, (start c).2)
    else some ([], .word (c :: read))
  | .text read high .plain, c =>
    if c = '\\' then some ([], .text read high .begun)
    else if high.isSome then none
    else if c = '"' then some ([.text read.reverse], .between)
    else if c.toNat < 0x20 then none
    else some ([], .text (c :: read) none .plain)
  | .text read high .begun, c =>
    if c = 'u' then some ([], .text read high (.digits 3 0))
    else if high.isSome then none
    else (escaped? c).map (fun d => ([], .text (d :: read) none .plain))
  | .text read high (.digits missing value), c =>
    (hexValue? c).bind fun d =>
      match missing with
      | 0 => (numbered read high (value * 16 + d)).map (fun s => ([], s))
      | m + 1 => some ([], .text read high (.digits m (value * 16 + d)))

/-- The end of the text: nothing but a word can be open. -/
def Scan.atEnd? : Scan → Option (List Token)
  | .between => some []
  | .word read => some [.word read.reverse]
  | .text .. => none

/-- The tokens of a text that is read from some state, after those in `done`, which are in
reverse. -/
def tokensOnto (done : List Token) (s : Scan) : List Char → Option (List Token)
  | [] => s.atEnd?.map (fun out => done.reverse ++ out)
  | c :: rest =>
    match scan s c with
    | none => none
    | some (out, next) => tokensOnto (out.reverse ++ done) next rest

def tokens? (s : List Char) : Option (List Token) := tokensOnto [] .between s

end SymbolNav.Json
