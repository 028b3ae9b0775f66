/-
  SymbolNav/Text/Utf8.lean
  ========================
  **Characters as octets, and octets as characters.**

  Source files and the output of an indexer are octets and need not be UTF-8.
  Reading is a small machine that takes one octet at a time, so that nothing
  is said twice about where a character may be cut:

    * `State`   how much of a character has been read;
    * `feed`    what one more octet completes (`some c`), what it shows to be
                broken (`none`), and the state after it;
    * `atEnd`   what the end of the octets shows to be broken.

  `decodeLossy` writes U+FFFD for each broken part; `decode?` accepts only
  octets without one.  A part is as long as it can be: the octets read so far
  are given up only when the next one cannot continue them, and that next one
  is then read afresh.

  The octets of a text can be cut before a character and at their end, and
  nowhere else (`take?`).

  `run`, `next_line` and `read_line` decode what they read with `decodeLossy`;
  `load_from` insists on `decode?`, and `locate_token` cuts a line with `take?`.
-/

namespace SymbolNav.Text.Utf8

/-! ### Writing -/

/-- The octets of a text: one to four for each character. -/
def encode (s : List Char) : List UInt8 :=
  s.flatMap String.utf8EncodeChar

/-! ### Reading -/

/-- Between two characters, or inside one: the value read so far, the number of octets due after
the next one, and the range in which the next one must lie. -/
inductive State
  | start
  | inside (value due : Nat) (low high : UInt8)
deriving DecidableEq, Repr

/-- What reading shows: a character, or a part that is none. -/
abbrev Emitted := Option Char

/-- Read an octet where a character may begin.  The ranges of the second octet leave out
overlong forms, surrogates and values above U+10FFFF. -/
def lead (b : UInt8) : List Emitted × State :=
  if b < 0x80 then ([some (Char.ofNat b.toNat)], .start)
  else if b < 0xC2 then ([none], .start)
  else if b < 0xE0 then ([], .inside (b.toNat - 0xC0) 0 0x80 0xBF)
  else if b = 0xE0 then ([], .inside 0 1 0xA0 0xBF)
  else if b = 0xED then ([], .inside 0xD 1 0x80 0x9F)
  else if b < 0xF0 then ([], .inside (b.toNat - 0xE0) 1 0x80 0xBF)
  else if b = 0xF0 then ([], .inside 0 2 0x90 0xBF)
  else if b < 0xF4 then ([], .inside (b.toNat - 0xF0) 2 0x80 0xBF)
  else if b = 0xF4 then ([], .inside 4 2 0x80 0x8F)
  else ([none], .start)

/-- Read one octet in any state. -/
def feed : State → UInt8 → List Emitted × State
  | .start, b => lead b
  | .inside value due low high, b =>
    if low ≤ b ∧ b ≤ high then
      let value := value * 64 + (b.toNat - 0x80)
      match due with
      | 0 => ([some (Char.ofNat value)], .start)
      | due + 1 => ([], .inside value due 0x80 0xBF)
    else
      let (out, next) := lead b
      (none :: out, next)

/-- A character that the end of the octets cuts off is a broken part. -/
def atEnd : State → List Emitted
  | .start => []
  | .inside .. => [none]

/-- Everything that reading `bytes` from a state shows, in order. -/
def emittedFrom (s : State) : List UInt8 → List Emitted
  | [] => atEnd s
  | b :: bs => (feed s b).1 ++ emittedFrom (feed s b).2 bs

/-- `emittedFrom`, with what was shown before in reverse. -/
def emittedOnto (s : State) (shown : List Emitted) : List UInt8 → List Emitted
  | [] => (atEnd s ++ shown).reverse
  | b :: bs => emittedOnto (feed s b).2 ((feed s b).1.reverse ++ shown) bs

theorem reverse_atEnd (s : State) : (atEnd s).reverse = atEnd s := by
  cases s <;> rfl

theorem emittedOnto_eq (s : State) (shown : List Emitted) (bytes : List UInt8) :
    emittedOnto s shown bytes = shown.reverse ++ emittedFrom s bytes := by
  induction bytes generalizing s shown with
  | nil => simp [emittedOnto, emittedFrom, reverse_atEnd]
  | cons b bs ih => simp [emittedOnto, emittedFrom, ih]

/-- Everything that reading a whole sequence of octets shows. -/
def emitted (bytes : List UInt8) : List Emitted :=
  emittedOnto .start [] bytes

theorem emitted_eq (bytes : List UInt8) : emitted bytes = emittedFrom .start bytes := by
  simp [emitted, emittedOnto_eq]

/-- The text of octets that need not be UTF-8: U+FFFD stands for each broken part. -/
def decodeLossy (bytes : List UInt8) : List Char :=
  (emitted bytes).map (·.getD '\uFFFD')

/-- The text of octets that are UTF-8 throughout. -/
def decode? (bytes : List UInt8) : Option (List Char) :=
  if (emitted bytes).all (·.isSome) then some (decodeLossy bytes) else none

/-! ### Cutting -/

/-- Whether a text can be cut after `n` octets: a character begins there, or the text ends. -/
def isBoundary (octets : List UInt8) (n : Nat) : Bool :=
  match octets[n]? with
  | some b => decide b.IsUTF8FirstByte
  | none => n = octets.length

/-- The text of the first `n` octets, if it can be cut there. -/
def take? (octets : List UInt8) (n : Nat) : Option (List Char) :=
  if isBoundary octets n then some (decodeLossy (octets.take n)) else none

end SymbolNav.Text.Utf8
