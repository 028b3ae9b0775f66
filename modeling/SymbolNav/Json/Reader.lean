/-
  SymbolNav/Json/Reader.lean
  ==========================
  **Reading JSON.**  The tokens are taken one by one.  What is open is a stack
  of frames, one for each array or object that has begun, with what has been
  read of it; `Due` says which tokens may come next.  The text is a value when
  all frames are closed, and nothing may follow then.

  `parse?` is how a stored record is read back, before its form is asked for its
  fields.
-/
import SymbolNav.Json.Token

namespace SymbolNav.Json

/-! ### Words -/

/-- The digits at the front, and the rest. -/
def spanDigits (s : List Char) : List Char × List Char :=
  (s.takeWhile Char.isDigit, s.dropWhile Char.isDigit)

/-- Whether digits may stand before the point: there is one, and no zero before others. -/
def isWhole : List Char → Bool
  | [] => false
  | ['0'] => true
  | c :: _ => c ≠ '0'

/-- Whether the text is an exponent, or nothing. -/
def isExponent : List Char → Bool
  | [] => true
  | c :: s =>
    let digits := match s with
      | '+' :: r => r
      | '-' :: r => r
      | r => r
    (c = 'e' || c = 'E') && digits ≠ [] && digits.all Char.isDigit

/-- Whether the text may follow the whole part of a number: a fraction, an exponent, or both. -/
def isTail : List Char → Bool
  | '.' :: s => (spanDigits s).1 ≠ [] && isExponent (spanDigits s).2
  | s => isExponent s

/-- The number that a word is. -/
def number? (w : List Char) : Option Json :=
  let (negative, s) := match w with
    | '-' :: r => (true, r)
    | r => (false, r)
  let (whole, tail) := spanDigits s
  if !isWhole whole || !isTail tail then none
  else if tail ≠ [] ∨ (negative ∧ whole = ['0']) then some (.decimal (String.ofList w))
  else
    let n : Nat := whole.foldl (fun v d => v * 10 + (d.toNat - 48)) 0
    some (.int (if negative then -n else n))

/-- The value that a word is. -/
def word? (w : List Char) : Option Json :=
  if w = ['n', 'u', 'l', 'l'] then some .null
  else if w = ['t', 'r', 'u', 'e'] then some (.bool true)
  else if w = ['f', 'a', 'l', 's', 'e'] then some (.bool false)
  else number? w

/-! ### Values -/

/-- An array or object that has begun, with what has been read of it in reverse. -/
inductive Frame
  | items (done : List Json)
  | members (done : List (String × Json))
  /-- An object whose member of this name lacks its value. -/
  | member (done : List (String × Json)) (key : String)
deriving Repr

/-- What may come next. -/
inductive Due
  | value
  /-- A value or the end of the array that has just begun. -/
  | firstItem
  /-- A name or the end of the object that has just begun. -/
  | firstMember
  | key
  | colon
  /-- A comma or the end of what is open. -/
  | next
  /-- Nothing: this is the value. -/
  | done (j : Json)
deriving Repr

/-- How far the reading of a value is. -/
structure Reading where
  frames : List Frame
  due : Due
deriving Repr

/-- A value is complete. -/
def Reading.complete (frames : List Frame) (j : Json) : Option Reading :=
  match frames with
  | [] => some ⟨[], .done j⟩
  | .items done :: outer => some ⟨.items (j :: done) :: outer, .next⟩
  | .member done key :: outer => some ⟨.members ((key, j) :: done) :: outer, .next⟩
  | .members _ :: _ => none

/-- A token where a value has to begin. -/
def Reading.value (frames : List Frame) : Token → Option Reading
  | .text s => complete frames (.str (String.ofList s))
  | .word w => (word? w).bind (complete frames)
  | .mark c =>
    if c = '[' then some ⟨.items [] :: frames, .firstItem⟩
    else if c = '\x7b' then some ⟨.members [] :: frames, .firstMember⟩
    else none

/-- A token where the name of a member has to stand. -/
def Reading.key (frames : List Frame) : Token → Option Reading
  | .text s =>
    match frames with
    | .members done :: outer => some ⟨.member done (String.ofList s) :: outer, .colon⟩
    | _ => none
  | _ => none

/-- One more token. -/
def Reading.step (r : Reading) (t : Token) : Option Reading :=
  match r.due with
  | .value => value r.frames t
  | .firstItem =>
    match r.frames with
    | .items _ :: outer => if t = .mark ']' then complete outer (.arr []) else value r.frames t
    | _ => none
  | .firstMember =>
    match r.frames with
    | .members _ :: outer => if t = .mark '\x7d' then complete outer (.obj []) else key r.frames t
    | _ => none
  | .key => key r.frames t
  | .colon => if t = .mark ':' then some ⟨r.frames, .value⟩ else none
  | .next =>
    match r.frames with
    | .items done :: outer =>
      if t = .mark ',' then some ⟨r.frames, .value⟩
      else if t = .mark ']' then complete outer (.arr done.reverse)
      else none
    | .members done :: outer =>
      if t = .mark ',' then some ⟨r.frames, .key⟩
      else if t = .mark '\x7d' then complete outer (.obj done.reverse)
      else none
    | _ => none
  | .done _ => none

def Reading.steps (r : Reading) : List Token → Option Reading
  | [] => some r
  | t :: ts => (r.step t).bind (fun next => next.steps ts)

def ofTokens? (ts : List Token) : Option Json :=
  match Reading.steps ⟨[], .value⟩ ts with
  | some ⟨[], .done j⟩ => some j
  | _ => none

def read? (s : List Char) : Option Json := (tokens? s).bind ofTokens?

def parse? (s : String) : Option Json := read? s.toList

end SymbolNav.Json
