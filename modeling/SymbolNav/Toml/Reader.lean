/-
  SymbolNav/Toml/Reader.lean
  ==========================
  **Reading TOML**: first the statements of a text, then the table that they
  make.  Arrays may be spread over lines and hold comments; tables in braces
  stay on one line.  A statement takes its line to the end.

  Brackets and braces are not opened inside one another without limit, and a
  key has not more parts than that (`deepest`).

  `read?` is what `load_from` does to the text of a file before it looks for the
  settings.
-/
import SymbolNav.Toml.Quoted
import SymbolNav.Toml.Table

namespace SymbolNav.Toml

/-! ### Between values -/

/-- Blanks, line ends and whole comments at the front of a text are skipped; nothing if a comment
holds a control character or ends the text. -/
def skipGaps? : (inComment : Bool) → List Char → Option (List Char)
  | true, [] => none
  | false, [] => some []
  | true, '\n' :: r => skipGaps? false r
  | true, '\r' :: '\n' :: r => skipGaps? false r
  | true, c :: r => if isPlain c then skipGaps? true r else none
  | false, '\r' :: '\n' :: r => skipGaps? false r
  | false, c :: r =>
    if c = ' ' ∨ c = '\t' ∨ c = '\n' then skipGaps? false r
    else if c = '#' then skipGaps? true r
    else some (c :: r)

/-- The end of a line, after which a comment may stand; the end of the text is one. -/
def lineEnd? (s : List Char) : Option (List Char) :=
  let s := skipBlank s
  let s := if s.head? = some '#' then s.dropWhile isPlain else s
  if s = [] then some [] else newline? s

/-- How many brackets and braces may be open at once, and how many parts a key may have. -/
def deepest : Nat := 79

/-! ### Keys -/

def isBare (c : Char) : Bool := c.isAlphanum || c = '_' || c = '-'

/-- One part of a key. -/
def simpleKey? (s : List Char) : Option (String × List Char) :=
  match lineText? s with
  | some (k, r) => some (String.ofList k, r)
  | none =>
    let k := s.takeWhile isBare
    if k = [] then none else some (String.ofList k, s.dropWhile isBare)

/-- The parts of a key with dots between them; blanks may stand around each.  `parts` bounds
their number. -/
def keyParts? : (parts : Nat) → List Char → Option (List String × List Char)
  | 0, _ => none
  | parts + 1, s =>
    match simpleKey? (skipBlank s) with
    | none => none
    | some (k, r) =>
      match skipBlank r with
      | '.' :: r => (keyParts? parts r).map (fun (ks, r) => (k :: ks, r))
      | r => some ([k], r)

def key? (s : List Char) : Option (List String × List Char) := keyParts? deepest s

/-! ### Values -/

mutual

/-- The value that a text begins with; `depth` bounds how many brackets and braces are opened
inside one another. -/
def value? : (fuel depth : Nat) → List Char → Option (Toml × List Char)
  | 0, _, _ => none
  | fuel + 1, depth, s =>
    match s, depth with
    | '[' :: r, depth + 1 => (items? fuel depth r).map (fun (vs, r) => (.array vs, r))
    | '\x7b' :: r, depth + 1 =>
      match skipBlank r with
      | '\x7d' :: r => some (.table .braces [], r)
      | r =>
        match members? fuel depth r with
        | none => none
        | some (ms, r) => (ofAssignments? ms).map (fun members => (.table .braces members, r))
    | '"' :: _, _ | '\x27' :: _, _ => (text? s).map (fun (t, r) => (.text (String.ofList t), r))
    | _, _ => scalar? s
termination_by structural fuel => fuel

/-- The items of an array, up to its closing bracket. -/
def items? : (fuel depth : Nat) → List Char → Option (List Toml × List Char)
  | 0, _, _ => none
  | fuel + 1, depth, s =>
    match skipGaps? false s with
    | none => none
    | some (']' :: r) => some ([], r)
    | some s =>
      match value? fuel depth s with
      | none => none
      | some (v, r) =>
        match skipGaps? false r with
        | some (',' :: r) => (items? fuel depth r).map (fun (vs, r) => (v :: vs, r))
        | some (']' :: r) => some ([v], r)
        | _ => none
termination_by structural fuel => fuel

/-- The members of a table in braces, up to the closing one. -/
def members? : (fuel depth : Nat) → List Char →
    Option (List (List String × Toml) × List Char)
  | 0, _, _ => none
  | fuel + 1, depth, s =>
    match assignment? fuel depth s with
    | none => none
    | some (m, r) =>
      match skipBlank r with
      | ',' :: r => (members? fuel depth r).map (fun (ms, r) => (m :: ms, r))
      | '\x7d' :: r => some ([m], r)
      | _ => none
termination_by structural fuel => fuel

/-- A key, an equals sign and a value. -/
def assignment? : (fuel depth : Nat) → List Char →
    Option ((List String × Toml) × List Char)
  | 0, _, _ => none
  | fuel + 1, depth, s =>
    match key? s with
    | some (path, '=' :: r) =>
      (value? fuel depth (skipBlank r)).map (fun (v, r) => ((path, v), r))
    | _ => none
termination_by structural fuel => fuel

end

/-! ### Texts -/

/-- A bound on the depth of the reading of a text. -/
def enough (s : List Char) : Nat := 3 * s.length + 3

/-- The statement that a text begins with. -/
def statement? (s : List Char) : Option (Statement × List Char) :=
  match s with
  | '[' :: '[' :: r =>
    match key? r with
    | some (path, ']' :: ']' :: r) => some (.element path, r)
    | _ => none
  | '[' :: r =>
    match key? r with
    | some (path, ']' :: r) => some (.header path, r)
    | _ => none
  | s => (assignment? (enough s) deepest s).map (fun (m, r) => (.assign m.1 m.2, r))

/-- The statements of a text; `fuel` bounds the number of its lines. -/
def statements? : (fuel : Nat) → List Char → Option (List Statement)
  | 0, _ => none
  | fuel + 1, s =>
    match skipBlank s with
    | [] => some []
    | s =>
      match lineEnd? s with
      | some r => statements? fuel r
      | none =>
        match statement? s with
        | none => none
        | some (st, r) => (lineEnd? r).bind (fun r => (statements? fuel r).map (st :: ·))

/-- The members of the table that a text is; a mark of byte order at its front is skipped. -/
def read? (s : List Char) : Option Members :=
  let s := if s.head? = some '\uFEFF' then s.tail else s
  (statements? (s.length + 1) s).bind ofStatements?

end SymbolNav.Toml
