/-
  SymbolNav/Toml/Table.lean
  =========================
  **Tables from statements.**  Every name is defined once, but a table may be
  spread over several statements:

    * a header opens its table, makes the tables on the way to it if they are
      missing, and may open a table that so far was only on the way to others;
    * a header in double brackets adds a table to those under its name;
    * a dotted key makes the tables on its way and may add to those that dotted
      keys have made, but never to a table that has a header.

  A name that stands for several tables means the latest of them on the way to
  something else.

  The settings that `load_from` looks for are members of the outermost table.
-/
import SymbolNav.Toml.Basic

namespace SymbolNav.Toml

abbrev Members := List (String × Toml)

def replace (key : String) (value : Toml) (members : Members) : Members :=
  if members.any (fun m => m.1 = key) then
    members.map (fun m => if m.1 = key then (key, value) else m)
  else members ++ [(key, value)]

/-- The tables under one name with the latest of them changed. -/
def changeLast? (change : Members → Option Members) : List Members → Option (List Members)
  | [] => none
  | [m] => (change m).map ([·])
  | m :: ms => (changeLast? change ms).map (m :: ·)

/-! ### Headers -/

/-- Go to the table at `path`, making what is missing on the way, and change it. -/
def within? (change : Members → Option Members) : List String → Members → Option Members
  | [], members => change members
  | key :: path, members =>
    match lookup key members with
    | none => (within? change path []).map (fun inner =>
        replace key (.table .implied inner) members)
    | some (.tables elements) => (changeLast? (within? change path) elements).map (fun elements =>
        replace key (.tables elements) members)
    | some (.table .braces _) => none
    | some (.table origin inner) => (within? change path inner).map (fun inner =>
        replace key (.table origin inner) members)
    | some _ => none

/-- Open the table under a name. -/
def openTable? (key : String) (members : Members) : Option Members :=
  match lookup key members with
  | none => some (replace key (.table .header []) members)
  | some (.table .implied inner) => some (replace key (.table .header inner) members)
  | some _ => none

/-- Add a table to those under a name. -/
def addTable? (key : String) (members : Members) : Option Members :=
  match lookup key members with
  | none => some (replace key (.tables [[]]) members)
  | some (.tables elements) => some (replace key (.tables (elements ++ [[]])) members)
  | some _ => none

/-! ### Keys -/

/-- Give a key its value; `inDotted` says that the members are those of a table that a dotted key
has made, which is what a dotted key may add to. -/
def assign? (value : Toml) : List String → (inDotted isDotted : Bool) → Members → Option Members
  | [], _, _, _ => none
  | [key], inDotted, isDotted, members =>
    if isDotted && !inDotted then none
    else if (lookup key members).isSome then none
    else some (replace key value members)
  | key :: path, _, _, members =>
    match lookup key members with
    | none => (assign? value path true true []).map (fun inner =>
        replace key (.table .dotted inner) members)
    | some (.tables elements) =>
      (changeLast? (assign? value path false true) elements).map (fun elements =>
        replace key (.tables elements) members)
    | some (.table .implied inner) => (assign? value path false true inner).map (fun inner =>
        replace key (.table .implied inner) members)
    | some (.table .dotted inner) => (assign? value path true true inner).map (fun inner =>
        replace key (.table .dotted inner) members)
    | some _ => none

/-- The members of a table that is written in braces. -/
def ofAssignments? (assignments : List (List String × Toml)) : Option Members :=
  assignments.foldlM (fun members a => assign? a.2 a.1 false false members) []

/-! ### Texts -/

/-- What has been read of a text: all members, and the way to the table that keys belong to. -/
structure Reading where
  members : Members
  current : List String
deriving Repr

/-- One more statement. -/
def Reading.add? (r : Reading) : Statement → Option Reading
  | .header path =>
    match path.getLast? with
    | none => none
    | some key => (within? (openTable? key) path.dropLast r.members).map (⟨·, path⟩)
  | .element path =>
    match path.getLast? with
    | none => none
    | some key => (within? (addTable? key) path.dropLast r.members).map (⟨·, path⟩)
  | .assign path value =>
    (within? (assign? value path false false) r.current r.members).map (⟨·, r.current⟩)

/-- The members of the outermost table. -/
def ofStatements? (statements : List Statement) : Option Members :=
  (statements.foldlM Reading.add? ⟨[], []⟩).map (·.members)

end SymbolNav.Toml
