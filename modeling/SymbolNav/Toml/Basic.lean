/-
  SymbolNav/Toml/Basic.lean
  =========================
  **TOML values.**  A table remembers how it came to be, because that decides
  what later lines may still add to it (`Toml/Table.lean`).  Numbers with a
  fraction and points in time are recognised but have no content here: nothing
  in the settings is one.

  TOML is what `load_from` reads and what `save_to` and `run_show` write.
-/

namespace SymbolNav

namespace Toml

inductive Origin
  /-- A header of its own. -/
  | header
  /-- A header of a table further in. -/
  | implied
  /-- A dotted key. -/
  | dotted
  /-- Braces: the table is complete. -/
  | braces
deriving DecidableEq, Repr, Inhabited

end Toml

inductive Toml
  | text (s : String)
  | integer (n : Int)
  | flag (b : Bool)
  /-- A number with a fraction or an exponent, an infinity, or no number. -/
  | float
  /-- A date, a time, or both. -/
  | moment
  | array (items : List Toml)
  | table (origin : Toml.Origin) (members : List (String × Toml))
  /-- The tables that were opened one by one under one name. -/
  | tables (elements : List (List (String × Toml)))
deriving Repr, Inhabited

namespace Toml

def lookup (key : String) (members : List (String × Toml)) : Option Toml :=
  (members.find? (fun m => m.1 = key)).map (·.2)

/-- One thing that a text of TOML says. -/
inductive Statement
  /-- What follows belongs to this table. -/
  | header (path : List String)
  /-- What follows belongs to a new table under this name. -/
  | element (path : List String)
  /-- A key, possibly dotted, and its value. -/
  | assign (path : List String) (value : Toml)
deriving Repr

end Toml

end SymbolNav
