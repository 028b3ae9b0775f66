/-
  SymbolNav/Json/Basic.lean
  =========================
  **JSON values.**  Whole numbers and other numbers are told apart, because a
  field that counts something takes only a whole number, and `2.0` is none.
  Members keep their order, which shows when a value is printed; of two members
  with one name the later one counts.

  JSON is what the commands print through `to_json`, and the form in which the
  records of the program are stored.
-/

namespace SymbolNav

inductive Json
  | null
  | bool (b : Bool)
  /-- A number written as an integer. -/
  | int (n : Int)
  /-- A number with a fraction, an exponent or a lone minus sign, as it is written. -/
  | decimal (literal : String)
  | str (s : String)
  | arr (items : List Json)
  | obj (members : List (String × Json))
deriving Repr, Inhabited

namespace Json

def ofNat (n : Nat) : Json := .int n

/-- The value of the last member with this name. -/
def lookup (key : String) (members : List (String × Json)) : Option Json :=
  (members.reverse.find? (fun m => m.1 = key)).map (·.2)

def get? (j : Json) (key : String) : Option Json :=
  match j with
  | .obj members => lookup key members
  | _ => none

end Json

end SymbolNav
