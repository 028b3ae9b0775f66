/-
  SymbolNav/Query.lean
  ====================
  **What is asked of the indexer**: one of nine kinds of question about a
  pattern.  A kind owns its flag on the indexer's command line and the rule for
  the token that is looked for on a reported line.

  These are `QueryKind` and `QuerySpec`: `name` is `as_str`, `ofName` is
  `from_str`, and `searchToken` is the `search_token` that a run looks for.
-/
import SymbolNav.Error

namespace SymbolNav

inductive QueryKind
  | symbol
  /-- The global definition of a symbol. -/
  | definition
  /-- Functions that the function calls. -/
  | callee
  /-- Functions that call the function. -/
  | caller
  | text
  | egrep
  | file
  /-- Files that include the file. -/
  | include
  /-- Assignments to a symbol. -/
  | set
deriving DecidableEq, Repr, Inhabited

namespace QueryKind

def all : List QueryKind :=
  [.symbol, .definition, .callee, .caller, .text, .egrep, .file, .include, .set]

/-- The flag that asks the indexer for this kind. -/
def flag : QueryKind → String
  | .symbol => "-0"
  | .definition => "-1"
  | .callee => "-2"
  | .caller => "-3"
  | .text => "-4"
  | .egrep => "-5"
  | .file => "-6"
  | .include => "-7"
  | .set => "-8"

def name : QueryKind → String
  | .symbol => "symbol"
  | .definition => "definition"
  | .callee => "callee"
  | .caller => "caller"
  | .text => "text"
  | .egrep => "egrep"
  | .file => "file"
  | .include => "include"
  | .set => "set"

def ofName? (name : String) : Option QueryKind := all.find? (fun k => k.name = name)

def ofName (name : String) : Except Error QueryKind :=
  match ofName? name with
  | some k => .ok k
  | none => .error (.invalidKind name)

theorem ofName?_name (k : QueryKind) : ofName? k.name = some k := by cases k <;> rfl

end QueryKind

structure QuerySpec where
  kind : QueryKind
  pattern : String
deriving DecidableEq, Repr, Inhabited

namespace QuerySpec

/-- The token to look for on a line that was reported for `symbol`.  The report of a callee names
the called function, and it is the call that is wanted; every other kind looks for its pattern. -/
def searchToken (spec : QuerySpec) (symbol : String) : String :=
  match spec.kind with
  | .callee => symbol
  | _ => spec.pattern

def title (spec : QuerySpec) : String := spec.kind.name ++ " " ++ spec.pattern

end QuerySpec

end SymbolNav
