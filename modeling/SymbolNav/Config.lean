/-
  SymbolNav/Config.lean
  =====================
  **The settings**, with a default for each of them, and what follows from them
  directly: whether they can be used, where the database is, and the arguments
  of the indexer.

  A `Config` is a `NavConfig`, and `fault?` its `validate`.  The functions of
  the same name are `database_path`, `build_argv`, `query_argv` and
  `watch_pattern`; `flags` is `split_flags`, `argsFor` the `query_args` of the
  engine, and `commandLine` the `command_line` of the process runner.
-/
import SymbolNav.Error
import SymbolNav.Path
import SymbolNav.Presentation
import SymbolNav.Query

namespace SymbolNav

open Text

structure Config where
  indexer : String
  /-- The database, seen from the project root. -/
  database : String
  /-- The indexer's flags for a build, separated by white space. -/
  buildArgs : String
  /-- The indexer's flags for a query, separated by white space. -/
  queryArgs : String
  extensions : List String
  /-- Whether to build a missing database at the start and again on every change. -/
  autoBuild : Bool
  /-- Whether to preview results while one is picked. -/
  preview : Bool
  output : OutputMode
  logLevel : String
  /-- How many source files one query reads at a time. -/
  maxConcurrentReads : Nat
  /-- Whether a query drops the results that come after a newer query has started. -/
  discardSuperseded : Bool
deriving DecidableEq, Repr, Inhabited

namespace Config

/-- The settings that hold where nothing else is said. -/
def standard : Config where
  indexer := "cscope"
  database := "cscope.out"
  buildArgs := "-RbU"
  queryArgs := "-RL"
  extensions := ["c", "h"]
  autoBuild := false
  preview := true
  output := .list
  logLevel := "info"
  maxConcurrentReads := 64
  discardSuperseded := false

/-! ### Validity -/

def isBlankText (s : String) : Bool := s.toList.all isBlank

/-- What `validate` finds unusable about the settings, the first such thing. -/
def fault? (c : Config) : Option Error :=
  if isBlankText c.indexer then some (.config "indexer must not be empty")
  else if isBlankText c.database then some (.config "database must not be empty")
  else if c.maxConcurrentReads = 0 then
    some (.config "max_concurrent_reads must be at least 1")
  else none

/-- The settings can be used. -/
def Valid (c : Config) : Prop := c.fault? = none

instance (c : Config) : Decidable c.Valid := inferInstanceAs (Decidable (_ = _))

def checked (c : Config) : Except Error Config :=
  match c.fault? with
  | some e => .error e
  | none => .ok c

/-- What is read for a setting, or its default where nothing is said. -/
def orDefault {α β : Type} (read : β → Option α) (default : α) : Option β → Option α
  | none => some default
  | some v => read v

/-! ### What follows from the settings -/

def databasePath (c : Config) (root : Path) : Path := root.join ⟨c.database⟩

def flags (s : String) : List String := (words s.toList).map String.ofList

def buildArgv (c : Config) : List String := flags c.buildArgs ++ ["-f", c.database]

def queryArgv (c : Config) : List String := flags c.queryArgs ++ ["-f", c.database]

def argsFor (c : Config) (spec : QuerySpec) : List String :=
  c.queryArgv ++ [spec.kind.flag, spec.pattern]

def patternOf (extensions : List String) : String :=
  "**/*.\x7b" ++ String.intercalate "," extensions ++ "\x7d"

def watchPattern (c : Config) : String := patternOf c.extensions

/-- The number of source files that one query reads at a time; there is always room for one. -/
def readLimit (c : Config) : Nat := max 1 c.maxConcurrentReads

end Config

def commandLine (command : String) (args : List String) : String :=
  String.intercalate " " (command :: args)

end SymbolNav
