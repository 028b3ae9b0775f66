/-
  SymbolNav/CommandLine/Basic.lean
  ================================
  **What can be said on the command line**: commands and the options that all
  of them share, the names by which they go, and the reasons for which a line
  is turned away.

  A line goes down through levels, from the program to a command and perhaps to
  an operation of that command.  Every level knows the shared options, so they
  may stand anywhere.

  The commands and options are declared by `Cli`, `Commands`, `QueryArgs`,
  `CallsArgs`, `ConfigOperation` and `OutputFormat`.
-/
import SymbolNav.Query
import SymbolNav.Path

namespace SymbolNav.CommandLine

/-! ### What a line means -/

inductive Format
  | text
  | json
deriving DecidableEq, Repr, Inhabited

inductive Command
  | build
  | query (kind : QueryKind) (pattern : String) (tree : Bool)
  /-- The calls of a function, or with `incoming` the calls to it. -/
  | calls (function : String) (incoming : Bool)
  | watch
  | showConfig
  | initConfig (force : Bool)
deriving DecidableEq, Repr, Inhabited

/-- A command with the shared options. -/
structure Invocation where
  command : Command
  config : Option Path
  root : Option Path
  format : Format
  verbose : Bool
deriving DecidableEq, Repr, Inhabited

/-- Why a line is turned away; the last three are not the person's fault. -/
inductive Rejection
  | argumentConflict
  | invalidSubcommand
  | invalidValue
  | missingArgument
  | missingSubcommand
  | tooManyValues
  | unknownArgument
  /-- Nothing was said where a command has to be named. -/
  | helpForNothing
  | help
  | version (text : String)
deriving DecidableEq, Repr

/-- The status with which the program ends. -/
def Rejection.exitStatus : Rejection → Nat
  | .help | .version _ => 0
  | _ => 2

/-! ### Levels -/

/-- How far down a line has gone. -/
inductive Level
  | top
  | build
  | query
  | calls
  | watch
  | config
  | configShow
  | configInit
deriving DecidableEq, Repr, Inhabited

namespace Level

/-- The level below that a word names. -/
def below? : Level → String → Option Level
  | .top, "build" | .top, "b" => some .build
  | .top, "query" | .top, "q" => some .query
  | .top, "calls" => some .calls
  | .top, "watch" => some .watch
  | .top, "config" => some .config
  | .config, "show" => some .configShow
  | .config, "init" => some .configInit
  | _, _ => none

/-- Whether there are levels below; one of them has to be named then. -/
def hasBelow : Level → Bool
  | .top | .config => true
  | _ => false

/-- The number of arguments that are known by their place. -/
def arity : Level → Nat
  | .query => 2
  | .calls => 1
  | _ => 0

def programName : Level → String
  | .top => "cscope-nav"
  | .build => "cscope-nav-build"
  | .query => "cscope-nav-query"
  | .calls => "cscope-nav-calls"
  | .watch => "cscope-nav-watch"
  | .config => "cscope-nav-config"
  | .configShow => "cscope-nav-config-show"
  | .configInit => "cscope-nav-config-init"

def versionText (l : Level) : String := l.programName ++ " 0.3.0\n"

end Level

/-! ### Options -/

/-- The options that take a value. -/
inductive Setting
  | config
  | root
  | format
deriving DecidableEq, Repr

/-- The options that take none. -/
inductive Switch
  | verbose
  | tree
  | incoming
  | force
  | help
  | version
deriving DecidableEq, Repr

namespace Level

def setting? (name : List Char) : Option Setting :=
  if name = "config".toList then some .config
  else if name = "root".toList then some .root
  else if name = "format".toList then some .format
  else none

/-- The option without a value that goes by a long name at this level. -/
def switch? (l : Level) (name : List Char) : Option Switch :=
  if name = "verbose".toList then some .verbose
  else if name = "help".toList then some .help
  else if name = "version".toList then some .version
  else if name = "tree".toList ∧ l = .query then some .tree
  else if name = "incoming".toList ∧ l = .calls then some .incoming
  else if name = "force".toList ∧ l = .configInit then some .force
  else none

end Level

def Setting.ofLetter? (c : Char) : Option Setting := if c = 'f' then some .format else none

def Switch.ofLetter? (c : Char) : Option Switch :=
  if c = 'v' then some .verbose
  else if c = 'h' then some .help
  else if c = 'V' then some .version
  else none

def Format.ofName? (s : String) : Option Format :=
  if s = "text" ∨ s = "pretty" then some .text else if s = "json" then some .json else none

/-- Whether an option can have this value: a path is not empty, a format is known. -/
def Setting.allows : Setting → String → Bool
  | .config, s | .root, s => s ≠ ""
  | .format, s => (Format.ofName? s).isSome

end SymbolNav.CommandLine
