/-
  SymbolNav/ConfigFile.lean
  =========================
  **The settings file**, a table of TOML with a key for each setting.

  Reading is forgiving about what is not there: a missing file means the
  standard settings, a missing key the standard value, and other keys do not
  count.  It is strict about what is there: a known key has to have a value of
  its type, and the settings have to be usable.

  Writing goes to a temporary file first, which then takes the place of the
  settings file, so that the file is never half written.

  Reading is `load_from` (`Config.load`) and writing `save_to` (`Config.save`)
  of `NavConfig`.
-/
import SymbolNav.Config
import SymbolNav.FileTree
import SymbolNav.Text.Utf8
import SymbolNav.Toml.Printer
import SymbolNav.Toml.Reader

namespace SymbolNav

open Text

namespace Toml

/-! ### Values of settings -/

def string? : Toml → Option String
  | .text s => some s
  | _ => none

def strings? : Toml → Option (List String)
  | .array items => items.mapM string?
  | _ => none

def flag? : Toml → Option Bool
  | .flag b => some b
  | _ => none

/-- A whole number that is not negative. -/
def count? : Toml → Option Nat
  | .integer n => if 0 ≤ n then some n.toNat else none
  | _ => none

def isVoid : Toml → Bool
  | .table _ members => members.isEmpty
  | .array items => items.isEmpty
  | _ => false

/-- A shape of results: its name, or a table whose only key is the name and that holds nothing. -/
def outputMode? : Toml → Option OutputMode
  | .text s => OutputMode.ofName? s
  | .table _ [(s, v)] => if v.isVoid then OutputMode.ofName? s else none
  | _ => none

end Toml

namespace Config

open Toml

/-! ### Reading -/

def ofMembers? (m : Members) : Option Config := do
  return {
    indexer := ← orDefault string? standard.indexer (lookup "indexer" m)
    database := ← orDefault string? standard.database (lookup "database" m)
    buildArgs := ← orDefault string? standard.buildArgs (lookup "build_args" m)
    queryArgs := ← orDefault string? standard.queryArgs (lookup "query_args" m)
    extensions := ← orDefault strings? standard.extensions (lookup "extensions" m)
    autoBuild := ← orDefault flag? standard.autoBuild (lookup "auto_build" m)
    preview := ← orDefault flag? standard.preview (lookup "preview" m)
    output := ← orDefault outputMode? standard.output (lookup "output" m)
    logLevel := ← orDefault string? standard.logLevel (lookup "log_level" m)
    maxConcurrentReads := ←
      orDefault count? standard.maxConcurrentReads (lookup "max_concurrent_reads" m)
    discardSuperseded := ←
      orDefault flag? standard.discardSuperseded (lookup "discard_superseded" m) }

def ofText? (s : List Char) : Option Config := (Toml.read? s).bind ofMembers?

/-- The settings that `load_from` gets from a file. -/
def load (files : FileTree) (p : Path) : Except Error Config :=
  if files.contains p then
    match files.read p with
    | .error fault => .error (.io fault.message)
    | .ok bytes =>
      match Utf8.decode? bytes with
      | none => .error (.io FileFault.notText.message)
      | some s =>
        match ofText? s with
        | none => .error (.config ("Failed to parse " ++ p.text))
        | some c => c.checked
  else .ok standard

/-! ### Writing -/

def print (c : Config) : List Char :=
  printLine "indexer" (printText c.indexer) ++
  printLine "database" (printText c.database) ++
  printLine "build_args" (printText c.buildArgs) ++
  printLine "query_args" (printText c.queryArgs) ++
  printLine "extensions" (printTexts c.extensions) ++
  printLine "auto_build" (printFlag c.autoBuild) ++
  printLine "preview" (printFlag c.preview) ++
  printLine "output" (printText c.output.name) ++
  printLine "log_level" (printText c.logLevel) ++
  printLine "max_concurrent_reads" (toString c.maxConcurrentReads).toList ++
  printLine "discard_superseded" (printFlag c.discardSuperseded)

def text (c : Config) : Except Error (List Char) :=
  if c.maxConcurrentReads < integerBound then .ok c.print
  else .error (.config "Failed to serialize config: out-of-range value for u64 type")

/-- The temporary file beside a settings file. -/
def temporary (p : Path) : Path := p.withExtension "tmp"

/-- Write a text and give it its path. -/
def replaceFile (files : FileTree) (p : Path) (content : List UInt8) :
    FileTree × Option Error :=
  match files.write (temporary p) content with
  | .error fault => (files, some (.io fault.message))
  | .ok files =>
    match files.rename (temporary p) p with
    | .error fault => (files, some (.io fault.message))
    | .ok files => (files, none)

/-- Write the settings to a file as `save_to` does; its directory is made if it is missing. -/
def save (c : Config) (files : FileTree) (p : Path) : FileTree × Option Error :=
  let made := match p.parent? with
    | some directory => files.makeDirectories directory
    | none => (files, none)
  match made with
  | (files, some fault) => (files, some (.io fault.message))
  | (files, none) =>
    match c.text with
    | .error e => (files, some e)
    | .ok s => replaceFile files p (Utf8.encode s)

end Config

end SymbolNav
