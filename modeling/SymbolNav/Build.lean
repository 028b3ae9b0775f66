/-
  SymbolNav/Build.lean
  ====================
  **Builds that are reported**: a notice when one begins and one when it ends.
  The notices name the database of the settings with which it began.

  These are the methods of `BuildCoordinator`: `reportedBuild` is `build`, of
  which `beginBuild` is the part before the process has ended, and
  `ensureFresh` and `indexExists` are `ensure_fresh` and `index_exists`.
-/
import SymbolNav.Engine

namespace SymbolNav

structure Build where
  /-- The database that the notices name. -/
  database : String
  response : Response
deriving DecidableEq, Repr, Inhabited

namespace Build

def beginNotice (database : String) : String := "Building \"" ++ database ++ "\"..."

def endNotice (database : String) : Except Error String → String
  | .ok _ => "\"" ++ database ++ "\" is updated."
  | .error _ => "Error occurred while updating \"" ++ database ++ "\"."

def result (b : Build) : Except Error String := b.response.output

/-- The notice for what the build has come to. -/
def notice (b : Build) : String := endNotice b.database b.result

end Build

namespace Engine

def indexExists (e : Engine) (cwd : Path) : Bool := e.host.files.isFile (e.config.databasePath cwd)

/-- Begin a build: the build on its way or the error that it is over, and the notices so far. -/
def beginBuild (e : Engine) (cwd : Path) : Except Error Build × List String × Engine :=
  let database := e.config.database
  match e.startBuild cwd with
  | (.ok response, e) => (.ok ⟨database, response⟩, [Build.beginNotice database], e)
  | (.error fault, e) =>
    (.error fault, [Build.beginNotice database, Build.endNotice database (.error fault)], e)

/-- Build, with a notice before and one after (`build`). -/
def reportedBuild (e : Engine) (cwd : Path) : Except Error String × List String × Engine :=
  match e.beginBuild cwd with
  | (.ok b, notices, e) => (b.result, notices ++ [b.notice], e)
  | (.error fault, notices, e) => (.error fault, notices, e)

/-- Build if the database is missing: whether it was built (`ensure_fresh`). -/
def ensureFresh (e : Engine) (cwd : Path) : Except Error Bool × List String × Engine :=
  if e.indexExists cwd then (.ok false, [], e)
  else
    let (result, notices, e) := e.reportedBuild cwd
    (result.map (fun _ => true), notices, e)

end Engine

end SymbolNav
