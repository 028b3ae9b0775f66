/-
  SymbolNav/Main.lean
  ===================
  **The program at work.**  The indexer is run by the caller, who hands its
  answer over on the standard input:

      cscope -RL -f cscope.out -0 foo | symbolnav query symbol foo

  The files that matter are looked at beforehand: those of the settings, the
  root, the database, the indexer, and the sources that the answer names.  What
  the program has changed among them is written back at its end.

  This is `main`, but for the indexer as a process of its own; the settings file
  of the person is the `default_path` of `NavConfig`.
-/
import SymbolNav.Commands

namespace SymbolNav

open CommandLine

/-! ### Looking at files -/

/-- What stands at a place of the machine. -/
def lookAt (place : Place) : IO (Option Entry) := do
  try
    let content ← IO.FS.readBinFile place.path.text
    return some (.file content.toList true)
  catch
    | .noFileOrDirectory .. => return none
    | _ => return some .directory

/-- The places that a path goes through from a place. -/
def placesFrom (place : Place) : List Part → List Place
  | [] => []
  | w :: ws => FileTree.stepTo place w :: placesFrom (FileTree.stepTo place w) ws

def placesOf (t : FileTree) (p : Path) : List Place := placesFrom (t.startOf p) p.parts

/-- The tree with what stands at some more places. -/
def gather (t : FileTree) (places : List Place) : IO FileTree :=
  places.foldlM (fun t place => do
    if (t.entry? place).isSome then return t
    match ← lookAt place with
    | some e => return t.put place e
    | none => return t) t

/-- The tree with what some more paths lead to. -/
def gatherPaths (t : FileTree) (paths : List Path) : IO FileTree :=
  gather t (paths.flatMap (placesOf t))

/-- Bring about on the machine what has changed in a tree. -/
def writeBack (before after : FileTree) : IO Unit := do
  for (place, e) in after.entries do
    if before.entry? place ≠ some e then
      match e with
      | .directory => IO.FS.createDirAll place.path.text
      | .file content _ => IO.FS.writeBinFile place.path.text ⟨content.toArray⟩
  for (place, e) in before.entries do
    if e ≠ .directory ∧ after.entry? place = none then IO.FS.removeFile place.path.text

/-! ### The machine -/

/-- The settings file of the person. -/
def userConfig? : IO (Option Path) := do
  let directory ← match ← IO.getEnv "XDG_CONFIG_HOME" with
    | some d => pure (some (Path.mk d))
    | none => pure ((← IO.getEnv "HOME").map (fun h => Path.join ⟨h⟩ ⟨".config"⟩))
  return directory.map (fun d => (d.join ⟨"cscope-nav"⟩).join ⟨"config.toml"⟩)

def searchPath : IO (List Path) := do
  let text := (← IO.getEnv "PATH").getD ""
  return (text.toList.splitOn ':').map (fun d => ⟨String.ofList d⟩)

def needsIndexer : Command → Bool
  | .showConfig | .initConfig _ => false
  | _ => true

/-- The answer of the indexer. -/
def indexerAnswer (i : Invocation) : IO Response := do
  if needsIndexer i.command then
    return ⟨(← (← IO.getStdin).readBinToEnd).toList, [], some 0⟩
  else return ⟨[], [], some 0⟩

/-- The paths that a command with these settings looks at. -/
def pathsOf (c : Context) (directories : List Path) (r : Response) : List Path :=
  c.config.databasePath c.root :: directories.map (·.join ⟨c.config.indexer⟩) ++
    (r.lines.filterMap (fun l => (Hit.parse l).toOption)).map (·.path c.root)

/-- Run the program with what it has been told. -/
def runWith (words : List String) : IO Ending := do
  let here := (Path.mk (toString (← IO.currentDir))).parts.filter Part.counts
  let environment ← IO.getEnv "CSCOPE_NAV_CONFIG"
  let userConfig ← userConfig?
  let directories ← searchPath
  let launch (files : FileTree) (response : Response) : Launch :=
    { host := { files, searchPath := directories, program := fun _ files => (response, files),
                calls := [], sources := none }
      userConfig, environment }
  let nothing : Response := ⟨[], [], some 0⟩
  match CommandLine.read environment words with
  | .error r => return .ofRejection (launch ⟨[], here⟩ nothing).host r
  | .ok i =>
    let files ← gatherPaths ⟨[], here⟩
      ([Place.path here] ++ i.config.toList ++ userConfig.toList ++ i.root.toList)
    match Context.of (launch files nothing) i with
    | .error e => return .ofError (launch files nothing).host [] e
    | .ok c =>
      let response ← indexerAnswer i
      let files ← gatherPaths files (pathsOf c directories response)
      let ending := runProgram (launch files response) true words
      writeBack files ending.host.files
      return ending

end SymbolNav

def main (words : List String) : IO UInt32 := do
  let ending ← SymbolNav.runWith words
  IO.eprint ending.stderr
  IO.print ending.stdout
  return ending.status.toUInt32
