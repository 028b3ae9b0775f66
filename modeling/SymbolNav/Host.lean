/-
  SymbolNav/Host.lean
  ===================
  **The machine that everything runs on**: its files, where commands are looked
  up, what they do when they are run, and where source lines are read.

  Starting a command is refused in a fixed order: a blank command, a working
  directory that is none, and then whatever the system has against it.  Only
  what has been started counts as a call.

  `launch` is what `prepare` checks before a process is spawned, together with
  the spawning and the wording of its refusal in `spawn_failure`; `run` and
  `stream` are those of `ProcessRunner`, and `locate?` is the
  `locate_indexer` of the settings.
-/
import SymbolNav.Config
import SymbolNav.FileTree
import SymbolNav.Process
import SymbolNav.Resolve

namespace SymbolNav

/-- What a command does with its arguments and with the files, whose working directory is its own:
what it writes, how it ends, and what it makes of the files. -/
abbrev Program := List String → FileTree → Response × FileTree

structure Host where
  files : FileTree
  /-- The directories in which commands are looked up. -/
  searchPath : List Path
  /-- What executable files do. -/
  program : Program
  /-- The arguments of every call so far. -/
  calls : List (List String)
  /-- Where source lines come from, if not from the files. -/
  sources : Option SourceReader

def FileTree.sourceReader (t : FileTree) : SourceReader := fun p line =>
  match t.read p with
  | .error fault => .failed fault.message
  | .ok bytes => .text (String.ofList (lineOfBytes bytes line))

namespace Host

/-- Where source lines come from now. -/
def reader (h : Host) : SourceReader := h.sources.getD h.files.sourceReader

/-! ### Finding commands -/

/-- Why a path cannot be run, if it cannot. -/
def obstacle? (t : FileTree) (p : Path) : Option FileFault :=
  match t.find p with
  | .error fault => some fault
  | .ok (_, .file _ true) => none
  | .ok _ => some .permissionDenied

/-- Why a command cannot be run from a directory, if it cannot.  A command with a separator is a
path seen from that directory; any other is looked up, and a file that cannot be run is passed over
but remembered. -/
def refusal? (h : Host) (directory : Place) (command : String) : Option FileFault :=
  if command.toList.contains '/' then obstacle? { h.files with here := directory } ⟨command⟩
  else
    let obstacles := h.searchPath.map (fun d => obstacle? h.files (d.join ⟨command⟩))
    if obstacles.contains none then none
    else if obstacles.contains (some .permissionDenied) then some .permissionDenied
    else some .notFound

/-- The file that a command stands for, if it can be run from the working directory. -/
def locate? (h : Host) (command : String) : Option Path :=
  let p : Path := ⟨command⟩
  let steps := p.components
  let candidates :=
    if steps.length > 1 then
      if p.isAbsolute then [p]
      else [h.files.here.path.join (p.withoutLeadingDot)]
    else h.searchPath.map (·.join p)
  candidates.find? (fun c => h.files.isFile c && (obstacle? h.files c).isNone)

/-! ### Starting commands -/

/-- Whether a text holds the character that ends texts for the system. -/
def hasNul (s : String) : Bool := s.toList.contains '\x00'

/-- Start a command after the checks of `prepare`. -/
def launch (h : Host) (command : String) (args : List String) (cwd : Path) :
    Except Error (Response × Host) :=
  if Config.isBlankText command then .error (.config "indexer command is empty")
  else
    match h.files.find cwd with
    | .ok (directory, .directory) =>
      if hasNul command || args.any hasNul then
        .error (.spawnFailure command "nul byte found in provided data")
      else
        match h.refusal? directory command with
        | some fault => .error (.spawnFailure command fault.message)
        | none =>
          let (response, files) := h.program args { h.files with here := directory }
          .ok (response, { h with
            files := { files with here := h.files.here }, calls := h.calls ++ [args] })
    | _ => .error (.fileNotFound cwd.text)

/-- A command that has been started has run in the working directory, and its call counts. -/
theorem of_launch {h h' : Host} {command : String} {args : List String} {cwd : Path}
    {response : Response} (launched : h.launch command args cwd = .ok (response, h')) :
    ∃ directory, h.files.find cwd = .ok (directory, .directory) ∧
      let left := h.program args { h.files with here := directory }
      response = left.1 ∧ h' = { h with
        files := { left.2 with here := h.files.here }, calls := h.calls ++ [args] } := by
  unfold launch at launched
  split at launched
  case isTrue => cases launched
  case isFalse =>
    split at launched
    case h_2 => cases launched
    case h_1 directory there =>
      split at launched
      case isTrue => cases launched
      case isFalse =>
        split at launched
        case h_1 => cases launched
        case h_2 =>
          cases launched
          exact ⟨directory, there, rfl, rfl⟩

/-- Run a command to its end: its output as a whole. -/
def run (h : Host) (command : String) (args : List String) (cwd : Path) :
    Except Error String × Host :=
  match h.launch command args cwd with
  | .error e => (.error e, h)
  | .ok (response, h) => (response.output, h)

/-- Start a command to read its output while it runs. -/
def stream (h : Host) (command : String) (args : List String) (cwd : Path) :
    Except Error LineStream × Host :=
  match h.launch command args cwd with
  | .error e => (.error e, h)
  | .ok (response, h) => (.ok (.new (commandLine command args) response), h)

end Host

end SymbolNav
