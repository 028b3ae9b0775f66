/-
  SymbolNav/Watch/Basic.lean
  ==========================
  **Watching source files**: which events are changes of sources.

  A file is a source file if its extension is one of those in the settings, in
  any case and without the dots that may stand in front of them there, and if
  nothing on the way to it from the watched directory is hidden.  An event
  counts once, for the first of its paths that is a source file, and only if it
  is a change: making, removing, writing and renaming are, while setting
  permissions and reading are not.

  `Watch.start` is `watch` up to the thread that it starts; `accepts` is
  `should_watch_path`, and `EventKind.isChange` is `is_change`.
-/
import SymbolNav.Config
import SymbolNav.FileTree
import SymbolNav.Text.LowerCase
import SymbolNav.Text.Quoted

namespace SymbolNav

open Text

/-! ### Events -/

/-- What an event reports. -/
inductive EventKind
  | created
  | removed
  /-- The content has changed. -/
  | written
  /-- A name is gone, is new, or both. -/
  | renamed
  /-- Something else has changed, or it is not known what. -/
  | modified
  /-- Times, owner or permissions have changed. -/
  | metadata
  | accessed
  | other
deriving DecidableEq, Repr

/-- Whether something has changed (`is_change`). -/
def EventKind.isChange : EventKind → Bool
  | .created | .removed | .written | .renamed | .modified => true
  | .metadata | .accessed | .other => false

/-- A report on some paths. -/
structure Event where
  kind : EventKind
  paths : List Path
deriving DecidableEq, Repr

/-! ### The filter -/

structure Watch where
  root : Path
  /-- The extensions of source files in lower case. -/
  extensions : List Part
deriving DecidableEq, Repr, Inhabited

namespace Watch

/-- An extension as it is compared: without dots in front, in lower case. -/
def normal (extension : List Char) : Part := lowerCase (extension.dropWhile (· = '.'))

def isHiddenStep : Component → Bool
  | .name s => s.toList.head? = some '.'
  | _ => false

/-- Whether something on the way from the root to the path is hidden. -/
def isHidden (w : Watch) (p : Path) : Bool :=
  ((p.stripPrefix? w.root).getD p).components.any isHiddenStep

/-- Whether a path is a source file, as `should_watch_path` decides. -/
def accepts (w : Watch) (p : Path) : Bool :=
  !w.isHidden p &&
    match p.extension? with
    | some ext => w.extensions.contains (lowerCase ext)
    | none => false

/-- The path for which an event counts, if it does. -/
def reaction? (w : Watch) (e : Event) : Option Path :=
  if e.kind.isChange then e.paths.find? w.accepts else none

def pattern (w : Watch) : String := Config.patternOf (w.extensions.map String.ofList)

/-- The watch for some extensions. -/
def of (extensions : List String) (root : Path) : Watch :=
  ⟨root, extensions.map (fun e => normal e.toList)⟩

/-- The watch that `watch` installs, or why it installs none. -/
def start (files : FileTree) (extensions : List String) (root : Path) : Except Error Watch :=
  if extensions = [] then .error (.watch "no extensions to watch")
  else if files.contains root then .ok (of extensions root)
  else
    let absolute := files.here.path.join root
    .error (.watch (root.text ++ ": No path was found. about [" ++ quote absolute.text ++ "]"))

end Watch

/-! ### Where events come from -/

/-- What can be done with files below a watched directory. -/
inductive FileAction
  | write (p : Path) (content : List UInt8)
  | append (p : Path) (content : List UInt8)
  /-- Take away what stands at the path and all that is below it. -/
  | remove (p : Path)
  | rename (source target : Path)
  | makeDirectory (p : Path)
  | setPermissions (p : Path)
  | read (p : Path)
deriving DecidableEq, Repr

namespace FileAction

/-- The tree after the action; a refused action leaves it. -/
def perform (t : FileTree) : FileAction → FileTree
  | .write p content => (t.write p content).toOption.getD t
  | .append p content =>
    match t.read p with
    | .ok before => (t.write p (before ++ content)).toOption.getD t
    | .error _ => t
  | .remove p => t.remove p
  | .rename source target => (t.rename source target).toOption.getD t
  | .makeDirectory p => (t.makeDirectory p).toOption.getD t
  | .setPermissions _ | .read _ => t

/-- The events that the action brings about in a tree.  A new file is made before it is written;
of a directory that is removed each inner path is reported, and nothing is where nothing is. -/
def events (t : FileTree) : FileAction → List Event
  | .write p _ => [⟨.created, [p]⟩, ⟨.written, [p]⟩, ⟨.accessed, [p]⟩]
  | .append p _ => [⟨.written, [p]⟩, ⟨.accessed, [p]⟩]
  | .remove p => (t.inside p).map (fun q => ⟨.removed, [q]⟩)
  | .rename source target =>
    if t.contains source then
      [⟨.renamed, [source]⟩, ⟨.renamed, [target]⟩, ⟨.renamed, [source, target]⟩]
    else []
  | .makeDirectory p => [⟨.created, [p]⟩]
  | .setPermissions p => [⟨.metadata, [p]⟩]
  | .read p => [⟨.accessed, [p]⟩]

end FileAction

namespace Watch

/-- The paths for which the events of an action count. -/
def reactions (w : Watch) (t : FileTree) (a : FileAction) : List Path :=
  (a.events t).filterMap w.reaction?

/-- The path by which the watch reports what a path names: below the root, as that was given. -/
def reportedPath? (w : Watch) (t : FileTree) (p : Path) : Option Path :=
  match t.find w.root, t.find p with
  | .ok (root, _), .ok (place, _) =>
    if root.isPrefixOf place && root ≠ place then
      some (w.root.join (Path.ofParts (place.drop root.length)))
    else none
  | _, _ => none

end Watch

end SymbolNav
