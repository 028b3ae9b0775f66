/-
  SymbolNav/FileTree.lean
  =======================
  **Files and directories**, and how a path finds its way among them.

  A tree holds an entry for each place other than the root, which is always a
  directory.  A path is walked part by part from the root, or from the working
  directory if it is relative.  Every part, also one that stays where it is
  (an empty part or a dot), needs a directory to start from; so a final
  separator asks for a directory, and `..` after a file is refused.

  An operation either changes the tree as it says or refuses and leaves it.

  The operations are the calls to the system that `load_from`, `save_to`,
  `from_cli` and the source reader make: `contains` is `exists`, `canonical?`
  is `canonicalize`, `makeDirectories` is `create_dir_all`, and `read`, `write`,
  `rename`, `isFile` and `isDirectory` keep their names.
-/
import SymbolNav.Path

namespace SymbolNav

/-! ### Refusals -/

/-- Why an operation on files is refused. -/
inductive FileFault
  | notFound
  | permissionDenied
  | alreadyExists
  | notADirectory
  | isADirectory
  | busy
  /-- The path holds a character that no path may hold. -/
  | nulInPath
  /-- The content of a text file is not UTF-8. -/
  | notText
  /-- There is nothing to start a chain of directories from. -/
  | noFirstDirectory
deriving DecidableEq, Repr

def FileFault.message : FileFault → String
  | .notFound => "No such file or directory (os error 2)"
  | .permissionDenied => "Permission denied (os error 13)"
  | .alreadyExists => "File exists (os error 17)"
  | .notADirectory => "Not a directory (os error 20)"
  | .isADirectory => "Is a directory (os error 21)"
  | .busy => "Device or resource busy (os error 16)"
  | .nulInPath => "file name contained an unexpected NUL byte"
  | .notText => "stream did not contain valid UTF-8"
  | .noFirstDirectory => "failed to create whole tree"

/-! ### Trees -/

/-- A place in a tree: the names on the way from the root. -/
abbrev Place := List Part

def Place.path (p : Place) : Path := ⟨"/" ++ (Path.ofParts p).text⟩

inductive Entry
  | directory
  | file (content : List UInt8) (executable : Bool)
deriving DecidableEq, Repr, Inhabited

/-- Files and directories, and the working directory. -/
structure FileTree where
  entries : List (Place × Entry)
  /-- Where relative paths start. -/
  here : Place
deriving DecidableEq, Repr, Inhabited

namespace FileTree

/-- What stands at a place. -/
def entry? (t : FileTree) (p : Place) : Option Entry :=
  if p = [] then some .directory else (t.entries.find? (fun e => e.1 = p)).map (·.2)

def put (t : FileTree) (p : Place) (e : Entry) : FileTree :=
  { t with entries := t.entries.filter (fun f => f.1 ≠ p) ++ [(p, e)] }

/-- The tree without a place and all that is below it. -/
def erase (t : FileTree) (p : Place) : FileTree :=
  { t with entries := t.entries.filter (fun f => !p.isPrefixOf f.1) }

/-- The tree in which a place and all that is below it stand somewhere else. -/
def move (t : FileTree) (source target : Place) : FileTree :=
  { t with entries := ((t.erase target).entries.map fun f =>
      if source.isPrefixOf f.1 then (target ++ f.1.drop source.length, f.2) else f) }

/-! ### Walking -/

/-- One step from a directory. -/
def stepTo (p : Place) (w : Part) : Place :=
  if w = [] ∨ w = ['.'] then p else if w = ['.', '.'] then p.dropLast else p ++ [w]

/-- The place that is reached by some parts, whether anything stands there or not. -/
def walk (t : FileTree) (p : Place) : List Part → Except FileFault Place
  | [] => .ok p
  | w :: ws =>
    match t.entry? p with
    | none => .error .notFound
    | some (.file ..) => .error .notADirectory
    | some .directory => t.walk (stepTo p w) ws

def startOf (t : FileTree) (p : Path) : Place := if p.isAbsolute then [] else t.here

/-- Whether no path may look like this. -/
def unusable? (p : Path) : Option FileFault :=
  if p.text.toList.contains '\x00' then some .nulInPath
  else if p.text = "" then some .notFound
  else none

/-- The place and the entry that a path names. -/
def find (t : FileTree) (p : Path) : Except FileFault (Place × Entry) :=
  match unusable? p with
  | some fault => .error fault
  | none =>
    match t.walk (t.startOf p) p.parts with
    | .error fault => .error fault
    | .ok place =>
      match t.entry? place with
      | none => .error .notFound
      | some e => .ok (place, e)

/-- A path taken apart for an operation that makes something: the directory it is to stand in,
the last part that is not empty, and whether a separator follows that part. -/
structure Target where
  directory : Place
  last : Part
  closed : Bool

/-- The target of a path.  The directory has to be there; what it is to hold need not. -/
def target (t : FileTree) (p : Path) : Except FileFault Target :=
  match unusable? p with
  | some fault => .error fault
  | none =>
    let back := p.parts.reverse
    let closed := back.head? = some []
    match back.dropWhile (· = []) with
    | [] => .ok ⟨[], ['.'], closed⟩
    | last :: before =>
      match t.walk (t.startOf p) before.reverse with
      | .error fault => .error fault
      | .ok directory =>
        match t.entry? directory with
        | none => .error .notFound
        | some (.file ..) => .error .notADirectory
        | some .directory => .ok ⟨directory, last, closed⟩

namespace Target

/-- Whether the last part is a name and not a way to move. -/
def isName (g : Target) : Bool := g.last ≠ ['.'] && g.last ≠ ['.', '.']

def place (g : Target) : Place := g.directory ++ [g.last]

end Target

/-! ### Questions -/

def contains (t : FileTree) (p : Path) : Bool := (t.find p).isOk

def isDirectory (t : FileTree) (p : Path) : Bool :=
  match t.find p with
  | .ok (_, .directory) => true
  | _ => false

def isFile (t : FileTree) (p : Path) : Bool :=
  match t.find p with
  | .ok (_, .file ..) => true
  | _ => false

def read (t : FileTree) (p : Path) : Except FileFault (List UInt8) :=
  match t.find p with
  | .error fault => .error fault
  | .ok (_, .directory) => .error .isADirectory
  | .ok (_, .file content _) => .ok content

/-- The path of the same place that has no detours. -/
def canonical? (t : FileTree) (p : Path) : Option Path :=
  (t.find p).toOption.map (fun e => e.1.path)

/-- A path that names something, and the paths below it. -/
def inside (t : FileTree) (p : Path) : List Path :=
  match t.find p with
  | .error _ => []
  | .ok (place, _) =>
    p :: (t.entries.filter (fun e => place.isPrefixOf e.1 && e.1 ≠ place)).map
      (fun e => p.join (Path.ofParts (e.1.drop place.length)))

/-! ### Changes -/

def write (t : FileTree) (p : Path) (content : List UInt8) : Except FileFault FileTree :=
  match t.target p with
  | .error fault => .error fault
  | .ok g =>
    if g.closed || !g.isName then .error .isADirectory
    else
      match t.entry? g.place with
      | some .directory => .error .isADirectory
      | some (.file _ executable) => .ok (t.put g.place (.file content executable))
      | none => .ok (t.put g.place (.file content false))

def makeDirectory (t : FileTree) (p : Path) : Except FileFault FileTree :=
  match t.target p with
  | .error fault => .error fault
  | .ok g =>
    if !g.isName ∨ (t.entry? g.place).isSome then .error .alreadyExists
    else .ok (t.put g.place .directory)

/-- Make a directory for which those above it are there, unless it is there already. -/
def ensureLast (t : FileTree) (p : Path) : Except FileFault FileTree :=
  match t.makeDirectory p with
  | .ok t => .ok t
  | .error fault => if t.isDirectory p then .ok t else .error fault

/-- Make a directory and those above it that are missing; `fuel` bounds their number.  What has
been made stays when the making fails further down. -/
def makeDirectoriesIn (fuel : Nat) (t : FileTree) (p : Path) : FileTree × Option FileFault :=
  if p.components = [] then (t, none)
  else
    match t.makeDirectory p with
    | .ok t => (t, none)
    | .error .notFound =>
      match fuel, p.parent? with
      | fuel + 1, some above =>
        match makeDirectoriesIn fuel t above with
        | (t, some fault) => (t, some fault)
        | (t, none) =>
          match t.ensureLast p with
          | .ok t => (t, none)
          | .error fault => (t, some fault)
      | _, _ => (t, some .noFirstDirectory)
    | .error fault => if t.isDirectory p then (t, none) else (t, some fault)

/-- Make a directory and those above it that are missing. -/
def makeDirectories (t : FileTree) (p : Path) : FileTree × Option FileFault :=
  makeDirectoriesIn p.parts.length t p

/-- Give a file another path.  What stood there is replaced, if it is a file. -/
def rename (t : FileTree) (source target : Path) : Except FileFault FileTree := do
  let g ← t.target source
  let h ← t.target target
  if !g.isName || !h.isName then throw .busy
  match t.entry? g.place with
  | none => throw .notFound
  | some (.file ..) =>
    if g.closed || h.closed then throw .notADirectory
    if g.place = h.place then return t
    if t.entry? h.place = some .directory then throw .isADirectory
    return t.move g.place h.place
  | some .directory =>
    if g.place = h.place then return t
    if (t.entry? h.place).isSome then throw .alreadyExists
    return t.move g.place h.place

/-- Take a path and all that is below it away. -/
def remove (t : FileTree) (p : Path) : FileTree :=
  match t.find p with
  | .ok (place, _) => t.erase place
  | .error _ => t

end FileTree

end SymbolNav
