/-
  SymbolNav/Path.lean
  ===================
  **Paths**: a text, and what it names.  The text is kept as it was given,
  because it is shown to people; what it names is its list of components, in
  which repeated separators, inner dots and a final separator leave no trace.
  Two paths are the same place in this module's sense (`Path.Same`) when their
  components agree.  A component `..` counts like a name: nothing is resolved
  here.

  A text is looked at as its *parts*, the pieces between separators.  A part
  counts when it is neither empty nor a single dot; the functions that shorten
  a path (`parent?`, `stripPrefix?`, `withExtension`) drop counting parts and
  the parts at the cut that do not count, and keep the text of the rest.

  The functions are those of paths that the program relies on: `components`,
  `join`, `strip_prefix`, `parent`, `file_name`, `extension` and
  `with_extension`, each under its own name.
-/

namespace SymbolNav

/-- A path, by its text. -/
structure Path where
  text : String
deriving DecidableEq, Repr, Inhabited

/-- One step of a path.  A leading dot is a step of its own; dots further in are none. -/
inductive Component
  | root
  | current
  | parent
  | name (text : String)
deriving DecidableEq, Repr

/-- A piece of a path's text between separators. -/
abbrev Part := List Char

/-- Whether a part is a step: empty parts and single dots are not. -/
def Part.counts (w : Part) : Bool := w ≠ [] && w ≠ ['.']

/-- The step that a counting part is. -/
def Part.component (w : Part) : Component :=
  if w = ['.', '.'] then .parent else .name (String.ofList w)

/-- A path of the given parts. -/
def Path.ofParts (parts : List Part) : Path := ⟨String.ofList (['/'].intercalate parts)⟩

namespace Path

/-! ### Components -/

def parts (p : Path) : List Part := p.text.toList.splitOn '/'

def isAbsolute (p : Path) : Bool := p.text.toList.head? = some '/'

/-- What the path names. -/
def components (p : Path) : List Component :=
  let steps := (p.parts.filter Part.counts).map Part.component
  if p.isAbsolute then .root :: steps
  else if p.parts.head? = some ['.'] then .current :: steps
  else steps

/-- The paths name the same place. -/
def Same (p q : Path) : Prop := p.components = q.components

instance (p q : Path) : Decidable (Same p q) := inferInstanceAs (Decidable (_ = _))

end Path

/-- The place of a component in the order of components: the root, the leading dot, the parent,
then names by their characters. -/
def Component.key : Component → List Nat
  | .root => [0]
  | .current => [1]
  | .parent => [2]
  | .name s => 3 :: s.toList.map Char.toNat

/-- The place of a path in the order of paths, which goes step by step. -/
def Path.key (p : Path) : List (List Nat) := p.components.map Component.key

namespace Path

/-! ### Longer paths -/

/-- The path `child` seen from `base`: itself if it starts at the root, else below `base`. -/
def join (base child : Path) : Path :=
  if child.isAbsolute then child
  else if base.text = "" ∨ base.text.toList.getLast? = some '/' then ⟨base.text ++ child.text⟩
  else ⟨base.text ++ "/" ++ child.text⟩

/-! ### Shorter paths -/

/-- The parts without those at their end that do not count. -/
def withoutIdleEnd (parts : List Part) : List Part :=
  (parts.reverse.dropWhile (fun w => !w.counts)).reverse

/-- The steps of a relative path one after the other, without the dot that it may start with. -/
def withoutLeadingDot (p : Path) : Path := ofParts (p.parts.filter Part.counts)

/-- The parts from which the parts at the end that do not count have been dropped; the part that
makes a path absolute or starts it with a dot stays. -/
def trimEndParts (p : Path) (parts : List Part) : Path :=
  match parts with
  | [] => ⟨""⟩
  | w :: ws =>
    if p.isAbsolute then
      ⟨"/" ++ (ofParts (withoutIdleEnd ws)).text⟩
    else if w = ['.'] then ofParts (w :: withoutIdleEnd ws)
    else ofParts (withoutIdleEnd (w :: ws))

/-- What follows the first `n` counting parts. -/
def dropCounting : Nat → List Part → List Part
  | 0, ws => ws
  | _ + 1, [] => []
  | n + 1, w :: ws => if w.counts then dropCounting n ws else dropCounting (n + 1) ws

/-- The path below `base`, if its components start with those of `base`.  What is left begins and
ends with a counting part; its text is kept in between. -/
def stripPrefix? (p base : Path) : Option Path :=
  let steps := base.components
  if steps.isPrefixOf p.components then
    if steps = [] then some (p.trimEndParts p.parts)
    else
      let counting := (base.parts.filter Part.counts).length
      let rest := (dropCounting counting p.parts).dropWhile (fun w => !w.counts)
      some (ofParts (withoutIdleEnd rest))
  else none

/-- The text of the path seen from `root`: below it what is left, elsewhere the whole path. -/
def relativeTo (p root : Path) : String := ((p.stripPrefix? root).getD p).text

/-- The parts before the last counting part, and that part. -/
def splitLast? (p : Path) : Option (List Part × Part) :=
  match p.parts.reverse.dropWhile (fun w => !w.counts) with
  | [] => none
  | w :: before => some (before.reverse, w)

/-- The path without its last step; none for the root and for the empty path. -/
def parent? (p : Path) : Option Path :=
  match p.splitLast? with
  | some (before, _) => some (p.trimEndParts before)
  | none => if p.components = [.current] then some ⟨""⟩ else none

/-! ### File names -/

/-- The last step, if it is a name. -/
def fileName? (p : Path) : Option Part :=
  match p.splitLast? with
  | some (_, w) => if w = ['.', '.'] then none else some w
  | none => none

/-- A file name cut at its last dot.  A name that has no dot, or has its only dot in front, is all
stem. -/
def splitName (name : Part) : Part × Option Part :=
  let ext := (name.reverse.takeWhile (· ≠ '.')).reverse
  let stem := name.take (name.length - ext.length - 1)
  if ext.length = name.length ∨ stem = [] then (name, none) else (stem, some ext)

def extension? (p : Path) : Option Part := p.fileName?.bind (fun w => (splitName w).2)

/-- The path with another extension; what follows the old file name is dropped. -/
def withExtension (p : Path) (ext : String) : Path :=
  match p.splitLast? with
  | some (before, w) =>
    if w = ['.', '.'] then p
    else ofParts (before ++ [(splitName w).1 ++ '.' :: ext.toList])
  | none => p

end Path

end SymbolNav
