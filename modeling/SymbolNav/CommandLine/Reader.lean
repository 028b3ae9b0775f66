/-
  SymbolNav/CommandLine/Reader.lean
  =================================
  **Reading a command line**, word by word.

  What a word completes is looked at late: an option waits for its value, and a
  value or an argument waits until the next option or argument comes, or the
  words end.  Only then is it checked, so that of two faults the one that is
  settled first is reported.  A level is finished after the levels below it.

  Where an option is said at several levels, the innermost counts.  The
  settings file may also come from the environment, which counts only where no
  level says one.

  This is what `parse` does with the declarations of `Cli`.
-/
import SymbolNav.CommandLine.Basic

namespace SymbolNav.CommandLine

/-- What has been said and not been looked at. -/
inductive Pending
  /-- An option, which may lack its value. -/
  | setting (o : Setting) (value : Option String)
  /-- An argument that is known by its place. -/
  | argument (value : String)
deriving DecidableEq, Repr

structure Reading where
  level : Level
  pending : Option Pending
  settings : List (Setting × String)
  switches : List Switch
  arguments : List String
  /-- Whether everything else is an argument. -/
  plain : Bool
  /-- The settings file that the environment names, if no option does. -/
  environment : Option String
deriving DecidableEq, Repr, Inhabited

namespace Reading

def start (level : Level) : Reading := ⟨level, none, [], [], [], false, none⟩

/-- Whether an option lacks its value. -/
def awaits (r : Reading) : Bool :=
  match r.pending with
  | some (.setting _ none) => true
  | _ => false

/-! ### Looking at what has been said -/

def accept (r : Reading) (o : Setting) (value : String) : Except Rejection Reading :=
  if r.settings.any (fun s => s.1 = o) then .error .argumentConflict
  else if o.allows value then .ok { r with settings := r.settings ++ [(o, value)] }
  else .error .invalidValue

/-- Take an argument; the first one of a question is its kind. -/
def acceptArgument (r : Reading) (value : String) : Except Rejection Reading :=
  if r.level = .query ∧ r.arguments = [] ∧ (QueryKind.ofName? value).isNone then
    .error .invalidValue
  else .ok { r with arguments := r.arguments ++ [value] }

def resolve (r : Reading) : Except Rejection Reading :=
  let clear := { r with pending := none }
  match r.pending with
  | none => .ok r
  | some (.setting _ none) => .error .invalidValue
  | some (.setting o (some value)) => clear.accept o value
  | some (.argument value) => clear.acceptArgument value

/-! ### Saying something -/

/-- An option without a value. -/
def switch (r : Reading) (s : Switch) : Except Rejection Reading := do
  let r ← r.resolve
  match s with
  | .help => .error .help
  | .version => .error (.version r.level.versionText)
  | s =>
    if r.switches.contains s then .error .argumentConflict
    else .ok { r with switches := r.switches ++ [s] }

/-- An option with its value attached. -/
def attach (r : Reading) (o : Setting) (value : String) : Except Rejection Reading := do
  (← r.resolve).accept o value

/-- An option whose value follows. -/
def expect (r : Reading) (o : Setting) : Except Rejection Reading := do
  return { ← r.resolve with pending := some (.setting o none) }

/-- The value that the option before lacks. -/
def supply (r : Reading) (value : String) : Reading :=
  match r.pending with
  | some (.setting o _) => { r with pending := some (.setting o (some value)) }
  | _ => r

/-- Options by their letters, behind one dash. -/
def letters (r : Reading) : List Char → Except Rejection Reading
  | [] => .ok r
  | c :: cs =>
    match Switch.ofLetter? c with
    | some s => do (← r.switch s).letters cs
    | none =>
      match Setting.ofLetter? c with
      | none => .error .unknownArgument
      | some o =>
        match cs with
        | [] => r.expect o
        | '=' :: value => r.attach o (String.ofList value)
        | value => r.attach o (String.ofList value)

/-- An option by its name, behind two dashes. -/
def named (r : Reading) (s : List Char) : Except Rejection Reading :=
  let name := s.takeWhile (· ≠ '=')
  let value := (s.dropWhile (· ≠ '=')).tail?.map String.ofList
  match Level.setting? name with
  | some o =>
    match value with
    | some v => r.attach o v
    | none => r.expect o
  | none =>
    match r.level.switch? name with
    | some s => if value.isSome then .error .tooManyValues else r.switch s
    | none => .error .unknownArgument

/-- An argument that is known by its place, if there is a place for it. -/
def argument (r : Reading) (value : String) : Except Rejection Reading :=
  let placed := r.arguments.length + (match r.pending with
    | some (.argument _) => 1
    | _ => 0)
  if placed < r.level.arity then do
    return { ← r.resolve with pending := some (.argument value) }
  else if r.level.hasBelow && !(r.plain && ((r.level.below? value).isSome || value = "help")) then
    .error .invalidSubcommand
  else .error .unknownArgument

/-- A word that names no level below. -/
def word (r : Reading) (w : String) : Except Rejection Reading :=
  if r.plain then r.argument w
  else
    match w.toList with
    | ['-', '-'] => .ok { r with plain := true }
    | '-' :: '-' :: s => r.named s
    | ['-'] => if r.awaits then .ok (r.supply w) else r.argument w
    | '-' :: cs => r.letters cs
    | _ => if r.awaits then .ok (r.supply w) else r.argument w

/-! ### The end of a level -/

/-- The settings file that the environment names, where no option names one. -/
def fillIn (environment : Option String) (r : Reading) : Except Rejection Reading :=
  match environment with
  | none => .ok r
  | some value =>
    if r.settings.any (fun s => s.1 = .config) then .ok r
    else if Setting.allows .config value then .ok { r with environment := some value }
    else .error .invalidValue

def isEmpty (r : Reading) : Bool :=
  r.settings.isEmpty && r.switches.isEmpty && r.arguments.isEmpty && r.environment.isNone

/-- Everything that has to be said has been said. -/
def check (wentBelow : Bool) (r : Reading) : Except Rejection Reading :=
  if r.level.hasBelow && !wentBelow then
    .error (if r.isEmpty then .helpForNothing else .missingSubcommand)
  else if r.arguments.length < r.level.arity then .error .missingArgument
  else .ok r

/-- The level is finished. -/
def finish (environment : Option String) (wentBelow : Bool) (r : Reading) :
    Except Rejection Reading := do
  (← (← r.resolve).fillIn environment).check wentBelow

end Reading

def helpAbout (l : Level) : List String → Rejection
  | [] => .help
  | w :: ws =>
    match l.below? w with
    | some l => helpAbout l ws
    | none => if w = "help" ∧ l.hasBelow ∧ ws = [] then .help else .invalidSubcommand

/-- Read words at a level: what has been read there and at the levels below, the innermost
last. -/
def readWords (environment : Option String) (r : Reading) :
    List String → Except Rejection (List Reading)
  | [] => do return [← r.finish environment false]
  | w :: ws =>
    if r.plain || r.awaits || !r.level.hasBelow then do
      readWords environment (← r.word w) ws
    else if w = "help" then .error (helpAbout r.level ws)
    else
      match r.level.below? w with
      | some l => do
        let inner ← readWords environment (.start l) ws
        return (← r.finish environment true) :: inner
      | none => do readWords environment (← r.word w) ws

/-! ### What a line means -/

/-- The last value of an option. -/
def lastSetting? (rs : List Reading) (o : Setting) : Option String :=
  ((rs.flatMap (·.settings)).reverse.find? (fun s => s.1 = o)).map (·.2)

def Reading.command? (r : Reading) : Option Command :=
  match r.level, r.arguments with
  | .build, _ => some .build
  | .query, [kind, pattern] =>
    (QueryKind.ofName? kind).map (.query · pattern (r.switches.contains .tree))
  | .calls, [function] => some (.calls function (r.switches.contains .incoming))
  | .watch, _ => some .watch
  | .configShow, _ => some .showConfig
  | .configInit, _ => some (.initConfig (r.switches.contains .force))
  | _, _ => none

/-- The invocation that the levels of a line make. -/
def invocation? (rs : List Reading) : Option Invocation := do
  let command ← (← rs.getLast?).command?
  return {
    command
    config := ((lastSetting? rs .config).or (rs.findSome? (·.environment))).map Path.mk
    root := (lastSetting? rs .root).map Path.mk
    format := ((lastSetting? rs .format).bind Format.ofName?).getD .text
    verbose := rs.any (·.switches.contains .verbose) }

/-- Read the words behind the name of the program. -/
def read (environment : Option String) (words : List String) : Except Rejection Invocation := do
  let rs ← readWords environment (.start .top) words
  match invocation? rs with
  | some i => .ok i
  | none => .error .missingArgument

end SymbolNav.CommandLine
