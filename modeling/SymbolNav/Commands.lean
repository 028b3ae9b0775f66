/-
  SymbolNav/Commands.lean
  =======================
  **The program**: from the words of a command line to what is printed and to
  the status with which it ends.

  A command gets its settings and its project root first.  What it has to say
  goes to the output when it ends well; notices on the way, and the error if it
  does not, go to the error stream.

  `Context.of` is `from_cli`, and the commands are `run_build`, `run_query`,
  `run_calls`, `run_watch`, `run_show` (`showConfig`) and `run_init`
  (`initConfig`); `Context.run` chooses among them as `run` does, and
  `logWarnings` are those of `init_tracing`.
-/
import SymbolNav.Build
import SymbolNav.CommandLine.Reader
import SymbolNav.ConfigFile
import SymbolNav.Forms
import SymbolNav.Json.Printer
import SymbolNav.Watch.Basic

namespace SymbolNav

open CommandLine

/-! ### What a command starts from -/

/-- Where the program is started. -/
structure Launch where
  host : Host
  /-- The settings file of the person. -/
  userConfig : Option Path
  /-- The settings file that the environment names. -/
  environment : Option String

/-- What all commands share. -/
structure Context where
  format : Format
  verbose : Bool
  /-- The project root, without detours. -/
  root : Path
  config : Config
  /-- The file of the settings, whether it is there or not. -/
  configPath : Option Path
deriving DecidableEq, Repr

/-- The settings and the root for an invocation, as `from_cli` finds them. -/
def Context.of (s : Launch) (i : Invocation) : Except Error Context := do
  let configPath := i.config.or s.userConfig
  let config ← match configPath with
    | some p => Config.load s.host.files p
    | none => .ok Config.standard
  let root := i.root.getD s.host.files.here.path
  match s.host.files.canonical? root with
  | some root => return { format := i.format, verbose := i.verbose, root, config, configPath }
  | none => throw (.fileNotFound root.text)

/-! ### The forms of what is printed -/

def Stats.toJson (s : Stats) : Json :=
  .obj [("hits", .ofNat s.hits), ("dropped_lines", .ofNat s.droppedLines),
    ("dropped_items", .ofNat s.droppedItems), ("discarded", .ofNat s.discarded)]

def Run.Settled.toJson (r : Run.Settled) : Json :=
  .obj [("kind", r.spec.kind.toJson), ("pattern", .str r.spec.pattern), ("stats", r.stats.toJson),
    ("items", .arr (r.sortedItems.map (·.toJson)))]

def Stats.text (s : Stats) : String :=
  toString s.hits ++ " hits, " ++ toString s.droppedLines ++ " malformed lines, " ++
    toString s.droppedItems ++ " unreadable"

/-- What a command has done. -/
structure Report where
  outcome : Outcome String
  /-- The lines on the error stream. -/
  notes : List String
  host : Host

namespace Context

/-! ### Build, query, calls -/

/-- Have the database built (`run_build`). -/
def build (c : Context) (host : Host) : Report :=
  let (result, notes, e) := (Engine.new host c.config).reportedBuild c.root
  let print (output : String) : String :=
    match c.format with
    | .json => Json.pretty (.obj [
        ("command", match e.lastBuild with | some s => .str s | none => .null),
        ("database", .str (c.config.databasePath c.root).text), ("output", .str output)])
    | .text =>
      (if c.verbose then "$ " ++ e.lastBuild.getD "" ++ "\n" else "") ++
        (if output = "" then "" else output ++ "\n")
  ⟨.ofExcept (result.map print), notes, e.host⟩

def printAnswer (c : Context) (tree : Bool) (r : Run.Settled) : String :=
  let items := r.sortedItems
  if tree then
    let t := ResultTree.ofItems r.title items c.root
    match c.format with
    | .json => t.toJson.pretty
    | .text => t.text
  else
    match c.format with
    | .json => r.toJson.pretty
    | .text => textOfItems items c.root

/-- Ask a question and print its results (`run_query`). -/
def query (c : Context) (host : Host) (spec : QuerySpec) (tree : Bool) : Report :=
  let (outcome, e) := (Engine.new host c.config).query spec c.root
  let notes := match outcome with
    | .value r => if c.verbose then [r.stats.text] else []
    | _ => []
  ⟨outcome.map (c.printAnswer tree), notes, e.host⟩

def printCalls (c : Context) (function : String) (incoming : Bool) (calls : List Call) : String :=
  match c.format with
  | .json => (Json.arr (calls.map (·.toJson))).pretty
  | .text =>
    "functions " ++ (if incoming then "calling" else "called by") ++ " " ++ function ++ ": " ++
      toString calls.length ++ "\n" ++ String.join (calls.map (·.textLine))

/-- Ask for the calls of a function, or to it, and print them (`run_calls`). -/
def calls (c : Context) (host : Host) (function : String) (incoming : Bool) : Report :=
  let kind : QueryKind := if incoming then .caller else .callee
  let (outcome, e) := (Engine.new host c.config).query ⟨kind, function⟩ c.root
  ⟨outcome.map (fun r => c.printCalls function incoming (r.sortedItems.map (·.call c.root))), [],
    e.host⟩

/-! ### Watch -/

/-- What is said when a watch has begun. -/
def watchNote (c : Context) (w : Watch) : String :=
  "Watching " ++ w.pattern ++ " under " ++ c.root.text ++ " (Ctrl-C to stop)"

/-- Have the database there, and watch until the person stops it (`run_watch`). -/
def watch (c : Context) (host : Host) : Report :=
  let (fresh, notes, e) := (Engine.new host c.config).ensureFresh c.root
  match fresh with
  | .error fault => ⟨.failed fault, notes, e.host⟩
  | .ok _ =>
    match Watch.start e.host.files c.config.extensions c.root with
    | .error fault => ⟨.failed fault, notes, e.host⟩
    | .ok w => ⟨.value "Stopped watching.\n", notes ++ [c.watchNote w], e.host⟩

/-! ### Settings -/

/-- Show the settings, and where they and the indexer come from (`run_show`). -/
def showConfig (c : Context) (host : Host) : Report :=
  match c.format with
  | .json => ⟨.value c.config.toJson.pretty, [], host⟩
  | .text =>
    match c.config.text with
    | .error e => ⟨.failed e, [], host⟩
    | .ok body =>
      let source := match c.configPath with
        | some p => if host.files.contains p then p.text else "defaults"
        | none => "defaults"
      let indexer := match host.locate? c.config.indexer with
        | some p => p.text
        | none => c.config.indexer ++ " (not found on PATH)"
      ⟨.value ("# source: " ++ source ++ "\n# indexer: " ++ indexer ++ "\n" ++ String.ofList body),
        [], host⟩

/-- Write the standard settings (`run_init`); a file that is there is kept unless `force` is
set. -/
def initConfig (c : Context) (host : Host) (force : Bool) : Report :=
  match c.configPath with
  | none => ⟨.failed (.config "no configuration directory; pass --config"), [], host⟩
  | some p =>
    if host.files.contains p && !force then
      ⟨.failed (.config (p.text ++ " already exists (use --force to overwrite)")), [], host⟩
    else
      match Config.standard.save host.files p with
      | (files, some e) => ⟨.failed e, [], { host with files }⟩
      | (files, none) => ⟨.value ("Wrote " ++ p.text ++ "\n"), [], { host with files }⟩

def run (c : Context) (host : Host) : Command → Report
  | .build => c.build host
  | .query kind pattern tree => c.query host ⟨kind, pattern⟩ tree
  | .calls function incoming => c.calls host function incoming
  | .watch => c.watch host
  | .showConfig => c.showConfig host
  | .initConfig force => c.initConfig host force

end Context

/-! ### The whole program -/

/-- Whether a level of logging is known: by name in any case, by number, or left open. -/
def isLogLevel (s : String) : Bool :=
  let s := s.toList
  s = [] || (match numeral? s with
    | some n => n ≤ 5
    | none => ["off", "error", "warn", "info", "debug", "trace"].contains
        (String.ofList (s.map Char.toLower)))

/-- The warnings about the settings for logging; a verbose program does not look at them. -/
def logWarnings (c : Context) : List String :=
  if c.verbose || isLogLevel c.config.logLevel then []
  else ["Warning: invalid log_level " ++ Text.quote c.config.logLevel]

structure Ending where
  status : Nat
  stdout : String
  stderr : String
  host : Host

def textOfLines (lines : List String) : String := String.join (lines.map (· ++ "\n"))

/-- The end of a program whose command line is turned away. -/
def Ending.ofRejection (host : Host) (r : Rejection) : Ending :=
  match r with
  | .version text => ⟨r.exitStatus, text, "", host⟩
  | .help => ⟨r.exitStatus, "usage: cscope-nav [OPTIONS] <COMMAND>\n", "", host⟩
  | _ => ⟨r.exitStatus, "", "usage error", host⟩

def Ending.ofError (host : Host) (notes : List String) (e : Error) : Ending :=
  ⟨e.exitStatus, "", textOfLines (notes ++ ["Error: " ++ e.message]), host⟩

/-- The end of a program that has carried out its command, after some warnings. -/
def Ending.ofReport (warnings : List String) (r : Report) : Ending :=
  match r.outcome with
  | .value output => ⟨0, output, textOfLines (warnings ++ r.notes), r.host⟩
  | .failed e => .ofError r.host (warnings ++ r.notes) e
  | .crashed => ⟨101, "", textOfLines (warnings ++ r.notes), r.host⟩

/-- Run the program; `logs` says whether the settings for logging count. -/
def runProgram (s : Launch) (logs : Bool) (words : List String) : Ending :=
  match CommandLine.read s.environment words with
  | .error r => .ofRejection s.host r
  | .ok i =>
    match Context.of s i with
    | .error e => .ofError s.host [] e
    | .ok c => .ofReport (if logs then logWarnings c else []) (c.run s.host i.command)

end SymbolNav
