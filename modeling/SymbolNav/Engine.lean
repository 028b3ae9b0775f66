/-
  SymbolNav/Engine.lean
  =====================
  **The engine**: it asks the indexer, one run for every question, and has it
  build the database.

  Runs are numbered as they start.  Starting a run ends no other; a run is
  superseded when a newer one has started, and the settings say whether it then
  drops what comes late.  A question that cannot be asked takes no number.

  An `Engine` is a `QueryEngine` and the machine it works on.  `spawn` is
  `spawn_run`, `start` and `startComplete` are `start` and the beginning of
  `query_complete`, and `await` is `settle`; `latest` is `current_generation`.
-/
import SymbolNav.Host
import SymbolNav.Run.Schedule

namespace SymbolNav

structure Engine where
  host : Host
  config : Config
  /-- The number of the latest run. -/
  latest : Nat
  runs : List Run
  /-- The command line of the latest build. -/
  lastBuild : Option String
  /-- The command line of the latest question, asked or not. -/
  lastQuery : Option String

namespace Engine

def new (host : Host) (config : Config) : Engine :=
  { host, config, latest := 0, runs := [], lastBuild := none, lastQuery := none }

/-- What the steps of runs depend on. -/
def surroundings (e : Engine) : Surroundings := ⟨e.host.reader, e.latest⟩

def run? (e : Engine) (generation : Nat) : Option Run :=
  e.runs.find? (fun r => r.generation = generation)

/-- The engine with other settings; runs on their way keep theirs. -/
def setConfig (e : Engine) (config : Config) : Engine := { e with config }

/-! ### Asking -/

/-- The greatest number of permits that a semaphore can hold. -/
def permitBound : Nat := Nat.pow 2 61 - 1

/-- Ask a question, as `spawn_run` does; `discards` says whether late results are dropped.  The
settings may ask for more permits than there can be, and that is noticed when the indexer has been
started already. -/
def spawn (e : Engine) (spec : QuerySpec) (cwd : Path) (discards : Bool) :
    Outcome Run × Engine :=
  let args := e.config.argsFor spec
  let command := commandLine e.config.indexer args
  let e := { e with lastQuery := some command }
  match e.host.launch e.config.indexer args cwd with
  | .error fault => (.failed fault, e)
  | .ok (response, host) =>
    let e := { e with host, latest := e.latest + 1 }
    if permitBound < e.config.readLimit then (.crashed, e)
    else
      let run := Run.opened spec cwd command e.latest discards e.config.readLimit response.lines
        response.failure?
      (.value run, { e with runs := e.runs ++ [run] })

/-- Ask a question; the settings say whether late results are dropped. -/
def start (e : Engine) (spec : QuerySpec) (cwd : Path) : Outcome Run × Engine :=
  e.spawn spec cwd e.config.discardSuperseded

/-- Ask a question all of whose results are wanted, as `query_complete` begins. -/
def startComplete (e : Engine) (spec : QuerySpec) (cwd : Path) : Outcome Run × Engine :=
  e.spawn spec cwd false

/-! ### Waiting -/

def updateRun (e : Engine) (generation : Nat) (f : Run → Run) : Engine :=
  { e with runs := e.runs.map (fun r => if r.generation = generation then f r else r) }

def step? (e : Engine) (generation : Nat) (step : Run.Step) : Option Engine :=
  match e.run? generation with
  | none => none
  | some r => (r.step? e.surroundings step).map (fun r => e.updateRun generation (fun _ => r))

/-- Bring a run to its end. -/
def settle (e : Engine) (generation : Nat) : Engine :=
  e.updateRun generation (·.settle e.surroundings)

/-- What a run has come to, once it has settled. -/
def result? (e : Engine) (generation : Nat) : Option (Except Error Run.Settled) :=
  (e.run? generation).bind (·.result? e.latest)

/-- What a run comes to when it is brought to its end. -/
def await (e : Engine) (generation : Nat) : Outcome Run.Settled × Engine :=
  let e := e.settle generation
  (match e.result? generation with
    | some result => .ofExcept result
    | none => .crashed, e)

/-- What a question that has been asked comes to. -/
def awaitStarted : Outcome Run × Engine → Outcome Run.Settled × Engine
  | (.value run, e) => e.await run.generation
  | (.failed fault, e) => (.failed fault, e)
  | (.crashed, e) => (.crashed, e)

def query (e : Engine) (spec : QuerySpec) (cwd : Path) : Outcome Run.Settled × Engine :=
  awaitStarted (e.start spec cwd)

def queryComplete (e : Engine) (spec : QuerySpec) (cwd : Path) : Outcome Run.Settled × Engine :=
  awaitStarted (e.startComplete spec cwd)

/-! ### Building -/

/-- Have the database built: what the indexer leaves behind. -/
def startBuild (e : Engine) (cwd : Path) : Except Error Response × Engine :=
  let args := e.config.buildArgv
  let e := { e with lastBuild := some (commandLine e.config.indexer args) }
  match e.host.launch e.config.indexer args cwd with
  | .error fault => (.error fault, e)
  | .ok (response, host) => (.ok response, { e with host })

/-- Have the database built: the indexer's output. -/
def build (e : Engine) (cwd : Path) : Except Error String × Engine :=
  let (started, e) := e.startBuild cwd
  (started.bind (·.output), e)

end Engine

end SymbolNav
