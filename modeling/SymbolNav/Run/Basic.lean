/-
  SymbolNav/Run/Basic.lean
  ========================
  **Runs**: questions on their way.  A run reads the lines of the indexer's
  output, and each hit becomes a task of its own that reads the source line and
  makes an item of it.  The tasks share a number of permits; they get them, and
  come to their end, in any order.

  A run goes from reading the output (`running`) to waiting for its tasks
  (`draining`) to its end (`settled`).  If the output breaks off or the process
  fails, the tasks are ended where they are (`aborting`), and the run settles
  with the error.

  Everything that can happen is a `Step`; `Run.step?` says what it does, or that
  it cannot happen now.  One step is what happens between two points where the
  run or a task waits.  Besides the run, a step depends on the source lines and
  on the number of the latest run: a run that drops late results checks that
  number when a task gets its permit and again when the task has its item.

  This is the engine's `drive` with the tasks that it spawns, cut at their
  awaits.  `readLine` and `breakOff` are the two results of `next_line`, and
  `endOutput` is its end together with `finish`; `permit` and `resolve` are what
  a task does after it has acquired a permit and after `resolve` has returned;
  `join` is a turn of `join_next`, and `abort` is `shutdown`.  `Stats` is
  `RunStats`, `Run` a `QueryRun` and `Run.Settled` a `SettledRun`.
-/
import SymbolNav.Resolve

namespace SymbolNav

/-! ### Tasks -/

inductive Stage
  /-- It waits for a permit. -/
  | queued
  /-- It holds a permit, and its source line is being read. -/
  | reading
  /-- It has ended, and what became of its hit has been counted. -/
  | ended
  /-- It has ended abnormally, which has not been noticed yet. -/
  | crashed
deriving DecidableEq, Repr, Inhabited

/-- A hit that is to become an item. -/
structure Task where
  hit : Hit
  stage : Stage
deriving DecidableEq, Repr, Inhabited

/-! ### Runs -/

/-- What has become of the lines of a run. -/
structure Stats where
  /-- Lines that are hits. -/
  hits : Nat
  /-- Lines that are none. -/
  droppedLines : Nat
  /-- Hits whose source line could not be read. -/
  droppedItems : Nat
  /-- Hits that were dropped because a newer run had started. -/
  discarded : Nat
deriving DecidableEq, Repr, Inhabited

inductive Phase
  | running
  | draining
  | aborting (e : Error)
  | settled (failure : Option Error)
deriving DecidableEq, Repr, Inhabited

/-- What can be seen of where a run is. -/
inductive RunState
  | running
  | draining
  | settled
deriving DecidableEq, Repr, Inhabited

/-- What can be seen of a phase. -/
def Phase.state : Phase → RunState
  | .running | .aborting _ => .running
  | .draining => .draining
  | .settled _ => .settled

/-- A question on its way. -/
structure Run where
  spec : QuerySpec
  /-- The directory in which the indexer was started. -/
  cwd : Path
  commandLine : String
  /-- The number of the run among the runs of its engine. -/
  generation : Nat
  /-- Whether results are dropped once a newer run has started. -/
  discards : Bool
  limit : Nat
  /-- Whether permits are refused from now on. -/
  closed : Bool
  unread : List String
  /-- The error that the end of the process is, if it is one. -/
  ending : Option Error
  phase : Phase
  /-- The tasks that have not been accounted for, the latest first. -/
  tasks : List Task
  /-- The items so far, the latest first. -/
  items : List Item
  stats : Stats
deriving DecidableEq, Repr, Inhabited

/-- What a step depends on besides the run. -/
structure Surroundings where
  reader : SourceReader
  /-- The number of the latest run. -/
  latest : Nat

namespace Run

def opened (spec : QuerySpec) (cwd : Path) (commandLine : String) (generation : Nat)
    (discards : Bool) (limit : Nat) (lines : List String) (ending : Option Error) : Run :=
  { spec, cwd, commandLine, generation, discards, limit, closed := false, unread := lines,
    ending, phase := .running, tasks := [], items := [], stats := ⟨0, 0, 0, 0⟩ }

def state (r : Run) : RunState := r.phase.state

/-- Whether a newer run has started: `is_superseded`. -/
def supersededAt (r : Run) (latest : Nat) : Bool := latest ≠ r.generation

/-- Whether a result that comes now is dropped. -/
def dropsAt (r : Run) (latest : Nat) : Bool := r.discards && r.supersededAt latest

def holders (r : Run) : Nat := r.tasks.countP (·.stage = .reading)

def resolution (r : Run) (reader : SourceReader) (hit : Hit) : Outcome Item :=
  r.spec.resolve reader r.cwd hit

/-! ### Steps -/

inductive Step
  | readLine
  /-- The output cannot be read any further. -/
  | breakOff (message : String)
  /-- The output has been read, and the process has ended. -/
  | endOutput
  /-- A task gets a permit, or is refused one and ends without a trace. -/
  | permit (task : Nat)
  /-- A task that holds a permit has its source line, and gives the permit back. -/
  | resolve (task : Nat)
  /-- The end of a task is noticed. -/
  | join (task : Nat)
  | abort (task : Nat)
  | close
deriving DecidableEq, Repr

def discardOne (r : Run) : Run :=
  { r with stats := { r.stats with discarded := r.stats.discarded + 1 } }

def dropOne (r : Run) : Run :=
  { r with stats := { r.stats with droppedItems := r.stats.droppedItems + 1 } }

def setStage (r : Run) (i : Nat) (stage : Stage) : Run :=
  { r with tasks := r.tasks.modify i (fun t => { t with stage }) }

def forget (r : Run) (i : Nat) : Run := { r with tasks := r.tasks.eraseIdx i }

/-- A line of the output: a hit becomes a task, which `drive` spawns. -/
def takeLine (r : Run) (line : String) : Run :=
  match Hit.parse line with
  | .ok hit =>
    { r with
      tasks := ⟨hit, .queued⟩ :: r.tasks, stats := { r.stats with hits := r.stats.hits + 1 } }
  | .error _ => { r with stats := { r.stats with droppedLines := r.stats.droppedLines + 1 } }

/-- The run after a step, if it can happen now: one turn of `drive` or of a task. -/
def step? (s : Surroundings) (r : Run) : Step → Option Run
  | .readLine =>
    match r.phase, r.unread with
    | .running, line :: rest => some ({ r with unread := rest }.takeLine line)
    | _, _ => none
  | .breakOff message =>
    match r.phase with
    | .running => some { r with phase := .aborting (.io message) }
    | _ => none
  | .endOutput =>
    match r.phase, r.unread with
    | .running, [] =>
      match r.ending with
      | none => some { r with phase := .draining }
      | some e => some { r with phase := .aborting e }
    | _, _ => none
  | .permit i =>
    match r.tasks[i]? with
    | some ⟨_, .queued⟩ =>
      if r.closed then some (r.setStage i .ended)
      else if r.holders < r.limit then
        if r.dropsAt s.latest then some (r.discardOne.setStage i .ended)
        else some (r.setStage i .reading)
      else none
    | _ => none
  | .resolve i =>
    match r.tasks[i]? with
    | some ⟨hit, .reading⟩ =>
      match r.resolution s.reader hit with
      | .value item =>
        if r.dropsAt s.latest then some (r.discardOne.setStage i .ended)
        else some ({ r with items := item :: r.items }.setStage i .ended)
      | .failed _ => some (r.dropOne.setStage i .ended)
      | .crashed => some (r.setStage i .crashed)
    | _ => none
  | .join i =>
    match r.phase, r.tasks[i]? with
    | .draining, some ⟨_, .ended⟩ => some (r.forget i)
    | .draining, some ⟨_, .crashed⟩ => some (r.dropOne.forget i)
    | _, _ => none
  | .abort i =>
    match r.phase, r.tasks[i]? with
    | .aborting _, some _ => some (r.forget i)
    | _, _ => none
  | .close =>
    match r.phase, r.tasks with
    | .draining, [] => some { r with phase := .settled none }
    | .aborting e, [] => some { r with phase := .settled (some e) }
    | _, _ => none

/-! ### The end -/

/-- A run that has come to a good end, a `SettledRun`. -/
structure Settled where
  spec : QuerySpec
  cwd : Path
  /-- The items in the order in which they came. -/
  items : List Item
  stats : Stats
  /-- Whether a newer run had started when this one settled. -/
  superseded : Bool
deriving DecidableEq, Repr, Inhabited

def Settled.sortedItems (s : Settled) : List Item := Item.sort s.items

def Settled.title (s : Settled) : String := s.spec.title

/-- What a run has come to, once it has settled: what `settle` returns then. -/
def result? (r : Run) (latest : Nat) : Option (Except Error Settled) :=
  match r.phase with
  | .settled (some e) => some (.error e)
  | .settled none => some (.ok
      { spec := r.spec, cwd := r.cwd, items := r.items.reverse, stats := r.stats,
        superseded := r.supersededAt latest })
  | _ => none

end Run

end SymbolNav
