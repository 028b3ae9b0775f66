/-
  SymbolNav/Engine/Course.lean
  ============================
  **Everything that can happen to an engine**, in any order.  Questions are
  asked, builds begun, settings replaced, the runs on their way take their steps,
  and the machine under the engine changes; an `Action` is what happens between
  two points where something waits.

  Waiting for a run is no action: it changes nothing, and what the run has come
  to can be seen from its end on (`Engine.result?`).

  The actions are the calls to a `QueryEngine` up to their first await, and the
  turns of the `drive` of each of its runs.
-/
import SymbolNav.Engine

namespace SymbolNav

namespace Engine

inductive Action
  /-- A question is asked; the settings say whether late results are dropped. -/
  | start (spec : QuerySpec) (cwd : Path)
  /-- A question is asked all of whose results are wanted. -/
  | startComplete (spec : QuerySpec) (cwd : Path)
  | startBuild (cwd : Path)
  | setConfig (config : Config)
  | step (generation : Nat) (step : Run.Step)
  /-- The machine changes: its files, its commands or the source lines. -/
  | changeHost (host : Host)

def act? (e : Engine) : Action → Option Engine
  | .start spec cwd => some (e.start spec cwd).2
  | .startComplete spec cwd => some (e.startComplete spec cwd).2
  | .startBuild cwd => some (e.startBuild cwd).2
  | .setConfig config => some (e.setConfig config)
  | .step generation step => e.step? generation step
  | .changeHost host => some { e with host }

/-- The engine after actions that all can happen. -/
def play? (e : Engine) : List Action → Option Engine
  | [] => some e
  | a :: actions => (e.act? a).bind (·.play? actions)

/-- The run that an action starts, as it is at its start. -/
def started? (e : Engine) : Action → Option Run
  | .start spec cwd => (e.start spec cwd).1.value?
  | .startComplete spec cwd => (e.startComplete spec cwd).1.value?
  | _ => none

/-- The start of a run among the things that happen. -/
structure Start where
  before : Engine
  action : Action
  run : Run
  /-- The engine right after the start. -/
  after : Engine
  /-- What happens from then on. -/
  later : List Action

/-- The runs that are started while things happen, in the order of their starts. -/
def starts (e : Engine) : List Action → List Start
  | [] => []
  | a :: actions =>
    match e.act? a with
    | none => []
    | some e' =>
      ((e.started? a).map (fun run => ⟨e, a, run, e', actions⟩)).toList ++ e'.starts actions

/-- Source lines come from this reader as long as these things happen. -/
def ReadsFrom (e : Engine) (reader : SourceReader) : List Action → Prop
  | [] => e.host.reader = reader
  | a :: actions => e.host.reader = reader ∧ ∀ e', e.act? a = some e' → e'.ReadsFrom reader actions

/-- The step that an action is of the run with this number. -/
def Action.stepOf? (generation : Nat) : Action → Option Run.Step
  | .step g happens => if g = generation then some happens else none
  | _ => none

/-- The path of a run through what happens: its steps, with what each of them depended on. -/
def pathOf (generation : Nat) (e : Engine) : List Action → List (Surroundings × Run.Step)
  | [] => []
  | a :: actions =>
    match e.act? a with
    | none => []
    | some e' =>
      ((a.stepOf? generation).map (fun step => (e.surroundings, step))).toList ++
        e'.pathOf generation actions

end Engine

end SymbolNav
