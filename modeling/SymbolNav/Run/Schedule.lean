/-
  SymbolNav/Run/Schedule.lean
  ===========================
  **Ways to the end of a run.**  Any order of steps is a schedule, and what a
  step depends on may be something else each time (`Run.follow?`).

  One schedule reads the output first and then brings the tasks to their ends
  one by one (`Run.settle`).  There, steps that cannot happen are passed over.

  The schedules stand for the runtime, which picks the next turn of `drive` and
  of its tasks.
-/
import SymbolNav.Run.Basic

namespace SymbolNav.Run

/-- The run after steps that all can happen, each with what it depends on. -/
def follow? (r : Run) : List (Surroundings × Step) → Option Run
  | [] => some r
  | (s, step) :: path => (r.step? s step).bind (·.follow? path)

/-- The run after steps, of which those that cannot happen are passed over. -/
def after (s : Surroundings) (r : Run) (steps : List Step) : Run :=
  steps.foldl (fun r step => (r.step? s step).getD r) r

/-- Reading what is left of the output. -/
def reading (r : Run) : List Step := List.replicate r.unread.length .readLine ++ [.endOutput]

/-- Bringing the tasks to their ends, the earliest first. -/
def completing (r : Run) : List Step :=
  match r.phase with
  | .aborting _ => List.replicate r.tasks.length (.abort 0) ++ [.close]
  | _ =>
    (List.range r.tasks.length).reverse.flatMap (fun i => [.permit i, .resolve i, .join i]) ++
      [.close]

/-- The run at its end. -/
def settle (s : Surroundings) (r : Run) : Run :=
  let r := r.after s r.reading
  r.after s r.completing

end SymbolNav.Run
