/-
  SymbolNav/Session/Course.lean
  =============================
  **Any number of operations at the same time** on one session, in any order.

  Each of them is cut where it waits, and between two of its parts anything else
  may happen: other operations begin or go on, runs take their steps, and the
  engine is used by others.  An operation that asks an interactive question
  remembers the question and the ticket that it took for it.

  The results of a session are replaced by storing others (`Ongoing.store?`).
  Nothing else touches them.

  Each operation is a call of a method of the `Navigator`; the ticket is the one
  that `run_query` takes, and storing is what it does to the last results.
-/
import SymbolNav.Engine.Course
import SymbolNav.Session.Basic

namespace SymbolNav

/-- An interactive question that has been asked. -/
structure Asked where
  ticket : Nat
  spec : QuerySpec
deriving DecidableEq, Repr

structure Operation where
  request : Request
  /-- The interactive question that it has asked. -/
  asked : Option Asked
  /-- What it has shown so far. -/
  effects : List Effect
  progress : Progress
deriving Repr

/-- A session and the operations that have been begun on it. -/
structure Ongoing where
  session : Session
  operations : List Operation

/-- What can happen to a session. -/
inductive Happening
  | begin (view : EditorView) (request : Request)
  | resume (operation : Nat) (view : EditorView) (reply : Reply)
  /-- Something happens to the engine. -/
  | engine (action : Engine.Action)

/-! ### Interactive questions -/

/-- The interactive question that a request asks at once. -/
def Request.asks? (view : EditorView) : Request → Option QuerySpec
  | .query kind => view.currentWord.map (fun word => ⟨kind, word⟩)
  | .run spec => some spec
  | _ => none

/-- The interactive question that an operation asks when it has got its reply. -/
def Waiting.asks? : Waiting → Reply → Option QuerySpec
  | .prompt kind, .prompted (some pattern) => if pattern = "" then none else some ⟨kind, pattern⟩
  | _, _ => none

/-- The operation after one more of its parts. -/
def Operation.go (op : Operation) (asks : Option QuerySpec) (m : Move) : Operation :=
  { op with
    asked := (asks.map (fun spec => ⟨m.session.tickets, spec⟩)).or op.asked
    effects := op.effects ++ m.effects
    progress := m.progress }

/-! ### Storing -/

structure Store where
  ticket : Nat
  generation : Nat
  result : Run.Settled

/-- What an operation stores when it has got its reply: the result of the run that it has waited
for, if the run has settled well and no later ticket has been taken. -/
def Session.store? (s : Session) : Waiting → Reply → Option Store
  | .run ticket generation, .settled =>
    match s.engine.result? generation with
    | some (.ok result) => if s.tickets = ticket then some ⟨ticket, generation, result⟩ else none
    | _ => none
  | _, _ => none

namespace Ongoing

/-- A session on which nothing has been begun. -/
def new (root : Path) (engine : Engine) : Ongoing := ⟨.new root engine, []⟩

def act? (o : Ongoing) : Happening → Option Ongoing
  | .begin view request =>
    let m := o.session.begin view request
    let op : Operation := ⟨request, none, [], .returned .done⟩
    some ⟨m.session, o.operations ++ [op.go (request.asks? view) m]⟩
  | .resume i view reply =>
    match o.operations[i]? with
    | none => none
    | some op =>
      match op.progress with
      | .returned _ => none
      | .waits reason =>
        (o.session.resume? view reason reply).map fun m =>
          ⟨m.session, o.operations.set i (op.go (reason.asks? reply) m)⟩
  | .engine a =>
    (o.session.engine.act? a).map fun engine =>
      { o with session := { o.session with engine } }

/-- The session after things that all can happen. -/
def play? (o : Ongoing) : List Happening → Option Ongoing
  | [] => some o
  | h :: happenings => (o.act? h).bind (·.play? happenings)

/-- What is stored when this happens. -/
def store? (o : Ongoing) : Happening → Option Store
  | .resume i _ reply =>
    match o.operations[i]?.map Operation.progress with
    | some (.waits reason) => o.session.store? reason reply
    | _ => none
  | _ => none

/-- All that is stored while things happen, in order. -/
def stores (o : Ongoing) : List Happening → List Store
  | [] => []
  | h :: happenings =>
    match o.act? h with
    | none => []
    | some o' => (o.store? h).toList ++ o'.stores happenings

end Ongoing

end SymbolNav
