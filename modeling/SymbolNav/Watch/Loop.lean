/-
  SymbolNav/Watch/Loop.lean
  =========================
  **The loop that watches.**  Reports and faults are delivered into a queue.
  The loop looks whether it is to go on, and only then takes one delivery; it
  acts on that and looks again.  If there is none for a while, it looks again as
  well, and if there can be none any more, it is over.

  A stop may come at any time and is seen at the next look.

  This is the thread that `watch` starts, with its flag and its channel: `take`
  is `recv_timeout`, and `stop` is the `stop` of the `WatchHandle`.
-/
import SymbolNav.Watch.Basic

namespace SymbolNav.Watch

inductive Delivery
  | event (e : Event)
  | fault (message : String)
deriving DecidableEq, Repr

/-- Where the loop is. -/
inductive Turn
  /-- It is about to look whether to go on. -/
  | looking
  /-- It is about to take a delivery. -/
  | taking
  /-- It has taken a delivery and is about to act on it. -/
  | acting (d : Delivery)
  | ended
deriving DecidableEq, Repr

/-- The delivery that has been taken and not been acted on. -/
def Turn.inHand : Turn → List Delivery
  | .acting d => [d]
  | _ => []

/-- The loop, and what it has done. -/
structure Loop where
  watch : Watch
  running : Bool
  /-- Whether there is anyone left who delivers. -/
  connected : Bool
  turn : Turn
  queue : List Delivery
  /-- The deliveries taken so far. -/
  taken : List Delivery
  /-- The paths for which something was done. -/
  reported : List Path
deriving DecidableEq, Repr

namespace Loop

/-- The loop at its start. -/
def new (w : Watch) : Loop := ⟨w, true, true, .looking, [], [], []⟩

inductive Step
  | deliver (d : Delivery)
  /-- Nothing will be delivered any more. -/
  | hangUp
  | stop
  /-- The loop looks whether it is to go on. -/
  | look
  /-- The loop takes a delivery, or finds that there is none. -/
  | take
  /-- The loop acts on the delivery that it has taken. -/
  | act
deriving DecidableEq, Repr

/-- Whether the step is one of the loop itself. -/
def Step.isOwn : Step → Bool
  | .look | .take | .act => true
  | .deliver _ | .hangUp | .stop => false

/-- The path for which something is done on a delivery. -/
def reportOf (w : Watch) : Delivery → Option Path
  | .event e => w.reaction? e
  | .fault _ => none

/-- The loop after a step, if it can happen now: one turn of the thread that `watch` starts. -/
def step? (l : Loop) : Step → Option Loop
  | .deliver d => if l.connected then some { l with queue := l.queue ++ [d] } else none
  | .hangUp => some { l with connected := false }
  | .stop => some { l with running := false }
  | .look =>
    match l.turn with
    | .looking => some { l with turn := if l.running then .taking else .ended }
    | _ => none
  | .take =>
    match l.turn, l.queue with
    | .taking, d :: rest =>
      some { l with turn := .acting d, queue := rest, taken := l.taken ++ [d] }
    | .taking, [] => some { l with turn := if l.connected then .looking else .ended }
    | _, _ => none
  | .act =>
    match l.turn with
    | .acting d =>
      some { l with turn := .looking, reported := l.reported ++ (reportOf l.watch d).toList }
    | _ => none

/-- The loop after steps that all can happen. -/
def play? (l : Loop) : List Step → Option Loop
  | [] => some l
  | s :: steps => (l.step? s).bind (·.play? steps)

/-- What is delivered in some steps, in order. -/
def delivered (steps : List Step) : List Delivery :=
  steps.filterMap fun
    | .deliver d => some d
    | _ => none

end Loop

end SymbolNav.Watch
