/-
  SymbolNav/Session/Sequence.lean
  ===============================
  **One operation after the other**: each is brought to its end before the next
  begins, with a person at the editor whose answers are known beforehand.  An
  operation waits at most four times, namely for a pattern, a run, a pick and
  the opening of a file.

  The `Desk` answers for the `Editor` and the `ResultPresenter` of a
  `Navigator`.
-/
import SymbolNav.Session.Basic

namespace SymbolNav

/-- The editor and the person in front of it. -/
structure Desk where
  view : EditorView
  /-- What the person types when asked for a pattern. -/
  prompt : Option String
  /-- What the person picks. -/
  pick : Presentation → Option Item
  /-- Why a file cannot be opened, if it cannot. -/
  openFailure : Position → Option Error

namespace Session

/-- The greatest number of times that an operation waits. -/
def waitBound : Nat := 4

/-- What comes to an operation that waits. -/
def replyTo (d : Desk) : Waiting → Reply
  | .prompt _ => .prompted d.prompt
  | .run .. | .lookup .. => .settled
  | .pick p => .picked (d.pick p)
  | .opening target => .opened (d.openFailure target)
  | .building .. => .built

/-- The session in which what an operation waits for has come about. -/
def bringAbout (s : Session) : Waiting → Session
  | .run _ generation | .lookup _ generation =>
    { s with engine := s.engine.settle generation }
  | _ => s

/-- Bring an operation to its end; `fuel` bounds the number of times that it waits. -/
def finish (d : Desk) : (fuel : Nat) → Move → Session × List Effect × Answer
  | fuel, ⟨s, effects, progress⟩ =>
    match progress with
    | .returned answer => (s, effects, answer)
    | .waits w =>
      match fuel with
      | 0 => (s, effects, .crashed)
      | fuel + 1 =>
        match (s.bringAbout w).resume? d.view w (replyTo d w) with
        | none => (s, effects, .crashed)
        | some m =>
          let (s, more, answer) := finish d fuel m
          (s, effects ++ more, answer)

/-- Do what is requested, to its end. -/
def perform (d : Desk) (s : Session) (r : Request) : Session × List Effect × Answer :=
  finish d waitBound (s.begin d.view r)

/-- Ask several questions before any of them settles, and then bring them to their ends in
order. -/
def performAll (d : Desk) (s : Session) (specs : List QuerySpec) :
    Session × List Effect × List Answer :=
  let (s, effects, begun) := specs.foldl (fun (s, effects, begun) spec =>
      let m := s.begin d.view (.run spec)
      (m.session, effects ++ m.effects, begun ++ [m.progress])) (s, [], [])
  begun.foldl (fun (s, effects, answers) progress =>
      let (s, more, answer) := finish d waitBound ⟨s, [], progress⟩
      (s, effects ++ more, answers ++ [answer])) (s, effects, [])

end Session

end SymbolNav
