/-
  SymbolNav/Error.lean
  ====================
  **What can go wrong**, as causes.  The wording of every cause is in
  `Error.message`, the status with which a program ends for it in
  `Error.exitStatus`; nothing else looks at either.

  An `Error` is a `NavError`: `message` is how it is displayed, and
  `exitStatus` and `stderr?` are its `exit_status` and `stderr`.
-/
import SymbolNav.Text.Quoted

namespace SymbolNav

open Text

/-- A cause of failure. -/
inductive Error
  /-- The indexer could not be started. -/
  | spawnFailure (command cause : String)
  /-- The indexer ended without success; no exit code if a signal ended it. -/
  | processFailure (exitCode : Option Int) (stderr : String)
  /-- A line of the indexer's output is not a hit. -/
  | parse (line reason : String)
  /-- A file or directory that has to be there is not. -/
  | fileNotFound (path : String)
  /-- A source file cannot be read. -/
  | sourceRead (path message : String)
  /-- The settings, or the file that holds them, cannot be used. -/
  | config (message : String)
  /-- Changes of files cannot be watched. -/
  | watch (message : String)
  /-- A task of the program itself ended abnormally. -/
  | taskFailure (message : String)
  /-- No kind of query has this name. -/
  | invalidKind (name : String)
  /-- The operating system refused. -/
  | io (message : String)
deriving DecidableEq, Repr, Inhabited

namespace Error

/-- The cause as a person reads it. -/
def message : Error → String
  | .spawnFailure command cause => "Failed to spawn " ++ command ++ ": " ++ cause
  | .processFailure (some code) stderr =>
    "Indexer exited with code " ++ toString code ++ ": " ++ stderr
  | .processFailure none stderr => "Indexer exited with signal: " ++ stderr
  | .parse line reason => "Cannot parse " ++ quote line ++ ": " ++ reason
  | .fileNotFound path => "File not found: " ++ path
  | .sourceRead path message => "Could not open " ++ quote path ++ ": " ++ message
  | .config message => "Configuration error: " ++ message
  | .watch message => "File watch error: " ++ message
  | .taskFailure message => "Query task failed: " ++ message
  | .invalidKind name => "Unknown query kind: " ++ name
  | .io message => "IO error: " ++ message

/-- The status with which the program ends. -/
def exitStatus : Error → Nat
  | .fileNotFound _ | .sourceRead .. | .io _ | .taskFailure _ => 1
  | .config _ | .invalidKind _ | .parse .. => 2
  | .spawnFailure .. => 3
  | .processFailure .. => 4
  | .watch _ => 5

/-- What a failed indexer wrote to its error stream. -/
def stderr? : Error → Option String
  | .processFailure _ stderr => some stderr
  | _ => none

end Error

/-- How an operation ends: with a value, with an error, or abnormally (in a panic), because it was
asked for something that it is not made for. -/
inductive Outcome (α : Type)
  | value (a : α)
  | failed (e : Error)
  | crashed
deriving DecidableEq, Repr

namespace Outcome

variable {α β : Type}

/-- The value, if there is one. -/
def value? : Outcome α → Option α
  | value a => some a
  | _ => none

/-- The value through a function. -/
def map (f : α → β) : Outcome α → Outcome β
  | value a => value (f a)
  | failed e => failed e
  | crashed => crashed

/-- A result as an outcome. -/
def ofExcept : Except Error α → Outcome α
  | .ok a => value a
  | .error e => failed e

end Outcome

end SymbolNav
