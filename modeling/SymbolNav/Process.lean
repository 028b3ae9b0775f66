/-
  SymbolNav/Process.lean
  ======================
  **What a process leaves behind**: the octets it wrote and the way it ended.

  The octets are text in two ways.  As a whole, a stream is decoded and loses
  the white space at its ends (`tidy`).  Line by line, the output comes apart
  first, and every line is decoded by itself (`Response.lines`); so it is read
  while the process runs (`LineStream`).  A process that did not end with success
  has failed, whatever it wrote.

  `Response.output` is what `ProcessRunner` returns from `run`, and the lines
  that arrive one by one are those of its `LineStream`, where `next?` is
  `next_line` and `finish` keeps its name.
-/
import SymbolNav.Error
import SymbolNav.Text.Blank
import SymbolNav.Text.Lines
import SymbolNav.Text.Utf8

namespace SymbolNav

open Text

/-- What a process wrote and how it ended. -/
structure Response where
  stdout : List UInt8
  stderr : List UInt8
  /-- The exit code; none if a signal ended the process. -/
  exitCode : Option Int
deriving DecidableEq, Repr, Inhabited

/-- The text of octets without the white space at its ends. -/
def tidy (bytes : List UInt8) : String := String.ofList (trim (Utf8.decodeLossy bytes))

namespace Response

def succeeded (r : Response) : Bool := r.exitCode = some 0

/-- The error that the end of the process is, if it is one. -/
def failure? (r : Response) : Option Error :=
  if r.succeeded then none else some (.processFailure r.exitCode (tidy r.stderr))

def output (r : Response) : Except Error String :=
  match r.failure? with
  | some e => .error e
  | none => .ok (tidy r.stdout)

def lines (r : Response) : List String :=
  (segments r.stdout).map (fun bytes => String.ofList (Utf8.decodeLossy bytes))

end Response

/-! ### Line by line -/

/-- The next line of a stream of octets, and what is left of the stream; none at its end. -/
def nextLine? (bytes : List UInt8) : Option (String × List UInt8) :=
  if bytes = [] then none
  else some (String.ofList (Utf8.decodeLossy (dropLastEq 0x0D (bytes.takeWhile (· ≠ 0x0A)))),
    (bytes.dropWhile (· ≠ 0x0A)).tail)

theorem length_nextLine? {bytes rest : List UInt8} {line : String}
    (h : nextLine? bytes = some (line, rest)) : rest.length < bytes.length := by
  unfold nextLine? at h
  split at h
  case isTrue => cases h
  case isFalse some =>
    cases Option.some.inj h
    have := List.length_pos_iff.mpr some
    have := (List.dropWhile_sublist (fun b : UInt8 => decide (b ≠ 0x0A)) (l := bytes)).length_le
    rw [List.length_tail]
    omega

/-- A process whose output is read while it runs. -/
structure LineStream where
  commandLine : String
  /-- What has not been read of the output. -/
  unread : List UInt8
  stderr : List UInt8
  exitCode : Option Int
deriving DecidableEq, Repr, Inhabited

namespace LineStream

/-- The stream of a process of which nothing has been read. -/
def new (commandLine : String) (r : Response) : LineStream :=
  ⟨commandLine, r.stdout, r.stderr, r.exitCode⟩

def next? (s : LineStream) : Option (String × LineStream) :=
  (nextLine? s.unread).map fun (line, rest) => (line, { s with unread := rest })

theorem length_next? {s rest : LineStream} {line : String} (h : s.next? = some (line, rest)) :
    rest.unread.length < s.unread.length := by
  obtain ⟨next, found, same⟩ := Option.map_eq_some_iff.mp h
  cases same
  exact length_nextLine? found

/-- Read lines until there is none. -/
def readToEnd (s : LineStream) : List String × LineStream :=
  match _h : s.next? with
  | none => ([], s)
  | some (line, rest) =>
    let (lines, ended) := rest.readToEnd
    (line :: lines, ended)
termination_by s.unread.length
decreasing_by exact length_next? _h

/-- Wait for the end of the process. -/
def finish (s : LineStream) : Except Error Unit :=
  if s.exitCode = some 0 then .ok () else .error (.processFailure s.exitCode (tidy s.stderr))

end LineStream

end SymbolNav
