/-
  SymbolNav/Proofs/Process/Agreement.lean
  =======================================
  **A command comes to the same, whether its output is read at the end or on the way.**

  It fails for the same reasons in the same order (`Fails`).  If it does not, the lines
  that were read, joined again, are the output without the carriage returns of its line
  ends (`trim_join_lines`): what is cut into lines and what is decoded first makes no
  difference, and what the last line loses is white space at the end.
-/
import SymbolNav.Host
import SymbolNav.Proofs.Files.Tree
import SymbolNav.Proofs.Hit.Streaming
import SymbolNav.Proofs.Text.Trim

namespace SymbolNav

open Text

/-! ### The text of the lines -/

namespace Text

variable {a : List Char}

theorem dropFeedReturns_of_free (whole : '\n' ∉ a) : dropFeedReturns a = a := by
  induction a with
  | nil => rfl
  | cons c a ih =>
    have stays : ¬(c = '\r' ∧ a.head? = some '\n') := by
      rintro ⟨-, feed⟩
      exact whole (List.mem_cons_of_mem c (List.mem_of_head? feed))
    rw [dropFeedReturns, if_neg stays, ih (List.not_mem_of_not_mem_cons whole)]

/-- The carriage return before the first line feed is dropped, if there is one. -/
theorem dropFeedReturns_append_feed (first : '\n' ∉ a) (b : List Char) :
    dropFeedReturns (a ++ '\n' :: b) = dropReturn a ++ '\n' :: dropFeedReturns b := by
  have feed : dropFeedReturns ('\n' :: b) = '\n' :: dropFeedReturns b := if_neg (by simp)
  by_cases last : a.getLast? = some '\r'
  · obtain ⟨t, rfl⟩ := List.getLast?_eq_some_iff.mp last
    have front : '\n' ∉ t := fun member => first (List.mem_append_left _ member)
    have dropped : dropFeedReturns ('\r' :: '\n' :: b) = '\n' :: dropFeedReturns b := by
      rw [← feed]
      exact if_pos ⟨rfl, rfl⟩
    rw [List.append_assoc, List.singleton_append, dropFeedReturns_append (by simp), dropped,
      dropFeedReturns_of_free front, dropReturn_concat]
  · rw [dropFeedReturns_append (fun both => last both.1), feed, dropFeedReturns_of_free first,
      dropReturn, dropLastEq_of_ne last]

/-- The text of the lines, each without a carriage return at its end, is the text without those
before line feeds, up to white space at the end. -/
theorem exists_joined (s : List Char) : ∃ back, (∀ c ∈ back, isBlank c = true) ∧
    dropFeedReturns s =
      ['\n'].intercalate ((pieces '\n' s).map (fun w => dropReturn w.content)) ++ back := by
  induction s using cut_induction '\n' with
  | last a whole =>
    rw [pieces_unended whole, dropFeedReturns_of_free whole]
    by_cases empty : a = []
    · exact ⟨[], nofun, by simp [empty]⟩
    · rw [if_neg empty, List.map_singleton, List.intercalate_singleton]
      by_cases last : a.getLast? = some '\r'
      · obtain ⟨t, rfl⟩ := List.getLast?_eq_some_iff.mp last
        exact ⟨['\r'], List.forall_mem_singleton.mpr (by decide), by rw [dropReturn_concat]⟩
      · exact ⟨[], nofun, by rw [dropReturn, dropLastEq_of_ne last, List.append_nil]⟩
  | cut a b first ih =>
    obtain ⟨back, blank, joined⟩ := ih
    rw [dropFeedReturns_append_feed first, pieces_append_sep b first, List.map_cons, joined]
    cases rest : pieces '\n' b with
    | nil =>
      refine ⟨'\n' :: back, ?_, by simp⟩
      exact List.forall_mem_cons.mpr ⟨by decide, blank⟩
    | cons w ws =>
      exact ⟨back, blank, by simp [List.intercalate_cons_cons]⟩

end Text

theorem trim_join_lines (r : Response) :
    trim ("\n".intercalate r.lines).toList = dropFeedReturns (tidy r.stdout).toList := by
  have cut : pieces '\n' (Utf8.decodeLossy r.stdout) = _ :=
    Utf8.pieces_decodeLossy r.stdout (b := 0x0A) (by decide)
  obtain ⟨back, blank, joined⟩ := exists_joined (Utf8.decodeLossy r.stdout)
  have lines : r.lines.map String.toList =
      (pieces '\n' (Utf8.decodeLossy r.stdout)).map (fun w => dropReturn w.content) := by
    simp only [cut, Response.lines, segments, List.map_map]
    apply List.map_congr_left
    intro w _
    simp [decodeLossy_dropLastEq_return]
  rw [tidy, String.toList_ofList, dropFeedReturns_trim, joined, trim_append_blank blank,
    String.toList_intercalate, lines]
  rfl

/-! ### Reading to the end -/

namespace LineStream

theorem readToEnd_eq (s : LineStream) :
    s.readToEnd = (readLines s.unread, { s with unread := [] }) := by
  fun_induction readToEnd s with
  | case1 s ended =>
    have atEnd : nextLine? s.unread = none := Option.map_eq_none_iff.mp ended
    have nothing : s.unread = [] := by simpa [nextLine?] using atEnd
    rw [nothing, readLines_nil, ← nothing]
  | case2 s line rest read lines ended below ih =>
    obtain ⟨⟨first, left⟩, next, same⟩ := Option.map_eq_some_iff.mp read
    cases same
    rw [below] at ih
    obtain ⟨rfl, rfl⟩ := Prod.mk.inj ih
    rw [readLines_of_nextLine? next]

theorem readToEnd_new (commandLine : String) (r : Response) :
    (LineStream.new commandLine r).readToEnd =
      (r.lines, ⟨commandLine, [], r.stderr, r.exitCode⟩) := by
  rw [readToEnd_eq]
  exact congrArg (·, _) (readLines_stdout r)

end LineStream

namespace Host

/-- Start a stream, read it to its end and wait for the end of the process: the lines. -/
def streamToEnd (h : Host) (command : String) (args : List String) (cwd : Path) :
    Except Error (List String) × Host :=
  match h.stream command args cwd with
  | (.error e, h) => (.error e, h)
  | (.ok s, h) =>
    let (lines, ended) := s.readToEnd
    (ended.finish.map (fun _ => lines), h)

/-! ### Why a command fails -/

/-- What keeps the system from starting a command in a directory, if anything does. -/
def startFault? (h : Host) (directory : Place) (command : String) (args : List String) :
    Option String :=
  if hasNul command || args.any hasNul then some "nul byte found in provided data"
  else (h.refusal? directory command).map FileFault.message

/-- Why a command fails.  A blank command comes before a missing directory, and this before all
that keeps the system from starting it; only what has been started can end without success. -/
inductive Fails (h : Host) (command : String) (args : List String) (cwd : Path) : Error → Prop
  | blank (blank : Config.isBlankText command) :
    Fails h command args cwd (.config "indexer command is empty")
  | nowhere (filled : ¬Config.isBlankText command) (nowhere : ¬h.files.isDirectory cwd) :
    Fails h command args cwd (.fileNotFound cwd.text)
  | refused {directory : Place} {cause : String} (filled : ¬Config.isBlankText command)
      (there : h.files.find cwd = .ok (directory, .directory))
      (refused : h.startFault? directory command args = some cause) :
    Fails h command args cwd (.spawnFailure command cause)
  | failed {directory : Place} {r : Response} (filled : ¬Config.isBlankText command)
      (there : h.files.find cwd = .ok (directory, .directory))
      (starts : h.startFault? directory command args = none)
      (left : (h.program args { h.files with here := directory }).1 = r)
      (failed : r.exitCode ≠ some 0) :
    Fails h command args cwd (.processFailure r.exitCode (tidy r.stderr))

variable {h : Host} {command : String} {args : List String} {cwd : Path} {directory : Place}

theorem launch_of_blank (blank : Config.isBlankText command) :
    h.launch command args cwd = .error (.config "indexer command is empty") := if_pos blank

theorem launch_of_nowhere (filled : ¬Config.isBlankText command)
    (nowhere : ¬h.files.isDirectory cwd) :
    h.launch command args cwd = .error (.fileNotFound cwd.text) := by
  rw [launch, if_neg filled]
  split
  case h_1 directory there => exact absurd (FileTree.isDirectory_iff.mpr ⟨directory, there⟩) nowhere
  case h_2 => rfl

theorem launch_of_there (args : List String) (filled : ¬Config.isBlankText command)
    (there : h.files.find cwd = .ok (directory, .directory)) :
    h.launch command args cwd =
      match h.startFault? directory command args with
      | some cause => .error (.spawnFailure command cause)
      | none =>
        let (response, files) := h.program args { h.files with here := directory }
        .ok (response, { h with
          files := { files with here := h.files.here }, calls := h.calls ++ [args] }) := by
  rw [launch, if_neg filled, there, startFault?]
  by_cases nul : hasNul command || args.any hasNul
  · simp [nul]
  · cases refused : h.refusal? directory command <;> simp [nul, refused]

theorem failure?_eq_some_iff {r : Response} {e : Error} :
    r.failure? = some e ↔
      r.exitCode ≠ some 0 ∧ e = .processFailure r.exitCode (tidy r.stderr) := by
  unfold Response.failure? Response.succeeded
  by_cases success : r.exitCode = some 0 <;> simp [success, eq_comm]

variable {e : Error}

theorem fails_iff_of_blank (blank : Config.isBlankText command) :
    h.Fails command args cwd e ↔ e = .config "indexer command is empty" := by
  constructor
  · intro fails
    cases fails with
    | blank => rfl
    | nowhere filled | refused filled | failed filled => exact absurd blank filled
  · rintro rfl
    exact .blank blank

theorem fails_iff_of_nowhere (filled : ¬Config.isBlankText command)
    (nowhere : ¬h.files.isDirectory cwd) :
    h.Fails command args cwd e ↔ e = .fileNotFound cwd.text := by
  constructor
  · intro fails
    cases fails with
    | blank blank => exact absurd blank filled
    | nowhere => rfl
    | refused _ there | failed _ there =>
      exact absurd (FileTree.isDirectory_iff.mpr ⟨_, there⟩) nowhere
  · rintro rfl
    exact .nowhere filled nowhere

/-- In a directory that is there, what keeps the command from starting decides, and if nothing
does, how it ends. -/
theorem fails_iff_of_there (args : List String) (e : Error) (filled : ¬Config.isBlankText command)
    (there : h.files.find cwd = .ok (directory, .directory)) :
    h.Fails command args cwd e ↔ match h.startFault? directory command args with
      | some cause => e = .spawnFailure command cause
      | none => (h.program args { h.files with here := directory }).1.failure? = some e := by
  have same {place : Place} (there' : h.files.find cwd = .ok (place, .directory)) :
      place = directory := by
    rw [there] at there'
    cases there'
    rfl
  constructor
  · intro fails
    cases fails with
    | blank blank => exact absurd blank filled
    | nowhere _ nowhere => exact absurd (FileTree.isDirectory_iff.mpr ⟨_, there⟩) nowhere
    | refused _ there' refused =>
      cases same there'
      rw [refused]
    | failed _ there' starts left failed =>
      cases same there'
      cases left
      rw [starts]
      exact failure?_eq_some_iff.mpr ⟨failed, rfl⟩
  · cases starts : h.startFault? directory command args with
    | some cause =>
      rintro rfl
      exact .refused filled there starts
    | none =>
      intro failure
      obtain ⟨failed, rfl⟩ := failure?_eq_some_iff.mp failure
      exact .failed filled there starts rfl failed

/-- A command that is not started fails in one way; one that is started fails as it ends. -/
theorem launch_cases (h : Host) (command : String) (args : List String) (cwd : Path) :
    (∃ e, h.launch command args cwd = .error e ∧ ∀ e', h.Fails command args cwd e' ↔ e' = e) ∨
    ∃ r h', h.launch command args cwd = .ok (r, h') ∧
      ∀ e, h.Fails command args cwd e ↔ r.failure? = some e := by
  by_cases blank : Config.isBlankText command
  · exact .inl ⟨_, launch_of_blank blank, fun e => fails_iff_of_blank blank⟩
  by_cases somewhere : h.files.isDirectory cwd
  case neg =>
    exact .inl ⟨_, launch_of_nowhere blank somewhere, fun e => fails_iff_of_nowhere blank somewhere⟩
  obtain ⟨directory, there⟩ := FileTree.isDirectory_iff.mp somewhere
  have launched := launch_of_there args blank there
  have fails (e : Error) := fails_iff_of_there args e blank there
  cases starts : h.startFault? directory command args with
  | some cause =>
    simp only [starts] at launched fails
    exact .inl ⟨_, launched, fails⟩
  | none =>
    simp only [starts] at launched fails
    exact .inr ⟨_, _, launched, fails⟩

/-! ### Both ways to run a command -/

theorem finish_map_eq (r : Response) (commandLine : String) (unread : List UInt8)
    (lines : List String) :
    (LineStream.mk commandLine unread r.stderr r.exitCode).finish.map (fun _ => lines) =
      match r.failure? with
      | some e => .error e
      | none => .ok lines := by
  unfold LineStream.finish Response.failure? Response.succeeded
  by_cases success : r.exitCode = some 0 <;> simp [success, Except.map]

theorem run_of_launch_error {e : Error} (refused : h.launch command args cwd = .error e) :
    h.run command args cwd = (.error e, h) := by
  rw [run, refused]

theorem streamToEnd_of_launch_error {e : Error} (refused : h.launch command args cwd = .error e) :
    h.streamToEnd command args cwd = (.error e, h) := by
  rw [streamToEnd, stream, refused]

theorem run_of_launch_ok {r : Response} {h' : Host}
    (launched : h.launch command args cwd = .ok (r, h')) :
    h.run command args cwd = (r.output, h') := by
  rw [run, launched]

theorem streamToEnd_of_launch_ok {r : Response} {h' : Host}
    (launched : h.launch command args cwd = .ok (r, h')) :
    h.streamToEnd command args cwd =
      (match r.failure? with
        | some e => .error e
        | none => .ok r.lines, h') := by
  rw [streamToEnd, stream, launched]
  dsimp only
  rw [LineStream.readToEnd_new, finish_map_eq]

/-- **A command fails alike when it is run to its end and when its output is read while it runs**,
and for the reasons that `Fails` gives.  If it does not fail, the lines that were read and the
output as a whole are the same text, but for white space at the ends of the joined lines and the
carriage returns before the line feeds of the output; and either way it has done the same to the
machine. -/
theorem run_agrees_streamToEnd (h : Host) (command : String) (args : List String) (cwd : Path) :
    (∀ e, (h.run command args cwd).1 = .error e ↔ h.Fails command args cwd e) ∧
    (∀ e, (h.streamToEnd command args cwd).1 = .error e ↔ h.Fails command args cwd e) ∧
    (∀ output lines, (h.run command args cwd).1 = .ok output →
      (h.streamToEnd command args cwd).1 = .ok lines →
      trim ("\n".intercalate lines).toList = dropFeedReturns output.toList) ∧
    (h.run command args cwd).2 = (h.streamToEnd command args cwd).2 := by
  obtain ⟨e, refused, fails⟩ | ⟨r, h', launched, fails⟩ := h.launch_cases command args cwd
  · rw [run_of_launch_error refused, streamToEnd_of_launch_error refused]
    refine ⟨fun e' => ?_, fun e' => ?_, nofun, rfl⟩ <;> simp [fails, eq_comm]
  · rw [run_of_launch_ok launched, streamToEnd_of_launch_ok launched, Response.output]
    cases failure : r.failure? with
    | some e =>
      refine ⟨fun e' => ?_, fun e' => ?_, nofun, rfl⟩ <;> simp [fails, failure]
    | none =>
      refine ⟨fun e' => ?_, fun e' => ?_, ?_, rfl⟩
      · simp [fails, failure]
      · simp [fails, failure]
      · rintro output lines ⟨⟩ ⟨⟩
        exact trim_join_lines r

namespace Sample

/-! A command at `/i` that writes a blank line, a line that is no UTF-8 and ends in two carriage
returns, and a last line without a line feed; its errors are no UTF-8 either. -/

def output : List UInt8 := [0x20, 0x0D, 0x0A, 0xFF, 0x61, 0x0D, 0x0D, 0x0A, 0x62, 0x0D]

def errors : List UInt8 := [0x20, 0x65, 0xFE, 0x0A]

def machine (exitCode : Option Int) : Host where
  files := ⟨[([['i']], .file [] true)], []⟩
  searchPath := []
  program _ files := (⟨output, errors, exitCode⟩, files)
  calls := []
  sources := none

end Sample

open Sample in
/-- With success the two outputs differ by a carriage return; a signal is a failure; and a blank
command is a failure before the missing directory is. -/
theorem run_agrees_streamToEnd_returns :
    ((machine (some 0)).run "/i" [] ⟨"/"⟩).1 = .ok "\uFFFDa\r\r\nb" ∧
    ((machine (some 0)).streamToEnd "/i" [] ⟨"/"⟩).1 = .ok [" ", "\uFFFDa\r", "b"] ∧
    trim ("\n".intercalate [" ", "\uFFFDa\r", "b"]).toList =
      dropFeedReturns "\uFFFDa\r\r\nb".toList ∧
    (machine none).Fails "/i" [] ⟨"/"⟩ (.processFailure none "e\uFFFD") ∧
    (machine none).Fails "\t" [] ⟨"/x"⟩ (.config "indexer command is empty") := by
  have whole : ((machine (some 0)).run "/i" [] ⟨"/"⟩).1 = .ok "\uFFFDa\r\r\nb" := by
    decide +kernel
  have lines : ((machine (some 0)).streamToEnd "/i" [] ⟨"/"⟩).1 =
      .ok [" ", "\uFFFDa\r", "b"] := by decide +kernel
  obtain ⟨-, -, joined, -⟩ := run_agrees_streamToEnd (machine (some 0)) "/i" [] ⟨"/"⟩
  refine ⟨whole, lines, joined _ _ whole lines, ?_, ?_⟩
  · exact ((run_agrees_streamToEnd _ _ _ _).1 _).mp (by decide +kernel)
  · exact ((run_agrees_streamToEnd _ _ _ _).2.1 _).mp (by decide +kernel)

end Host

end SymbolNav
