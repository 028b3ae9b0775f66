/-
  SymbolNav/Proofs/Session/Notices.lean
  =====================================
  **Which question the notice of a failure quotes.**

  The engine remembers one command line, that of the latest question of all that use
  it.  An interactive question that fails when its run has settled reads it back then,
  and by then others may have asked, too.  So the notice quotes the last of these, and
  the question's own command line only where none of another has come after it
  (`failure_notice`).

  `Ongoing.commands` lists the command lines of the questions that are asked while
  things happen.  What the engine remembers afterwards is the last of them
  (`lastQuery_of_play?`), because no part of an operation touches it but by asking
  (`lastQuery_begin`, `lastQuery_resume`).
-/
import SymbolNav.Proofs.Session.Alike
import SymbolNav.Proofs.Session.Tickets

namespace SymbolNav

/-- Notices of failures differ where the command lines do. -/
theorem queryErrorNotice_inj {c c' : String} :
    queryErrorNotice c = queryErrorNotice c' ↔ c = c' :=
  (String.append_left_inj _).trans (String.append_right_inj _)

/-! ### The command line that the engine remembers -/

namespace Engine

/-- The command line of a question under the settings of the engine. -/
def commandOf (e : Engine) (spec : QuerySpec) : String :=
  commandLine e.config.indexer (e.config.argsFor spec)

/-- The question that an action asks. -/
def Action.question? : Action → Option QuerySpec
  | .start spec _ | .startComplete spec _ => some spec
  | _ => none

variable {e : Engine}

theorem lastQuery_spawn (e : Engine) (spec : QuerySpec) (cwd : Path) (discards : Bool) :
    (e.spawn spec cwd discards).2.lastQuery = some (e.commandOf spec) := by
  have cases := spawns e spec cwd discards
  generalize e.spawn spec cwd discards = result at cases
  cases cases with
  | refused launch => rfl
  | crashed responds beyond => rfl
  | asked responds within => rfl

theorem lastQuery_startBuild (e : Engine) (cwd : Path) :
    (e.startBuild cwd).2.lastQuery = e.lastQuery := by
  have cases := builds e cwd
  generalize e.startBuild cwd = result at cases
  cases cases with
  | refused launch => rfl
  | responded launch => rfl

theorem lastQuery_of_act? {e' : Engine} {a : Action} (happens : e.act? a = some e') :
    e'.lastQuery = (a.question?.map e.commandOf).or e.lastQuery := by
  cases a with
  | start spec cwd => cases Option.some.inj happens; exact lastQuery_spawn ..
  | startComplete spec cwd => cases Option.some.inj happens; exact lastQuery_spawn ..
  | startBuild cwd => cases Option.some.inj happens; exact lastQuery_startBuild ..
  | setConfig config => cases Option.some.inj happens; rfl
  | changeHost host => cases Option.some.inj happens; rfl
  | step g step =>
    simp only [act?, step?] at happens
    split at happens
    · cases happens
    · obtain ⟨r', -, rfl⟩ := Option.map_eq_some_iff.mp happens
      rfl

end Engine

/-- The question that a request asks at once, an interactive one or one on the side. -/
def Request.question? (view : EditorView) : Request → Option QuerySpec
  | .look what word => some ⟨what.kind, word⟩
  | request => request.asks? view

namespace Session

section Parts

variable {s : Session}

theorem lastQuery_ask (s : Session) (spec : QuerySpec) :
    (s.ask spec).session.engine.lastQuery = some (s.engine.commandOf spec) := by
  have asked : (s.engine.startComplete spec s.root).2.lastQuery =
      some (s.engine.commandOf spec) := Engine.lastQuery_spawn ..
  unfold ask
  dsimp only
  split <;> exact asked

theorem lastQuery_look (s : Session) (what : Lookup) (word : String) :
    (s.look what word).session.engine.lastQuery =
      some (s.engine.commandOf ⟨what.kind, word⟩) := by
  have asked : (s.engine.startComplete ⟨what.kind, word⟩ s.root).2.lastQuery =
      some (s.engine.commandOf ⟨what.kind, word⟩) := Engine.lastQuery_spawn ..
  unfold look
  dsimp only
  split <;> exact asked

theorem lastQuery_build (s : Session) (thenWatch : Bool) :
    (s.build thenWatch).session.engine.lastQuery = s.engine.lastQuery := by
  have kept : (s.engine.beginBuild s.root).2.2.lastQuery = s.engine.lastQuery := by
    rw [engine_of_beginBuild]
    exact Engine.lastQuery_startBuild ..
  unfold build
  dsimp only
  split <;> exact kept

theorem engine_install (s : Session) : s.install.session.engine = s.engine := by
  unfold install
  split <;> rfl

theorem lastQuery_beginWatch (s : Session) :
    s.beginWatch.session.engine.lastQuery = s.engine.lastQuery := by
  unfold beginWatch
  split
  · rw [engine_install]
  · exact lastQuery_build s true

theorem lastQuery_reload (s : Session) (config : Config) :
    (s.reload config).session.engine.lastQuery = s.engine.lastQuery := by
  unfold reload
  split
  · rfl
  · dsimp only
    split
    · split
      · exact lastQuery_beginWatch (endWatch { s with engine := s.engine.setConfig config })
      · rfl
    · rfl

/-- Up to the first point where it waits, a request has the engine remember what it asks. -/
theorem lastQuery_begin (view : EditorView) (s : Session) (request : Request) :
    (s.begin view request).session.engine.lastQuery =
      ((request.question? view).map s.engine.commandOf).or s.engine.lastQuery := by
  cases request with
  | start =>
    simp only [begin]
    split
    · exact lastQuery_beginWatch s
    · rfl
  | build => exact lastQuery_build s false
  | setAutoBuild enabled =>
    simp only [begin, setAutoBuild]
    split
    · exact lastQuery_beginWatch s
    · rfl
  | reload config => exact lastQuery_reload s config
  | query kind =>
    cases word : view.currentWord with
    | none => simp [begin, word, give, Request.question?, Request.asks?]
    | some word' =>
      simp [begin, word, lastQuery_ask, Request.question?, Request.asks?]
  | queryWithPrompt kind => rfl
  | run spec => exact lastQuery_ask s spec
  | showResults => exact congrArg Engine.lastQuery (engine_showResults s)
  | jump item => exact congrArg Engine.lastQuery (engine_jump view s item)
  | pop => exact congrArg Engine.lastQuery (engine_pop s)
  | look what word => exact lastQuery_look s what word

/-- When an operation goes on, it uses the engine only to ask. -/
theorem engine_resume {view : EditorView} {reason : Waiting} {reply : Reply} {m : Move}
    (resumes : s.resume? view reason reply = some m) (unasked : reason.asks? reply = none) :
    m.session.engine = s.engine := by
  cases resumes_of_resume? resumes with
  | gives effects answer => rfl
  | asks typed => simp [Waiting.asks?, typed] at unasked
  | stores settled latest => exact engine_showResults _
  | jumps item => exact engine_jump view s item
  | installs built => exact engine_install s

/-- An operation whose reply has it ask an interactive question does nothing else. -/
theorem resume_asks {view : EditorView} {reason : Waiting} {reply : Reply} {m : Move}
    {spec : QuerySpec} (resumes : s.resume? view reason reply = some m)
    (asks : reason.asks? reply = some spec) : m = s.ask spec := by
  rcases resume_cases resumes with ⟨unasked, -⟩ | ⟨unasked, -⟩ | ⟨spec', -, -, asks', -, rfl⟩
  · cases unasked.symm.trans asks
  · cases unasked.symm.trans asks
  · cases Option.some.inj (asks'.symm.trans asks)
    rfl

/-- An operation that goes on has the engine remember what it asks. -/
theorem lastQuery_resume {view : EditorView} {reason : Waiting} {reply : Reply} {m : Move}
    (resumes : s.resume? view reason reply = some m) :
    m.session.engine.lastQuery =
      ((reason.asks? reply).map s.engine.commandOf).or s.engine.lastQuery := by
  cases asks : reason.asks? reply with
  | none => rw [engine_resume resumes asks]; rfl
  | some spec => rw [resume_asks resumes asks, lastQuery_ask]; rfl

/-! ### Failures of interactive questions -/

/-- A question that fails when it is asked quotes its own command line. -/
theorem ask_failed {spec : QuerySpec} {e : Error}
    (fails : (s.ask spec).progress = .returned (.failed e)) :
    (s.ask spec).effects = [.notice (queryNotice spec.pattern),
      .notice (queryErrorNotice (s.engine.commandOf spec))] := by
  have asked : (s.engine.startComplete spec s.root).2.lastQuery =
      some (s.engine.commandOf spec) := Engine.lastQuery_spawn ..
  unfold ask at fails ⊢
  dsimp only at fails ⊢
  split at fails
  case h_1 => cases fails
  case h_2 e' started => simp [after, queryFailed, give, asked]
  case h_3 => cases fails

/-- A question that fails when its run has settled quotes what the engine remembers then. -/
theorem settled_failed {view : EditorView} {reason : Waiting} {m : Move} {e : Error}
    (resumes : s.resume? view reason .settled = some m)
    (fails : m.progress = .returned (.failed e)) :
    m.effects = [.notice (queryErrorNotice (s.engine.lastQuery.getD ""))] := by
  cases reason with
  | run ticket generation =>
    obtain ⟨result, -, rfl⟩ := Option.map_eq_some_iff.mp resumes
    cases result with
    | error e' => rfl
    | ok r =>
      simp only [settled] at fails
      split at fails
      · unfold showResults at fails
        split at fails <;> cases fails
      · cases fails
  | lookup what generation =>
    obtain ⟨result, -, rfl⟩ := Option.map_eq_some_iff.mp resumes
    cases what <;> cases fails
  | _ => cases resumes

end Parts

end Session

namespace Ongoing

/-! ### Courses -/

/-- The question that is asked when this happens. -/
def question? (o : Ongoing) : Happening → Option QuerySpec
  | .begin view request => request.question? view
  | .resume i _ reply =>
    match o.operations[i]?.map Operation.progress with
    | some (.waits reason) => reason.asks? reply
    | _ => none
  | .engine a => a.question?

/-- The command lines of all questions that are asked while things happen, in order. -/
def commands (o : Ongoing) : List Happening → List String
  | [] => []
  | h :: happenings =>
    match o.act? h with
    | none => []
    | some o' =>
      ((o.question? h).map o.session.engine.commandOf).toList ++ o'.commands happenings

section Courses

variable {o o' : Ongoing} {h : Happening}

theorem lastQuery_of_act? (happens : o.act? h = some o') :
    o'.session.engine.lastQuery =
      ((o.question? h).map o.session.engine.commandOf).or o.session.engine.lastQuery := by
  cases h with
  | begin view request => cases Option.some.inj happens; exact Session.lastQuery_begin ..
  | resume i view reply =>
    obtain ⟨op, reason, m, place, waits, resumes, rfl⟩ := act?_resume.mp happens
    have asks : o.question? (.resume i view reply) = reason.asks? reply := by
      simp [question?, place, waits]
    rw [asks]
    exact Session.lastQuery_resume resumes
  | engine a =>
    obtain ⟨e', acts, rfl⟩ := Option.map_eq_some_iff.mp happens
    exact Engine.lastQuery_of_act? acts

/-- The engine remembers the last question that was asked, by whatever. -/
theorem lastQuery_of_play? {happenings : List Happening} (plays : o.play? happenings = some o') :
    o'.session.engine.lastQuery =
      (o.commands happenings).getLast?.or o.session.engine.lastQuery := by
  induction happenings generalizing o with
  | nil => cases Option.some.inj plays; rfl
  | cons h happenings ih =>
    obtain ⟨o₁, happens, rest⟩ := play?_cons.mp plays
    rw [ih rest, lastQuery_of_act? happens, commands, happens, List.getLast?_append,
      Option.or_assoc]
    cases o.question? h <;> rfl

/-- When this happens, the operation at the place `i` asks an interactive question. -/
inductive Asks (o : Ongoing) : Happening → Nat → QuerySpec → Prop
  | begun {view request spec} (asks : request.asks? view = some spec) :
      Asks o (.begin view request) o.operations.length spec
  | prompted {i view reply op reason spec} (place : o.operations[i]? = some op)
      (waits : op.progress = .waits reason) (asks : reason.asks? reply = some spec) :
      Asks o (.resume i view reply) i spec

theorem Asks.act? {i : Nat} {spec : QuerySpec} (asks : o.Asks h i spec)
    (happens : o.act? h = some o') :
    o'.session = (o.session.ask spec).session ∧
      ∃ op : Operation, o'.operations[i]? = some (op.go (some spec) (o.session.ask spec)) := by
  cases asks with
  | @begun view request spec asks =>
    have begins : o.session.begin view request = o.session.ask spec := by
      rcases Session.begin_cases view o.session request with
        ⟨unasked, -⟩ | ⟨unasked, -⟩ | ⟨spec', asks', begins⟩
      · cases unasked.symm.trans asks
      · cases unasked.symm.trans asks
      · cases Option.some.inj (asks'.symm.trans asks)
        exact begins
    cases Option.some.inj happens
    rw [begins, asks]
    exact ⟨rfl, _, List.getElem?_concat_length⟩
  | prompted place waits asks =>
    obtain ⟨op', reason', m, place', waits', resumes, rfl⟩ := act?_resume.mp happens
    cases Option.some.inj (place.symm.trans place')
    cases Progress.waits.inj (waits.symm.trans waits')
    cases Session.resume_asks resumes asks
    rw [asks]
    exact ⟨rfl, _, (turn_resume place).now⟩

/-- When its run has settled, the operation at the place `i` fails, and this is what it shows. -/
def FailsShowing (o : Ongoing) (i : Nat) (shown : List Effect) : Prop :=
  ∃ view o' op op' e, o.operations[i]? = some op ∧
    o.act? (.resume i view .settled) = some o' ∧ o'.operations[i]? = some op' ∧
    op'.progress = .returned (.failed e) ∧ op'.effects = op.effects ++ shown

theorem exists_failsShowing {i : Nat} {view : EditorView} {op' : Operation} {e : Error}
    (happens : o.act? (.resume i view .settled) = some o') (now : o'.operations[i]? = some op')
    (failed : op'.progress = .returned (.failed e)) : ∃ shown, o.FailsShowing i shown := by
  obtain ⟨op, reason, m, place, waits, resumes, rfl⟩ := act?_resume.mp happens
  have gone := Option.some.inj ((turn_resume place).now.symm.trans now)
  exact ⟨m.effects, view, _, op, op', e, place, happens, now, failed, by rw [← gone]; rfl⟩

theorem FailsShowing.eq_notice {i : Nat} {shown : List Effect} (fails : o.FailsShowing i shown) :
    shown = [.notice (queryErrorNotice (o.session.engine.lastQuery.getD ""))] := by
  obtain ⟨view, o', op, op', e, place, happens, now, failed, effects⟩ := fails
  obtain ⟨op₁, reason, m, place₁, waits, resumes, rfl⟩ := act?_resume.mp happens
  cases Option.some.inj (place.symm.trans place₁)
  cases Option.some.inj ((turn_resume place).now.symm.trans now)
  rw [← Session.settled_failed resumes failed]
  exact (List.append_cancel_left effects).symm

end Courses

/-- **A failure quotes the question that was asked last.**  An operation asks an interactive
question.  If that fails at once, the notice quotes the question's own command line.  If it fails
when its run has settled, the notice quotes the last question that was asked by then, of whatever
operation; that is the question's own command line if and only if no other question has been asked
since, or the last one had the same. -/
theorem failure_notice {o o₁ : Ongoing} {h : Happening} {i : Nat} {spec : QuerySpec}
    (asks : o.Asks h i spec) (happens : o.act? h = some o₁) :
    let own := o.session.engine.commandOf spec
    (∀ op e, o₁.operations[i]? = some op → op.progress = .returned (.failed e) →
        op.effects.getLast? = some (.notice (queryErrorNotice own))) ∧
      ∀ later o₂ shown, o₁.play? later = some o₂ → o₂.FailsShowing i shown →
        shown = [.notice (queryErrorNotice ((o₁.commands later).getLast?.getD own))] ∧
          (shown = [.notice (queryErrorNotice own)] ↔
            ∀ command, (o₁.commands later).getLast? = some command → command = own) := by
  intro own
  obtain ⟨session, op₁, place₁⟩ := asks.act? happens
  constructor
  · intro op e place failed
    cases Option.some.inj (place₁.symm.trans place)
    have effects := Session.ask_failed failed
    simp [Operation.go, effects, own]
  · intro later o₂ shown plays fails
    have remembered : o₁.session.engine.lastQuery = some own := by
      rw [session]
      exact Session.lastQuery_ask ..
    have notice := fails.eq_notice
    rw [lastQuery_of_play? plays, remembered] at notice
    cases last : (o₁.commands later).getLast? with
    | none => simpa [last] using notice
    | some command =>
      rw [last] at notice
      refine ⟨notice, ?_⟩
      simp [notice, queryErrorNotice_inj]

open Engine.Sample in
/-- A session whose indexer fails on every question. -/
def failing : Ongoing :=
  new root (.new { machine with program := fun _ files => (⟨[], [], some 1⟩, files) } settings)

/-- The first run comes to its end: there is no output, and the process has failed. -/
def firstFails : List Happening :=
  [.engine (.step 1 .endOutput), .engine (.step 1 .close)]

open Engine.Sample in
/-- A question that fails when no other has been asked since. -/
theorem failure_notice_own :
    let view : EditorView := ⟨none, none, none⟩
    ∃ o₁ o₂, failing.act? (.begin view (.run question)) = some o₁ ∧
      o₁.play? firstFails = some o₂ ∧
      o₂.FailsShowing 0 [.notice (queryErrorNotice "/i -RL -f cscope.out -0 f")] := by
  intro view
  have ends : (((failing.act? (.begin view (.run question))).bind (·.play? firstFails)).bind
      (·.act? (.resume 0 view .settled))).bind (·.operations[0]?.map Operation.progress) =
        some (.returned (.failed (.processFailure (some 1) ""))) := by decide +kernel
  obtain ⟨o₃, goes, last⟩ := Option.bind_eq_some_iff.mp ends
  obtain ⟨o₂, plays, resumes⟩ := Option.bind_eq_some_iff.mp goes
  obtain ⟨o₁, begins, plays⟩ := Option.bind_eq_some_iff.mp plays
  obtain ⟨op, now, failed⟩ := Option.map_eq_some_iff.mp last
  obtain ⟨shown, fails⟩ := exists_failsShowing resumes now failed
  have asks : failing.Asks (.begin view (.run question)) 0 question := .begun rfl
  obtain ⟨-, later⟩ := failure_notice asks begins
  have alone : o₁.commands firstFails = [] := by
    cases Option.some.inj begins
    decide +kernel
  obtain ⟨notice, -⟩ := later firstFails o₂ shown plays fails
  rw [alone] at notice
  have command : failing.session.engine.commandOf question = "/i -RL -f cscope.out -0 f" := by
    decide +kernel
  refine ⟨o₁, o₂, begins, plays, ?_⟩
  rw [notice] at fails
  rw [← command]
  exact fails

/-- Of two questions the first fails after the second was asked, and quotes the second. -/
theorem failure_notice_of_another :
    let view : EditorView := ⟨none, none, none⟩
    let own : QuerySpec := ⟨.egrep, "a"⟩
    let other : QuerySpec := ⟨.egrep, "b"⟩
    (((failing.play? ([.begin view (.run own), .begin view (.run other)] ++ firstFails ++
        [.resume 0 view .settled])).bind (·.operations[0]?)).map
          fun op => (op.progress, op.effects)) =
      some (.returned (.failed (.processFailure (some 1) "")),
        [.notice (queryNotice "a"),
          .notice (queryErrorNotice (failing.session.engine.commandOf other))]) ∧
      failing.session.engine.commandOf other ≠ failing.session.engine.commandOf own := by
  decide +kernel

end Ongoing

end SymbolNav
