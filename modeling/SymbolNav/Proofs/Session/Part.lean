/-
  SymbolNav/Proofs/Session/Part.lean
  ==================================
  **What one part of an operation does** to a session, from one point where it
  waits to the next.

  Most parts are `Quiet`: they take no ticket, touch no results and wait for no
  interactive run.  What is left is asking an interactive question (`Asking`) and
  storing its results.  `begin_cases` and `resume_cases` say that there is nothing
  else, so no proof about tickets looks at the requests one by one again.  What an
  operation can do when it goes on is listed once (`Resumes`), for all that is to be
  known of it.
-/
import SymbolNav.Proofs.Engine.Course
import SymbolNav.Session.Course

namespace SymbolNav

/-- The engine has come there by things that can happen to it. -/
def Engine.Reaches (e e' : Engine) : Prop := ∃ actions, e.play? actions = some e'

namespace Engine.Reaches

theorem refl (e : Engine) : Reaches e e := ⟨[], rfl⟩

theorem of_act? {e e' : Engine} {a : Action} (h : e.act? a = some e') : Reaches e e' :=
  ⟨[a], by simp [play?, h]⟩

theorem trans {e e₁ e' : Engine} (h : Reaches e e₁) (h' : Reaches e₁ e') : Reaches e e' := by
  obtain ⟨actions, plays⟩ := h
  obtain ⟨more, plays'⟩ := h'
  exact ⟨actions ++ more, by rw [play?_append, plays]; exact plays'⟩

theorem numbered {e e' : Engine} (h : Reaches e e') (numbered : Numbered e) : Numbered e' := by
  obtain ⟨actions, plays⟩ := h
  exact numbered_of_play? numbered plays

/-- A run stays where it is found, with what it was started with. -/
theorem run? {e e' : Engine} (h : Reaches e e') {g : Nat} {r : Run} (run : e.run? g = some r) :
    ∃ r', e'.run? g = some r' ∧ Run.Kept r r' := by
  obtain ⟨actions, plays⟩ := h
  obtain ⟨r', found, follows⟩ := follow?_pathOf plays run
  exact ⟨r', found, Run.kept_of_follow? follows⟩

end Engine.Reaches

/-- The effect is nothing but words: nothing is presented and no file opened. -/
def Effect.isWords : Effect → Bool
  | .notice _ | .prompted _ => true
  | .opened .. | .presented .. => false

namespace Session

open Engine (Reaches)

/-! ### Quiet parts -/

/-- The part has nothing to do with interactive questions. -/
structure Quiet (s : Session) (m : Move) : Prop where
  engine : Reaches s.engine m.session.engine
  root : m.session.root = s.root
  tickets : m.session.tickets = s.tickets
  lastResults : m.session.lastResults = s.lastResults
  run : ∀ ticket generation, m.progress ≠ .waits (.run ticket generation)
  prompt : ∀ kind, m.progress ≠ .waits (.prompt kind)

section Quiet

variable {s : Session}

theorem quiet_give (effects : List Effect) (answer : Answer) : Quiet s (s.give effects answer) :=
  ⟨.refl _, rfl, rfl, rfl, nofun, nofun⟩

/-- What follows the session in which the engine has gone on. -/
theorem Quiet.of_engine {s' : Session} {m : Move} (h : Quiet s' m)
    (engine : Reaches s.engine s'.engine) (root : s'.root = s.root)
    (tickets : s'.tickets = s.tickets) (lastResults : s'.lastResults = s.lastResults) :
    Quiet s m where
  engine := engine.trans h.engine
  root := h.root.trans root
  tickets := h.tickets.trans tickets
  lastResults := h.lastResults.trans lastResults
  run := h.run
  prompt := h.prompt

theorem quiet_jump (v : EditorView) (item : Item) : Quiet s (jump v s item) := by
  unfold jump
  split <;> exact ⟨.refl _, rfl, rfl, rfl, nofun, nofun⟩

theorem quiet_pop : Quiet s s.pop := by
  unfold pop
  dsimp only
  split <;> exact ⟨.refl _, rfl, rfl, rfl, nofun, nofun⟩

theorem quiet_showResults : Quiet s s.showResults := by
  unfold showResults
  split <;> exact ⟨.refl _, rfl, rfl, rfl, nofun, nofun⟩

theorem quiet_look (what : Lookup) (word : String) : Quiet s (s.look what word) := by
  have asked : Reaches s.engine (s.engine.startComplete ⟨what.kind, word⟩ s.root).2 :=
    .of_act? (a := .startComplete ⟨what.kind, word⟩ s.root) rfl
  unfold look
  dsimp only
  split <;> exact ⟨asked, rfl, rfl, rfl, nofun, nofun⟩

theorem quiet_install : Quiet s s.install := by
  unfold install
  split <;> exact ⟨.refl _, rfl, rfl, rfl, nofun, nofun⟩

theorem engine_of_beginBuild (e : Engine) (cwd : Path) :
    (e.beginBuild cwd).2.2 = (e.startBuild cwd).2 := by
  unfold Engine.beginBuild
  dsimp only
  split
  case h_1 started => rw [started]
  case h_2 started => rw [started]

theorem quiet_build (thenWatch : Bool) : Quiet s (s.build thenWatch) := by
  have begun : Reaches s.engine (s.engine.beginBuild s.root).2.2 :=
    .of_act? (a := .startBuild s.root) (by rw [engine_of_beginBuild]; rfl)
  unfold build
  dsimp only
  split <;> exact ⟨begun, rfl, rfl, rfl, nofun, nofun⟩

theorem quiet_beginWatch : Quiet s s.beginWatch := by
  unfold beginWatch
  split
  · exact quiet_install
  · exact quiet_build true

theorem quiet_setAutoBuild (enabled : Bool) : Quiet s (s.setAutoBuild enabled) := by
  unfold setAutoBuild
  split
  · exact quiet_beginWatch
  · exact ⟨.refl _, rfl, rfl, rfl, nofun, nofun⟩

theorem quiet_reload (config : Config) : Quiet s (s.reload config) := by
  have set : Reaches s.engine (s.engine.setConfig config) :=
    .of_act? (a := .setConfig config) rfl
  unfold reload
  split
  · exact quiet_give ..
  · dsimp only
    split
    · split
      · exact quiet_beginWatch.of_engine set rfl rfl rfl
      · exact ⟨set, rfl, rfl, rfl, nofun, nofun⟩
    · exact ⟨set, rfl, rfl, rfl, nofun, nofun⟩

theorem Quiet.after {m : Move} (h : Quiet s m) (effects : List Effect) :
    Quiet s (Session.after effects m) :=
  ⟨h.engine, h.root, h.tickets, h.lastResults, h.run, h.prompt⟩

end Quiet

/-! ### Asking -/

/-- The part asks an interactive question. -/
structure Asking (s : Session) (spec : QuerySpec) (m : Move) : Prop where
  engine : Reaches s.engine m.session.engine
  root : m.session.root = s.root
  tickets : m.session.tickets = s.tickets + 1
  lastResults : m.session.lastResults = s.lastResults
  history : m.session.history = s.history
  words : ∀ x ∈ m.effects, x.isWords = true
  run : ∀ ticket generation, m.progress = .waits (.run ticket generation) →
    ticket = s.tickets + 1 ∧ generation = s.engine.latest + 1 ∧
      ∃ run, m.session.engine.run? generation = some run ∧ run.spec = spec ∧ run.cwd = s.root
  prompt : ∀ kind, m.progress ≠ .waits (.prompt kind)

theorem asking_ask {s : Session} (numbered : s.engine.Numbered) (spec : QuerySpec) :
    Asking s spec (s.ask spec) := by
  have asked : Reaches s.engine (s.engine.startComplete spec s.root).2 :=
    .of_act? (a := .startComplete spec s.root) rfl
  have isWords : ∀ x ∈ [Effect.notice (queryNotice spec.pattern)], x.isWords = true := by
    simp [Effect.isWords]
  unfold ask
  dsimp only
  split
  case h_1 run started =>
    have starts : s.engine.started? (.startComplete spec s.root) = some run := by
      simp [Engine.started?, started, Outcome.value?]
    obtain ⟨found, number, -, -, -⟩ := Engine.run?_of_started? numbered rfl starts
    obtain ⟨spec', root, discards, response, machine, opening, -, origin⟩ :=
      Engine.opening_of_started? starts
    have opened : run.spec = spec ∧ run.cwd = s.root := by
      rcases origin with ⟨same, -⟩ | ⟨same, -⟩
      · cases same
      · cases same
        rw [opening]
        exact ⟨rfl, rfl⟩
    refine ⟨asked, rfl, rfl, rfl, rfl, isWords, ?_, by simp [wait]⟩
    intro ticket generation waits
    cases waits
    exact ⟨rfl, number, run, found, opened.1, opened.2⟩
  case h_2 e started =>
    refine ⟨asked, rfl, rfl, rfl, rfl, ?_, ?_, ?_⟩
    all_goals simp [after, queryFailed, give, Effect.isWords]
  case h_3 started =>
    exact ⟨asked, rfl, rfl, rfl, rfl, isWords, by simp [give], by simp [give]⟩

/-! ### All parts -/

/-- A request is quiet up to the first point where it waits, or waits there for a pattern, or asks
its question at once. -/
theorem begin_cases (v : EditorView) (s : Session) (request : Request) :
    (request.asks? v = none ∧ Quiet s (s.begin v request)) ∨
      (request.asks? v = none ∧
        ∃ kind text, s.begin v request = s.wait [.prompted text] (.prompt kind)) ∨
      ∃ spec, request.asks? v = some spec ∧ s.begin v request = s.ask spec := by
  cases request with
  | start =>
    refine .inl ⟨rfl, ?_⟩
    show Quiet s (if s.engine.config.autoBuild then s.beginWatch else s.give [] .done)
    split
    · exact quiet_beginWatch
    · exact quiet_give ..
  | build => exact .inl ⟨rfl, quiet_build false⟩
  | setAutoBuild enabled => exact .inl ⟨rfl, quiet_setAutoBuild enabled⟩
  | reload config => exact .inl ⟨rfl, quiet_reload config⟩
  | query kind =>
    cases word : v.currentWord with
    | none =>
      refine .inl ⟨by simp [Request.asks?, word], ?_⟩
      simp only [begin, word]
      exact quiet_give ..
    | some word' =>
      exact .inr (.inr ⟨⟨kind, word'⟩, by simp [Request.asks?, word], by simp only [begin, word]⟩)
  | queryWithPrompt kind => exact .inr (.inl ⟨rfl, kind, _, rfl⟩)
  | run spec => exact .inr (.inr ⟨spec, rfl, rfl⟩)
  | showResults => exact .inl ⟨rfl, quiet_showResults⟩
  | jump item => exact .inl ⟨rfl, quiet_jump v item⟩
  | pop => exact .inl ⟨rfl, quiet_pop⟩
  | look what word => exact .inl ⟨rfl, quiet_look what word⟩

/-- The part that stores a result presents it, too. -/
def storing (s : Session) (result : Run.Settled) : Move :=
  { s with lastResults := some result }.showResults

theorem quiet_storing (s : Session) (result : Run.Settled) :
    Quiet { s with lastResults := some result } (s.storing result) :=
  quiet_showResults

theorem store?_eq_some {s : Session} {reason : Waiting} {reply : Reply} {st : Store} :
    s.store? reason reply = some st ↔
      reason = .run st.ticket st.generation ∧ reply = .settled ∧
        s.engine.result? st.generation = some (.ok st.result) ∧ s.tickets = st.ticket := by
  constructor
  · intro h
    unfold store? at h
    split at h
    case h_2 => cases h
    case h_1 ticket generation =>
      split at h
      case h_2 => cases h
      case h_1 result settled =>
        split at h
        case isFalse => cases h
        case isTrue latest => cases Option.some.inj h; exact ⟨rfl, rfl, settled, latest⟩
  · rintro ⟨rfl, rfl, settled, latest⟩
    simp [store?, settled, latest]

/-- What an operation does when it has got its reply: it returns, or asks its question, or stores
and presents results, or jumps, or begins a watch. -/
inductive Resumes (v : EditorView) (s : Session) : Waiting → Reply → Move → Prop
  | gives {reason reply} (effects : List Effect) (answer : Answer)
      (unasked : reason.asks? reply = none) (unstored : s.store? reason reply = none) :
      Resumes v s reason reply (s.give effects answer)
  | asks {kind pattern} (typed : pattern ≠ "") :
      Resumes v s (.prompt kind) (.prompted (some pattern)) (s.ask ⟨kind, pattern⟩)
  | stores {ticket generation result}
      (settled : s.engine.result? generation = some (.ok result)) (latest : s.tickets = ticket) :
      Resumes v s (.run ticket generation) .settled (s.storing result)
  | jumps {p} (item : Item) : Resumes v s (.pick p) (.picked (some item)) (jump v s item)
  | installs {b output} (built : b.result = .ok output) :
      Resumes v s (.building b true) .built (after [.notice b.notice] s.install)

/-- The cases of `Resumes` are all that an operation can do. -/
theorem resumes_of_resume? {v : EditorView} {s : Session} {reason : Waiting} {reply : Reply}
    {m : Move} (h : s.resume? v reason reply = some m) : Resumes v s reason reply m := by
  unfold resume? at h
  split at h
  case h_1 kind pattern =>
    split at h
    case h_1 p =>
      split at h
      case isTrue blank =>
        cases Option.some.inj h
        exact .gives _ _ (by simp [Waiting.asks?, blank]) rfl
      case isFalse typed => cases Option.some.inj h; exact .asks typed
    case h_2 => cases Option.some.inj h; exact .gives _ _ rfl rfl
  case h_2 ticket generation =>
    obtain ⟨result, settled, rfl⟩ := Option.map_eq_some_iff.mp h
    cases result with
    | error e => exact .gives _ _ rfl (by simp [store?, settled])
    | ok r =>
      simp only [Session.settled]
      split
      case isTrue latest => exact .stores settled latest
      case isFalse latest => exact .gives _ _ rfl (by simp [store?, settled, latest])
  case h_3 what generation =>
    obtain ⟨result, settled, rfl⟩ := Option.map_eq_some_iff.mp h
    exact .gives _ _ rfl rfl
  case h_4 p item =>
    split at h
    case h_1 i => cases Option.some.inj h; exact .jumps i
    case h_2 => cases Option.some.inj h; exact .gives _ _ rfl rfl
  case h_5 target failure =>
    split at h <;> cases Option.some.inj h <;> exact .gives _ _ rfl rfl
  case h_6 b thenWatch =>
    split at h
    case h_1 e failed => cases Option.some.inj h; exact .gives _ _ rfl rfl
    case h_2 output built =>
      split at h
      case isTrue watches => cases Option.some.inj h; subst watches; exact .installs built
      case isFalse => cases Option.some.inj h; exact .gives _ _ rfl rfl
  case h_7 => cases h

/-- An operation that has got its reply asks its question, or stores results, or is quiet. -/
theorem resume_cases {v : EditorView} {s : Session} {reason : Waiting} {reply : Reply} {m : Move}
    (h : s.resume? v reason reply = some m) :
    (reason.asks? reply = none ∧ s.store? reason reply = none ∧ Quiet s m) ∨
      (reason.asks? reply = none ∧
        ∃ st, s.store? reason reply = some st ∧ m = s.storing st.result) ∨
      ∃ spec kind, reason = .prompt kind ∧ reason.asks? reply = some spec ∧
        s.store? reason reply = none ∧ m = s.ask spec := by
  cases resumes_of_resume? h with
  | gives effects answer unasked unstored => exact .inl ⟨unasked, unstored, quiet_give ..⟩
  | @asks kind pattern typed =>
    exact .inr (.inr ⟨⟨kind, pattern⟩, kind, rfl, by simp [Waiting.asks?, typed], rfl, rfl⟩)
  | @stores ticket generation result settled latest =>
    refine .inr (.inl ⟨rfl, ⟨ticket, generation, result⟩, ?_, rfl⟩)
    exact store?_eq_some.mpr ⟨rfl, rfl, settled, latest⟩
  | jumps item => exact .inl ⟨rfl, rfl, quiet_jump v item⟩
  | installs built => exact .inl ⟨rfl, rfl, quiet_install.after _⟩

end Session

/-! ### What happens to a session -/

namespace Ongoing

variable {o o' : Ongoing}

theorem play?_cons {h : Happening} {happenings : List Happening} :
    o.play? (h :: happenings) = some o' ↔
      ∃ o₁, o.act? h = some o₁ ∧ o₁.play? happenings = some o' := by
  simp [play?, Option.bind_eq_some_iff]

theorem act?_resume {i : Nat} {view : EditorView} {reply : Reply} :
    o.act? (.resume i view reply) = some o' ↔
      ∃ op reason m, o.operations[i]? = some op ∧ op.progress = .waits reason ∧
        o.session.resume? view reason reply = some m ∧
        o' = ⟨m.session, o.operations.set i (op.go (reason.asks? reply) m)⟩ := by
  constructor
  · intro happens
    simp only [act?] at happens
    split at happens
    case h_1 => cases happens
    case h_2 op place =>
      split at happens
      case h_1 => cases happens
      case h_2 reason waits =>
        obtain ⟨m, resumes, rfl⟩ := Option.map_eq_some_iff.mp happens
        exact ⟨op, reason, m, place, waits, resumes, rfl⟩
  · rintro ⟨op, reason, m, place, waits, resumes, rfl⟩
    simp [act?, place, waits, resumes]

end Ongoing

end SymbolNav
