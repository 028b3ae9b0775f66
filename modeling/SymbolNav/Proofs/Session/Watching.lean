/-
  SymbolNav/Proofs/Session/Watching.lean
  ======================================
  **The watch and the settings stay in step** as long as the settings change by
  reloading only.

  Reloading compares the settings before and after and never looks at what the
  watch really watches.  That this is enough rests on `InStep`: a watch that is
  there is the one for the extensions of the settings.  All parts of operations
  but reloading keep the settings and at most replace the watch by that one or by
  none (`Steady`); reloading brings both into step with what it is given
  (`Reloaded`), at once or when the build that it waits for is over.
-/
import SymbolNav.Proofs.Session.Tickets

namespace SymbolNav

/-- The watch that the settings ask for. -/
def Config.watch? (c : Config) (root : Path) : Option Watch :=
  if c.autoBuild then some (.of c.extensions root) else none

/-! ### The settings of the engine -/

namespace Engine

/-- The action does not replace the settings. -/
def Action.KeepsConfig : Action → Prop
  | .setConfig _ => False
  | _ => True

theorem config_of_act? {e e' : Engine} {a : Action} (h : e.act? a = some e')
    (keeps : a.KeepsConfig) : e'.config = e.config := by
  cases a with
  | start spec cwd => cases Option.some.inj h; exact config_spawn ..
  | startComplete spec cwd => cases Option.some.inj h; exact config_spawn ..
  | startBuild cwd => cases Option.some.inj h; exact config_startBuild ..
  | setConfig config => exact keeps.elim
  | changeHost host => cases Option.some.inj h; rfl
  | step g step =>
    simp only [act?, step?] at h
    split at h
    · cases h
    · obtain ⟨r', -, rfl⟩ := Option.map_eq_some_iff.mp h
      rfl

end Engine

namespace Session

/-! ### Steady parts -/

/-- A watch that is there is the one for the extensions of the settings. -/
def InStep (s : Session) : Prop :=
  ∀ w, s.watch = some w → w = .of s.engine.config.extensions s.root

/-- The settings are kept, and so is the watch, unless it ends or begins anew for the extensions
of the settings. -/
structure Steady (s s' : Session) : Prop where
  config : s'.engine.config = s.engine.config
  root : s'.root = s.root
  watch : s'.watch = s.watch ∨ s'.watch = none ∨
    s'.watch = some (.of s.engine.config.extensions s.root)

section Steady

variable {s : Session}

theorem Steady.inStep {s' : Session} (h : Steady s s') (inStep : s.InStep) : s'.InStep := by
  intro w running
  rw [h.config, h.root]
  rcases h.watch with same | ended | begun
  · exact inStep w (same ▸ running)
  · cases ended.symm.trans running
  · exact Option.some.inj (running.symm.trans begun)

theorem steady_of_watch {s' : Session} (config : s'.engine.config = s.engine.config)
    (root : s'.root = s.root) (watch : s'.watch = s.watch) : Steady s s' :=
  ⟨config, root, .inl watch⟩

theorem steady_jump (v : EditorView) (item : Item) : Steady s (jump v s item).session := by
  unfold jump
  split <;> exact steady_of_watch rfl rfl rfl

theorem steady_pop : Steady s s.pop.session := by
  unfold pop
  dsimp only
  split <;> exact steady_of_watch rfl rfl rfl

theorem steady_showResults : Steady s s.showResults.session := by
  unfold showResults
  split <;> exact steady_of_watch rfl rfl rfl

theorem steady_ask (spec : QuerySpec) : Steady s (s.ask spec).session := by
  have config : (s.engine.startComplete spec s.root).2.config = s.engine.config :=
    Engine.config_spawn ..
  unfold ask
  dsimp only
  split <;> exact steady_of_watch config rfl rfl

theorem steady_look (what : Lookup) (word : String) : Steady s (s.look what word).session := by
  have config : (s.engine.startComplete ⟨what.kind, word⟩ s.root).2.config = s.engine.config :=
    Engine.config_spawn ..
  unfold look
  dsimp only
  split <;> exact steady_of_watch config rfl rfl

theorem config_build (s : Session) (thenWatch : Bool) :
    (s.build thenWatch).session.engine.config = s.engine.config ∧
      (s.build thenWatch).session.root = s.root ∧
      (s.build thenWatch).session.watch = s.watch := by
  have config : (s.engine.beginBuild s.root).2.2.config = s.engine.config := by
    rw [engine_of_beginBuild]
    exact Engine.config_startBuild ..
  unfold build
  dsimp only
  split <;> exact ⟨config, rfl, rfl⟩

/-- To begin a watch is to have the one for the extensions of the settings, or to fail and leave
everything as it is. -/
theorem install_cases (s : Session) :
    s.install = Session.give
        { s with watch := some (.of s.engine.config.extensions s.root) } [] .done ∨
      ∃ e, s.install = s.give [] (.failed e) := by
  unfold install
  split
  case h_1 w started =>
    have proper : w = .of s.engine.config.extensions s.root := by
      unfold Watch.start at started
      split at started
      · cases started
      · split at started
        · exact (Except.ok.inj started).symm
        · cases started
    exact .inl (by rw [proper])
  case h_2 e started => exact .inr ⟨e, rfl⟩

theorem steady_install : Steady s s.install.session := by
  rcases install_cases s with begun | ⟨e, failed⟩
  · rw [begun]
    exact ⟨rfl, rfl, .inr (.inr rfl)⟩
  · rw [failed]
    exact steady_of_watch rfl rfl rfl

theorem steady_build (thenWatch : Bool) : Steady s (s.build thenWatch).session := by
  obtain ⟨config, root, watch⟩ := config_build s thenWatch
  exact steady_of_watch config root watch

theorem steady_beginWatch : Steady s s.beginWatch.session := by
  unfold beginWatch
  split
  · exact steady_install
  · exact steady_build true

theorem steady_setAutoBuild (enabled : Bool) : Steady s (s.setAutoBuild enabled).session := by
  unfold setAutoBuild
  split
  · exact steady_beginWatch
  · exact ⟨rfl, rfl, .inr (.inl rfl)⟩

/-- Every request but reloading is steady up to the first point where it waits. -/
theorem steady_begin (v : EditorView) {request : Request} (other : ∀ c, request ≠ .reload c) :
    Steady s (s.begin v request).session := by
  cases request with
  | start =>
    simp only [begin]
    split
    · exact steady_beginWatch
    · exact steady_of_watch rfl rfl rfl
  | build => exact steady_build false
  | setAutoBuild enabled => exact steady_setAutoBuild enabled
  | reload c => exact absurd rfl (other c)
  | query kind =>
    simp only [begin]
    split
    · exact steady_ask _
    · exact steady_of_watch rfl rfl rfl
  | queryWithPrompt kind => exact steady_of_watch rfl rfl rfl
  | run spec => exact steady_ask spec
  | showResults => exact steady_showResults
  | jump item => exact steady_jump v item
  | pop => exact steady_pop
  | look what word => exact steady_look what word

/-- Every operation is steady from one point where it waits to the next. -/
theorem steady_resume {v : EditorView} {reason : Waiting} {reply : Reply} {m : Move}
    (h : s.resume? v reason reply = some m) : Steady s m.session := by
  cases resumes_of_resume? h with
  | gives effects answer => exact steady_of_watch rfl rfl rfl
  | asks typed => exact steady_ask _
  | @stores ticket generation result =>
    have shows := steady_showResults (s := { s with lastResults := some result })
    exact ⟨shows.config, shows.root, shows.watch⟩
  | jumps item => exact steady_jump v item
  | installs built => exact steady_install

end Steady

/-! ### Reloading -/

/-- How far reloading may have come, and the watch that is there then. -/
inductive Watches (c : Config) (root : Path) : Progress → Option Watch → Prop
  | done {watch} (wanted : watch = c.watch? root) : Watches c root (.returned .done) watch
  | failed (e : Error) : Watches c root (.returned (.failed e)) none
  /-- A watch is asked for, and begins when the build is over. -/
  | builds (b : Build) (asked : c.autoBuild = true) :
      Watches c root (.waits (.building b true)) none

/-- What holds of a session once it has been told to take these settings. -/
structure Reloaded (c : Config) (root : Path) (s : Session) (progress : Progress) : Prop where
  config : s.engine.config = c
  rooted : s.root = root
  watch : Watches c root progress s.watch

section Reloaded

variable {c : Config} {root : Path} {s : Session}

theorem Reloaded.inStep {progress : Progress} (h : Reloaded c root s progress) : s.InStep := by
  obtain ⟨rfl, rfl, watch⟩ := h
  intro w running
  rw [running] at watch
  cases watch with
  | done wanted =>
    unfold Config.watch? at wanted
    split at wanted
    · exact Option.some.inj wanted
    · cases wanted

/-- To begin a watch that the settings ask for, where none is running. -/
theorem reloaded_install (config : s.engine.config = c) (asked : c.autoBuild = true)
    (none : s.watch = none) : Reloaded c s.root s.install.session s.install.progress := by
  subst config
  rcases install_cases s with begun | ⟨e, failed⟩
  · rw [begun]
    exact ⟨rfl, rfl, .done (by simp [give, Config.watch?, asked])⟩
  · rw [failed]
    refine ⟨rfl, rfl, ?_⟩
    show Watches _ _ (.returned (.failed e)) s.watch
    rw [none]
    exact .failed e

theorem reloaded_beginWatch (config : s.engine.config = c) (asked : c.autoBuild = true)
    (none : s.watch = none) : Reloaded c s.root s.beginWatch.session s.beginWatch.progress := by
  unfold beginWatch
  split
  · exact reloaded_install config asked none
  · obtain ⟨kept, same, watch⟩ := config_build s true
    refine ⟨kept.trans config, same, ?_⟩
    rw [watch, none]
    unfold build
    dsimp only
    split
    · exact .builds _ asked
    · exact .failed _

/-- Reloading leaves the watch alone only if it is already as the settings ask for it. -/
theorem reloaded_reload (inStep : s.InStep) (valid : c.Valid) :
    Reloaded c s.root (s.reload c).session (s.reload c).progress := by
  have usable : c.fault? = none := valid
  unfold reload
  rw [usable]
  dsimp only
  split
  case isTrue changes =>
    split
    case isTrue asked =>
      exact reloaded_beginWatch
        (s := endWatch { s with engine := s.engine.setConfig c }) rfl asked rfl
    case isFalse unasked =>
      exact ⟨rfl, rfl, .done (by simp [give, endWatch, Config.watch?, unasked])⟩
  case isFalse same =>
    simp only [isWatching, not_or, not_and, not_not] at same
    obtain ⟨running, extensions⟩ := same
    have wanted : s.watch = c.watch? s.root := by
      cases watch : s.watch with
      | none => simp [Config.watch?, running, watch]
      | some w =>
        have current := extensions (by simp [watch])
        simp [Config.watch?, running, watch, inStep w watch, ← current]
    exact ⟨rfl, rfl, .done wanted⟩

/-- When the build that reloading waits for is over, it returns. -/
theorem Reloaded.returns {reason : Waiting} (h : Reloaded c root s (.waits reason))
    (v : EditorView) :
    ∃ m answer, s.resume? v reason .built = some m ∧ m.progress = .returned answer := by
  obtain ⟨-, -, watch⟩ := h
  generalize s.watch = watch? at watch
  cases watch with
  | builds b asked =>
    cases result : b.result with
    | error e =>
      exact ⟨s.give [.notice b.notice] (.failed e), .failed e, by simp [resume?, result], rfl⟩
    | ok output =>
      rcases install_cases s with begun | ⟨e, failed⟩
      · exact ⟨after [.notice b.notice] s.install, .done, by simp [resume?, result],
          by rw [begun]; rfl⟩
      · exact ⟨after [.notice b.notice] s.install, .failed e, by simp [resume?, result],
          by rw [failed]; rfl⟩

theorem Reloaded.resume {reason : Waiting} (h : Reloaded c root s (.waits reason))
    {v : EditorView} {reply : Reply} {m : Move} (resumes : s.resume? v reason reply = some m) :
    Reloaded c root m.session m.progress := by
  obtain ⟨config, rfl, watch⟩ := h
  generalize running : s.watch = watch? at watch
  cases watch with
  | builds b asked =>
    cases reply with
    | built =>
      simp only [resume?] at resumes
      split at resumes
      case h_1 e failed =>
        cases Option.some.inj resumes
        refine ⟨config, rfl, ?_⟩
        show Watches _ _ (.returned (.failed e)) s.watch
        rw [running]
        exact .failed e
      case h_2 output built =>
        cases Option.some.inj resumes
        exact reloaded_install config asked running
    | _ => cases resumes

end Reloaded

end Session

/-- The settings of the engine change at most by reloading. -/
def Happening.KeepsConfig : Happening → Prop
  | .engine a => a.KeepsConfig
  | _ => True

/-- Nothing is begun, and of the operations only the one at the place `n` goes on. -/
def Happening.Serves (n : Nat) : Happening → Prop
  | .begin .. => False
  | .resume i _ _ => i = n
  | .engine a => a.KeepsConfig

namespace Ongoing

open Session (InStep Steady Reloaded)

section Courses

variable {o o' : Ongoing}

/-! ### Any course of a session -/

theorem inStep_of_act? {happening : Happening} (inStep : o.session.InStep)
    (keeps : happening.KeepsConfig) (happens : o.act? happening = some o') :
    o'.session.InStep := by
  cases happening with
  | begin view request =>
    cases Option.some.inj happens
    by_cases reloads : ∃ c, request = .reload c
    · obtain ⟨c, rfl⟩ := reloads
      by_cases valid : c.Valid
      · exact (Session.reloaded_reload inStep valid).inStep
      · obtain ⟨e, fault⟩ := Option.ne_none_iff_exists'.mp valid
        simpa [Session.begin, Session.reload, fault, Session.give] using inStep
    · have steady := Session.steady_begin (s := o.session) view (not_exists.mp reloads)
      exact steady.inStep inStep
  | resume i view reply =>
    obtain ⟨op, reason, m, -, -, resumes, rfl⟩ := act?_resume.mp happens
    exact (Session.steady_resume resumes).inStep inStep
  | engine a =>
    obtain ⟨e', acts, rfl⟩ := Option.map_eq_some_iff.mp happens
    have steady : Steady o.session { o.session with engine := e' } :=
      Session.steady_of_watch (Engine.config_of_act? acts keeps) rfl rfl
    exact steady.inStep inStep

theorem inStep_of_play? {happenings : List Happening} (inStep : o.session.InStep)
    (keeps : ∀ h ∈ happenings, h.KeepsConfig) (plays : o.play? happenings = some o') :
    o'.session.InStep := by
  induction happenings generalizing o with
  | nil => cases Option.some.inj plays; exact inStep
  | cons happening happenings ih =>
    obtain ⟨o₁, happens, rest⟩ := play?_cons.mp plays
    obtain ⟨first, later⟩ := List.forall_mem_cons.mp keeps
    exact ih (inStep_of_act? inStep first happens) later rest

/-! ### One operation that reloads -/

/-- The operation at the place `n` reloads the settings `c`, and has come somewhere. -/
def Reloads (o : Ongoing) (n : Nat) (c : Config) (root : Path) : Prop :=
  ∃ op, o.operations[n]? = some op ∧ Reloaded c root o.session op.progress

variable {n : Nat} {c : Config} {root : Path}

theorem reloads_of_act? {happening : Happening} (h : o.Reloads n c root)
    (serves : happening.Serves n) (happens : o.act? happening = some o') : o'.Reloads n c root := by
  obtain ⟨op, place, reloaded⟩ := h
  cases happening with
  | begin view request => exact serves.elim
  | resume i view reply =>
    cases serves
    obtain ⟨op', reason, m, place', waits, resumes, rfl⟩ := act?_resume.mp happens
    cases Option.some.inj (place.symm.trans place')
    rw [waits] at reloaded
    exact ⟨_, (turn_resume place).now, reloaded.resume resumes⟩
  | engine a =>
    obtain ⟨e', acts, rfl⟩ := Option.map_eq_some_iff.mp happens
    have kept : e'.config = o.session.engine.config := Engine.config_of_act? acts serves
    exact ⟨op, place, kept.trans reloaded.config, reloaded.rooted, reloaded.watch⟩

theorem reloads_of_play? {later : List Happening} (h : o.Reloads n c root)
    (serves : ∀ h ∈ later, h.Serves n) (plays : o.play? later = some o') :
    o'.Reloads n c root := by
  induction later generalizing o with
  | nil => cases Option.some.inj plays; exact h
  | cons happening later ih =>
    obtain ⟨o₁, happens, rest⟩ := play?_cons.mp plays
    obtain ⟨first, others⟩ := List.forall_mem_cons.mp serves
    exact ih (reloads_of_act? h first happens) others rest

/-- The operation at the place `n` has returned. -/
def Returned (o : Ongoing) (n : Nat) : Prop :=
  ∃ op answer, o.operations[n]? = some op ∧ op.progress = .returned answer

/-- If reloading has not returned, then it waits for a build, and returns when that is over. -/
theorem Reloads.returns (h : o.Reloads n c root) (view : EditorView) :
    o.Returned n ∨ ∃ o', o.act? (.resume n view .built) = some o' ∧ o'.Returned n := by
  obtain ⟨op, place, reloaded⟩ := h
  cases progress : op.progress with
  | returned answer => exact .inl ⟨op, answer, place, progress⟩
  | waits reason =>
    rw [progress] at reloaded
    obtain ⟨m, answer, resumes, returned⟩ := reloaded.returns view
    refine .inr ⟨_, act?_resume.mpr ⟨op, reason, m, place, progress, resumes, rfl⟩, ?_⟩
    exact ⟨_, answer, (turn_resume place).now, returned⟩

end Courses

/-- **Reloading keeps the watch and the settings in step.**  Whatever has happened to a session
before: settings that cannot be used change nothing.  All others are the settings from then on, and
when the operation returns, there is the watch that they ask for, or after a failure none. -/
theorem reload_in_step {root : Path} {engine : Engine} {happenings : List Happening} {o : Ongoing}
    (reached : (new root engine).play? happenings = some o)
    (keeps : ∀ h ∈ happenings, h.KeepsConfig) (view : EditorView) (c : Config) :
    (∀ e, c.fault? = some e → o.act? (.begin view (.reload c)) = some ⟨o.session,
      o.operations ++ [⟨.reload c, none, [], .returned (.failed e)⟩]⟩) ∧
    (c.Valid → ∀ later o', (∀ h ∈ later, h.Serves o.operations.length) →
      o.play? (.begin view (.reload c) :: later) = some o' →
        o'.Reloads o.operations.length c o.session.root ∧
          (o'.Returned o.operations.length ∨ ∀ view', ∃ o'',
            o'.act? (.resume o.operations.length view' .built) = some o'' ∧
              o''.Returned o.operations.length)) := by
  have inStep : o.session.InStep :=
    inStep_of_play? (by simp [InStep, new, Session.new]) keeps reached
  constructor
  · intro e fault
    simp [act?, Session.begin, Session.reload, fault, Session.give, Operation.go, Request.asks?]
  · intro valid later o' serves plays
    obtain ⟨o₁, begun, rest⟩ := play?_cons.mp plays
    have start : o₁.Reloads o.operations.length c o.session.root := by
      cases Option.some.inj begun
      exact ⟨_, List.getElem?_concat_length, Session.reloaded_reload inStep valid⟩
    have reloads := reloads_of_play? start serves rest
    refine ⟨reloads, ?_⟩
    by_cases returned : o'.Returned o.operations.length
    · exact .inl returned
    · exact .inr (fun view' => (reloads.returns view').resolve_left returned)

open Engine.Sample in
/-- The extensions change while the watch for others is running, and there is no database. -/
theorem reload_in_step_extensions :
    let view : EditorView := ⟨none, none, none⟩
    let c : Config := { settings with autoBuild := true, extensions := ["rs"] }
    ∃ o o', (new root engine).play?
        [.begin view (.setAutoBuild true), .resume 0 view .built] = some o ∧
      o.session.watch = some (.of ["c", "h"] root) ∧
      o.play? [.begin view (.reload c), .resume 1 view .built] = some o' ∧
      o'.session.engine.config = c ∧ o'.session.watch = some (.of ["rs"] root) := by
  intro view c
  have ends : (((new root engine).play?
      [.begin view (.setAutoBuild true), .resume 0 view .built]).map fun o =>
        (o.session.watch, o.session.root, o.operations.length,
          (o.play? [.begin view (.reload c), .resume 1 view .built]).bind fun o' =>
            o'.operations[1]?.map Operation.progress)) =
      some (some (.of ["c", "h"] root), root, 1, some (.returned .done)) := by decide +kernel
  obtain ⟨o, reached, seen⟩ := Option.map_eq_some_iff.mp ends
  obtain ⟨watch, rooted, length, returned⟩ := by simpa only [Prod.mk.injEq] using seen
  obtain ⟨o', plays, last⟩ := Option.bind_eq_some_iff.mp returned
  obtain ⟨op, place, progress⟩ := Option.map_eq_some_iff.mp last
  have keeps : ∀ h ∈ [Happening.begin view (.setAutoBuild true), .resume 0 view .built],
      h.KeepsConfig := by simp [Happening.KeepsConfig]
  have serves : ∀ h ∈ [Happening.resume 1 view .built], h.Serves o.operations.length := by
    simp [Happening.Serves, length]
  obtain ⟨⟨op', place', reloaded⟩, -⟩ :=
    (reload_in_step reached keeps view c).2 (by decide +kernel) _ o' serves plays
  rw [length, place] at place'
  cases Option.some.inj place'
  rw [progress, rooted] at reloaded
  obtain ⟨config, -, watches⟩ := reloaded
  refine ⟨o, o', reached, watch, plays, config, ?_⟩
  cases watches with
  | done wanted => rw [wanted]; rfl

end Ongoing

end SymbolNav
