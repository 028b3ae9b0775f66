/-
  SymbolNav/Proofs/Engine/Course.lean
  ===================================
  **What can happen to an engine, seen from one of its runs.**

  An action leaves the runs alone, starts one, or lets one of them take a step;
  `Engine.Acts` says so once, and `acts_of_act?` that nothing else happens.  From
  it follow the numbering of the runs (`Numbered`) and the projection
  (`follow?_pathOf`): whatever happens to an engine, each of its runs comes along
  its own path of steps.  So what holds of a run along every path holds of every
  run of every engine (`exists_course`, and `Since` for the runs that have been
  started since an engine was new).
-/
import SymbolNav.Engine.Course
import SymbolNav.Proofs.Run.Ledger

namespace SymbolNav.Engine

open Run (Moves Fresh Kept moves_of_step?)

/-! ### Asking -/

/-- The run that a question starts when the indexer responds so. -/
def opening (e : Engine) (spec : QuerySpec) (cwd : Path) (discards : Bool)
    (response : Response) : Run :=
  Run.opened spec cwd (commandLine e.config.indexer (e.config.argsFor spec)) (e.latest + 1)
    discards e.config.readLimit response.lines response.failure?

/-- For this question the indexer can be started; it responds so, and leaves the machine so. -/
def Responds (e : Engine) (spec : QuerySpec) (cwd : Path) (response : Response)
    (machine : Host) : Prop :=
  e.host.launch e.config.indexer (e.config.argsFor spec) cwd = .ok (response, machine)

/-- The cases of asking a question: the indexer cannot be started, there cannot be as many
permits as the settings ask for, or a run starts. -/
inductive Spawns (e : Engine) (spec : QuerySpec) (cwd : Path) (discards : Bool) :
    Outcome Run × Engine → Prop
  | refused {fault}
      (launch : e.host.launch e.config.indexer (e.config.argsFor spec) cwd = .error fault) :
      Spawns e spec cwd discards (.failed fault, { e with
        lastQuery := some (commandLine e.config.indexer (e.config.argsFor spec)) })
  | crashed {response host} (responds : e.Responds spec cwd response host)
      (beyond : permitBound < e.config.readLimit) :
      Spawns e spec cwd discards (.crashed, { e with
        host, latest := e.latest + 1,
        lastQuery := some (commandLine e.config.indexer (e.config.argsFor spec)) })
  | asked {response host} (responds : e.Responds spec cwd response host)
      (within : e.config.readLimit ≤ permitBound) :
      Spawns e spec cwd discards (.value (e.opening spec cwd discards response), { e with
        host, latest := e.latest + 1, runs := e.runs ++ [e.opening spec cwd discards response],
        lastQuery := some (commandLine e.config.indexer (e.config.argsFor spec)) })

theorem spawns (e : Engine) (spec : QuerySpec) (cwd : Path) (discards : Bool) :
    Spawns e spec cwd discards (e.spawn spec cwd discards) := by
  unfold spawn
  dsimp only
  split
  case h_1 fault launch => exact .refused launch
  case h_2 response host responds =>
    split
    case isTrue beyond => exact .crashed responds beyond
    case isFalse within => exact .asked responds (Nat.le_of_not_lt within)

/-- Asking keeps the settings. -/
theorem config_spawn (e : Engine) (spec : QuerySpec) (cwd : Path) (discards : Bool) :
    (e.spawn spec cwd discards).2.config = e.config := by
  have cases := spawns e spec cwd discards
  generalize e.spawn spec cwd discards = result at cases
  cases cases with
  | refused launch => rfl
  | crashed responds beyond => rfl
  | asked responds within => rfl

/-- The cases of a build: the indexer cannot be started, or it responds.  Only the machine and the
command line of the latest build change. -/
inductive Builds (e : Engine) (cwd : Path) : Except Error Response × Engine → Prop
  | refused {fault}
      (launch : e.host.launch e.config.indexer e.config.buildArgv cwd = .error fault) :
      Builds e cwd (.error fault, { e with
        lastBuild := some (commandLine e.config.indexer e.config.buildArgv) })
  | responded {response host}
      (launch : e.host.launch e.config.indexer e.config.buildArgv cwd = .ok (response, host)) :
      Builds e cwd (.ok response, { e with
        host, lastBuild := some (commandLine e.config.indexer e.config.buildArgv) })

theorem builds (e : Engine) (cwd : Path) : Builds e cwd (e.startBuild cwd) := by
  unfold startBuild
  dsimp only
  split
  case h_1 launch => exact .refused launch
  case h_2 launch => exact .responded launch

/-- Building keeps the settings. -/
theorem config_startBuild (e : Engine) (cwd : Path) : (e.startBuild cwd).2.config = e.config := by
  have cases := builds e cwd
  generalize e.startBuild cwd = result at cases
  cases cases with
  | refused launch => rfl
  | responded launch => rfl

/-- What has started a run: a question under the settings of that moment. -/
theorem opening_of_started? {e : Engine} {a : Action} {run : Run}
    (started : e.started? a = some run) :
    ∃ spec cwd discards response machine, run = e.opening spec cwd discards response ∧
      e.Responds spec cwd response machine ∧
      (a = .start spec cwd ∧ discards = e.config.discardSuperseded ∨
        a = .startComplete spec cwd ∧ discards = false) := by
  have opened {spec : QuerySpec} {cwd : Path} {discards : Bool}
      (value : (e.spawn spec cwd discards).1.value? = some run) :
      ∃ response machine, run = e.opening spec cwd discards response ∧
        e.Responds spec cwd response machine := by
    have cases := spawns e spec cwd discards
    generalize e.spawn spec cwd discards = result at cases value
    cases cases with
    | refused launch => simp [Outcome.value?] at value
    | crashed responds beyond => simp [Outcome.value?] at value
    | asked responds within =>
      simp only [Outcome.value?, Option.some.injEq] at value
      exact ⟨_, _, value.symm, responds⟩
  cases a with
  | start spec cwd =>
    have value : (e.spawn spec cwd e.config.discardSuperseded).1.value? = some run := started
    obtain ⟨response, machine, run, responds⟩ := opened value
    exact ⟨spec, cwd, _, response, machine, run, responds, .inl ⟨rfl, rfl⟩⟩
  | startComplete spec cwd =>
    have value : (e.spawn spec cwd false).1.value? = some run := started
    obtain ⟨response, machine, run, responds⟩ := opened value
    exact ⟨spec, cwd, _, response, machine, run, responds, .inr ⟨rfl, rfl⟩⟩
  | _ => cases started

/-! ### The cases of an action -/

/-- What an action does to the runs and their numbers. -/
inductive Acts (e : Engine) : Action → Engine → Prop
  /-- No run is touched and no number taken. -/
  | idle {a e'} (latest : e'.latest = e.latest) (runs : e'.runs = e.runs)
      (started : e.started? a = none) (noStep : ∀ g, a.stepOf? g = none) : Acts e a e'
  /-- A number is taken for nothing. -/
  | lost {a e'} (latest : e'.latest = e.latest + 1) (runs : e'.runs = e.runs)
      (beyond : permitBound < e.config.readLimit)
      (started : e.started? a = none) (noStep : ∀ g, a.stepOf? g = none) : Acts e a e'
  | started {a e' run} (latest : e'.latest = e.latest + 1) (runs : e'.runs = e.runs ++ [run])
      (generation : run.generation = e.latest + 1) (fresh : Fresh run) (room : 0 < run.limit)
      (started : e.started? a = some run) (noStep : ∀ g, a.stepOf? g = none) : Acts e a e'
  | stepped {g step r r'} (run : e.run? g = some r) (moves : Moves e.surroundings r step r') :
      Acts e (.step g step) (e.updateRun g (fun _ => r'))

theorem acts_of_spawns {e : Engine} {spec : QuerySpec} {cwd : Path} {discards : Bool}
    {result : Outcome Run × Engine} {a : Action} (h : Spawns e spec cwd discards result)
    (started : e.started? a = result.1.value?) (noStep : ∀ g, a.stepOf? g = none) :
    Acts e a result.2 := by
  cases h with
  | refused launch => exact .idle rfl rfl started noStep
  | crashed responds beyond => exact .lost rfl rfl beyond started noStep
  | asked responds within =>
    refine .started rfl rfl rfl (Run.fresh_opened ..) ?_ started noStep
    simp only [opening, Run.opened, Config.readLimit]
    omega

/-- The cases of `Acts` are all that an action can do. -/
theorem acts_of_act? {e e' : Engine} {a : Action} (h : e.act? a = some e') : Acts e a e' := by
  cases a with
  | start spec cwd =>
    cases Option.some.inj h
    exact acts_of_spawns (spawns e spec cwd _) rfl (fun _ => rfl)
  | startComplete spec cwd =>
    cases Option.some.inj h
    exact acts_of_spawns (spawns e spec cwd false) rfl (fun _ => rfl)
  | startBuild cwd =>
    cases Option.some.inj h
    have cases := builds e cwd
    generalize e.startBuild cwd = result at cases
    cases cases with
    | refused launch | responded launch => exact .idle rfl rfl rfl (fun _ => rfl)
  | setConfig config => cases Option.some.inj h; exact .idle rfl rfl rfl (fun _ => rfl)
  | changeHost host => cases Option.some.inj h; exact .idle rfl rfl rfl (fun _ => rfl)
  | step g step =>
    simp only [act?, step?] at h
    split at h
    case h_1 => cases h
    case h_2 r run =>
      obtain ⟨r', happens, rfl⟩ := Option.map_eq_some_iff.mp h
      exact .stepped run (moves_of_step? happens)

/-! ### Finding a run -/

theorem generation_of_run? {e : Engine} {g : Nat} {r : Run} (h : e.run? g = some r) :
    r.generation = g := by
  simpa using List.find?_some h

/-- No two runs have the same number, so a run is found by its own. -/
theorem run?_of_mem {e : Engine} {r : Run} (member : r ∈ e.runs)
    (distinct : e.runs.Pairwise (fun r r' => r.generation < r'.generation)) :
    e.run? r.generation = some r := by
  obtain ⟨before, after, runs⟩ := List.append_of_mem member
  rw [runs, List.pairwise_append] at distinct
  have earlier : before.find? (fun r' => decide (r'.generation = r.generation)) = none := by
    refine List.find?_eq_none.mpr (fun r' hr' => ?_)
    have lower := distinct.2.2 r' hr' r List.mem_cons_self
    simp only [decide_eq_true_eq]
    omega
  unfold run?
  rw [runs, List.find?_append, earlier]
  simp

theorem run?_updateRun_self {e : Engine} {g : Nat} {r : Run} {f : Run → Run}
    (run : e.run? g = some r) (same : ∀ r, r.generation = g → (f r).generation = g) :
    (e.updateRun g f).run? g = some (f r) := by
  have found := generation_of_run? run
  unfold run? updateRun at *
  rw [List.find?_map]
  have keeps : ((fun r : Run => decide (r.generation = g)) ∘
      fun r => if r.generation = g then f r else r) = fun r => decide (r.generation = g) := by
    funext r
    by_cases h : r.generation = g <;> simp [h, same]
  rw [keeps, run]
  simp [found]

theorem run?_updateRun_other {e : Engine} {g g' : Nat} {r' : Run} (other : g' ≠ g)
    (same : r'.generation = g) : (e.updateRun g (fun _ => r')).run? g' = e.run? g' := by
  unfold run? updateRun
  rw [List.find?_map]
  have keeps : ((fun r : Run => decide (r.generation = g')) ∘
      fun r => if r.generation = g then r' else r) = fun r => decide (r.generation = g') := by
    funext r
    by_cases h : r.generation = g <;> simp [h, same]
  rw [keeps]
  cases found : e.runs.find? (fun r => decide (r.generation = g')) with
  | none => rfl
  | some r =>
    have generation : r.generation = g' := generation_of_run? (e := e) found
    simp [generation, other]

/-! ### Numbers -/

/-- Runs are numbered from one on as they start, and no number is given twice. -/
structure Numbered (e : Engine) : Prop where
  bounded : ∀ r ∈ e.runs, r.generation ≤ e.latest
  increasing : e.runs.Pairwise (fun r r' => r.generation < r'.generation)

theorem numbered_new (host : Host) (config : Config) : Numbered (new host config) :=
  ⟨by simp [new], by simp [new]⟩

/-- A number that has not been given yet has no run. -/
theorem Numbered.run?_eq_none {e : Engine} (h : Numbered e) {g : Nat} (later : e.latest < g) :
    e.run? g = none := by
  refine List.find?_eq_none.mpr (fun r hr => ?_)
  have bound := h.bounded r hr
  simp only [decide_eq_true_eq]
  omega

/-- A new run is found by its number. -/
theorem Numbered.run?_append {e e' : Engine} (h : Numbered e) {run : Run}
    (number : run.generation = e.latest + 1) (runs : e'.runs = e.runs ++ [run]) :
    e'.run? run.generation = some run := by
  have unknown : e.runs.find? (fun r => decide (r.generation = run.generation)) = none :=
    h.run?_eq_none (g := run.generation) (by omega)
  unfold run?
  rw [runs, List.find?_append, unknown]
  simp

theorem map_generation_updateRun {e : Engine} {g : Nat} {r' : Run} (same : r'.generation = g) :
    (e.updateRun g (fun _ => r')).runs.map Run.generation = e.runs.map Run.generation := by
  simp only [updateRun, List.map_map]
  refine List.map_congr_left (fun r _ => ?_)
  by_cases h : r.generation = g <;> simp [h, same]

theorem Numbered.of_map_eq {e e' : Engine} (h : Numbered e) (latest : e.latest ≤ e'.latest)
    (runs : e'.runs.map Run.generation = e.runs.map Run.generation) : Numbered e' := by
  constructor
  · intro r hr
    have member : r.generation ∈ e.runs.map Run.generation := runs ▸ List.mem_map_of_mem hr
    obtain ⟨r₀, hr₀, same⟩ := List.mem_map.mp member
    exact same ▸ Nat.le_trans (h.bounded r₀ hr₀) latest
  · have increasing := List.pairwise_map.mpr h.increasing
    rw [← runs] at increasing
    exact List.pairwise_map.mp increasing

theorem Acts.numbered {e e' : Engine} {a : Action} (h : Numbered e) (acts : Acts e a e') :
    Numbered e' := by
  cases acts with
  | idle latest runs => exact h.of_map_eq (Nat.le_of_eq latest.symm) (by rw [runs])
  | lost latest runs => exact h.of_map_eq (by omega) (by rw [runs])
  | stepped run moves =>
    exact h.of_map_eq (Nat.le_refl _)
      (map_generation_updateRun (moves.kept.generation.trans (generation_of_run? run)))
  | started latest runs generation =>
    constructor
    · rw [runs, latest]
      intro r hr
      rcases List.mem_append.mp hr with old | new
      · exact Nat.le_trans (h.bounded r old) (Nat.le_succ _)
      · rw [List.mem_singleton.mp new]
        omega
    · rw [runs]
      refine List.pairwise_append.mpr ⟨h.increasing, List.pairwise_singleton _ _, ?_⟩
      intro r hr r' hr'
      have bound := h.bounded r hr
      rw [List.mem_singleton.mp hr']
      omega

theorem Acts.latest_le {e e' : Engine} {a : Action} (acts : Acts e a e') :
    e.latest ≤ e'.latest := by
  cases acts with
  | idle latest runs => exact Nat.le_of_eq latest.symm
  | lost latest runs => omega
  | started latest runs => omega
  | stepped run moves => exact Nat.le_refl _

theorem play?_cons {e e' : Engine} {a : Action} {actions : List Action} :
    e.play? (a :: actions) = some e' ↔
      ∃ e₁, e.act? a = some e₁ ∧ e₁.play? actions = some e' := by
  simp [play?, Option.bind_eq_some_iff]

theorem play?_append {e : Engine} {actions more : List Action} :
    e.play? (actions ++ more) = (e.play? actions).bind (·.play? more) := by
  induction actions generalizing e with
  | nil => rfl
  | cons a actions ih =>
    simp only [List.cons_append, play?]
    cases happens : e.act? a with
    | none => rfl
    | some e₁ => exact ih

/-- What an action preserves is preserved by all that can happen. -/
theorem play_induction {P : Engine → Prop} {e e' : Engine} {actions : List Action} (start : P e)
    (plays : e.play? actions = some e') (step : ∀ a e e', P e → Acts e a e' → P e') : P e' := by
  induction actions generalizing e with
  | nil => cases Option.some.inj plays; exact start
  | cons a actions ih =>
    obtain ⟨e₁, happens, rest⟩ := play?_cons.mp plays
    exact ih (step a e e₁ start (acts_of_act? happens)) rest

theorem numbered_of_play? {e e' : Engine} {actions : List Action} (h : Numbered e)
    (plays : e.play? actions = some e') : Numbered e' :=
  play_induction h plays (fun _ _ _ h acts => acts.numbered h)

theorem latest_le_of_play? {e e' : Engine} {actions : List Action}
    (plays : e.play? actions = some e') : e.latest ≤ e'.latest :=
  play_induction (P := fun e' => e.latest ≤ e'.latest) (Nat.le_refl _) plays
    (fun _ _ _ h acts => Nat.le_trans h acts.latest_le)

/-! ### The path of a run -/

section Path

variable {e e' : Engine} {actions : List Action} {g : Nat}

theorem pathOf_cons {a : Action} {e₁ : Engine} (happens : e.act? a = some e₁) :
    pathOf g e (a :: actions) =
      ((a.stepOf? g).map (fun step => (e.surroundings, step))).toList ++ pathOf g e₁ actions := by
  simp [pathOf, happens]

/-- A run comes along its own steps, whatever else happens. -/
theorem follow?_pathOf {r : Run} (plays : e.play? actions = some e')
    (run : e.run? g = some r) :
    ∃ r', e'.run? g = some r' ∧ r.follow? (pathOf g e actions) = some r' := by
  induction actions generalizing e r with
  | nil => cases Option.some.inj plays; exact ⟨r, run, rfl⟩
  | cons a actions ih =>
    obtain ⟨e₁, happens, rest⟩ := play?_cons.mp plays
    rw [pathOf_cons happens]
    -- an action that is no step of this run leaves it in its place
    have untouched (same : e₁.run? g = some r) (noStep : a.stepOf? g = none) :
        ∃ r', e'.run? g = some r' ∧
          r.follow? (((a.stepOf? g).map (fun step => (e.surroundings, step))).toList ++
            pathOf g e₁ actions) = some r' := by
      simpa [noStep] using ih rest same
    cases acts_of_act? happens with
    | idle latest runs started noStep =>
      exact untouched (by simpa [run?, runs] using run) (noStep g)
    | lost latest runs beyond started noStep =>
      exact untouched (by simpa [run?, runs] using run) (noStep g)
    | started latest runs generation fresh room started noStep =>
      refine untouched ?_ (noStep g)
      unfold run? at run ⊢
      rw [runs, List.find?_append, run]
      rfl
    | @stepped g' step r₀ r₀' found moves =>
      have generation := moves.kept.generation.trans (generation_of_run? found)
      by_cases own : g = g'
      · subst own
        cases Option.some.inj (found.symm.trans run)
        obtain ⟨r', final, follows⟩ := ih rest (run?_updateRun_self run (fun _ _ => generation))
        refine ⟨r', final, ?_⟩
        simp [Action.stepOf?, Run.follow?, moves.step?, follows]
      · refine untouched ?_ (by simp [Action.stepOf?, Ne.symm own])
        rw [run?_updateRun_other own generation, run]

theorem map_snd_pathOf (plays : e.play? actions = some e') :
    (pathOf g e actions).map Prod.snd = actions.filterMap (Action.stepOf? g) := by
  induction actions generalizing e with
  | nil => rfl
  | cons a actions ih =>
    obtain ⟨e₁, happens, rest⟩ := play?_cons.mp plays
    rw [pathOf_cons happens, List.map_append, ih rest, List.filterMap_cons]
    cases a.stepOf? g <;> rfl

/-- A step on the path of a run is an action that happened. -/
theorem mem_of_mem_pathOf {s : Surroundings} {step : Run.Step} (plays : e.play? actions = some e')
    (member : (s, step) ∈ pathOf g e actions) : .step g step ∈ actions := by
  have own : step ∈ actions.filterMap (Action.stepOf? g) :=
    map_snd_pathOf plays ▸ List.mem_map_of_mem member
  obtain ⟨a, happened, isOwn⟩ := List.mem_filterMap.mp own
  cases a with
  | step g' step' =>
    simp only [Action.stepOf?] at isOwn
    split at isOwn
    case isTrue same => cases Option.some.inj isOwn; exact same ▸ happened
    case isFalse => cases isOwn
  | _ => simp [Action.stepOf?] at isOwn

theorem reader_of_mem_pathOf {reader : SourceReader} (plays : e.play? actions = some e')
    (reads : e.ReadsFrom reader actions) : ∀ x ∈ pathOf g e actions, x.1.reader = reader := by
  induction actions generalizing e with
  | nil => simp [pathOf]
  | cons a actions ih =>
    obtain ⟨e₁, happens, rest⟩ := play?_cons.mp plays
    rw [pathOf_cons happens]
    intro x hx
    rcases List.mem_append.mp hx with now | later
    · obtain ⟨step, _, rfl⟩ := Option.map_eq_some_iff.mp (Option.mem_toList.mp now)
      exact reads.1
    · exact ih rest (reads.2 e₁ happens) x later

/-- The numbers that a run has met on its path have been given by then. -/
theorem latest_of_mem_pathOf (plays : e.play? actions = some e') :
    ∀ x ∈ pathOf g e actions, e.latest ≤ x.1.latest ∧ x.1.latest ≤ e'.latest := by
  induction actions generalizing e with
  | nil => simp [pathOf]
  | cons a actions ih =>
    obtain ⟨e₁, happens, rest⟩ := play?_cons.mp plays
    have first := (acts_of_act? happens).latest_le
    have last := latest_le_of_play? rest
    rw [pathOf_cons happens]
    intro x hx
    rcases List.mem_append.mp hx with now | later
    · obtain ⟨step, _, rfl⟩ := Option.map_eq_some_iff.mp (Option.mem_toList.mp now)
      exact ⟨Nat.le_refl _, Nat.le_trans first last⟩
    · obtain ⟨low, high⟩ := ih rest x later
      exact ⟨Nat.le_trans first low, high⟩

end Path

/-! ### Where source lines come from -/

theorem sources_of_launch {machine machine' : Host} {command : String} {args : List String}
    {cwd : Path} {response : Response}
    (launch : machine.launch command args cwd = .ok (response, machine')) :
    machine'.sources = machine.sources := by
  obtain ⟨_, -, -, rfl⟩ := Host.of_launch launch
  rfl

theorem sources_of_spawns {e : Engine} {spec : QuerySpec} {cwd : Path} {discards : Bool}
    {result : Outcome Run × Engine} (h : Spawns e spec cwd discards result) :
    result.2.host.sources = e.host.sources := by
  cases h with
  | refused launch => rfl
  | crashed responds beyond => exact sources_of_launch responds
  | asked responds within => exact sources_of_launch responds

/-- Only a change of the machine takes away the reader that it has been given. -/
theorem sources_of_act? {e e' : Engine} {a : Action} (happens : e.act? a = some e')
    (unchanged : ∀ host, a ≠ .changeHost host) : e'.host.sources = e.host.sources := by
  cases a with
  | start spec cwd =>
    cases Option.some.inj happens
    exact sources_of_spawns (spawns e spec cwd _)
  | startComplete spec cwd =>
    cases Option.some.inj happens
    exact sources_of_spawns (spawns e spec cwd false)
  | startBuild cwd =>
    cases Option.some.inj happens
    have cases := builds e cwd
    generalize e.startBuild cwd = result at cases
    cases cases with
    | refused launch => rfl
    | responded launch => exact sources_of_launch launch
  | setConfig config => cases Option.some.inj happens; rfl
  | changeHost host => exact absurd rfl (unchanged host)
  | step g step =>
    simp only [act?, step?] at happens
    split at happens
    case h_1 => cases happens
    case h_2 r run =>
      obtain ⟨r', -, rfl⟩ := Option.map_eq_some_iff.mp happens
      rfl

/-- As long as the machine is not replaced, source lines come from the reader it was given. -/
theorem readsFrom_of_sources {e : Engine} {reader : SourceReader} {actions : List Action}
    (given : e.host.sources = some reader) (unchanged : ∀ host, .changeHost host ∉ actions) :
    e.ReadsFrom reader actions := by
  have now (e : Engine) (given : e.host.sources = some reader) : e.host.reader = reader := by
    simp [Host.reader, given]
  induction actions generalizing e with
  | nil => exact now e given
  | cons a actions ih =>
    refine ⟨now e given, fun e' happens => ?_⟩
    have kept := sources_of_act? happens (fun host h => unchanged host (by simp [h]))
    exact ih (kept.trans given) (fun host h => unchanged host (List.mem_cons_of_mem a h))

/-! ### A run from its start -/

section Start

variable {e e' : Engine}

/-- The run that an action starts takes the next number and is on its way from then on. -/
theorem run?_of_started? {a : Action} {run : Run} (numbered : Numbered e)
    (happens : e.act? a = some e') (started : e.started? a = some run) :
    e'.run? run.generation = some run ∧ run.generation = e.latest + 1 ∧
      e'.latest = e.latest + 1 ∧ Fresh run ∧ 0 < run.limit := by
  cases acts_of_act? happens with
  | idle latest runs nothing noStep => simp [nothing] at started
  | lost latest runs beyond nothing noStep => simp [nothing] at started
  | stepped found moves => simp [started?] at started
  | @started _ _ run' latest runs generation fresh room starts noStep =>
    obtain rfl : run' = run := Option.some.inj (starts.symm.trans started)
    exact ⟨numbered.run?_append generation runs, generation, latest, fresh, room⟩

/-- **The invariant of every run of every engine**: it has come along its path from its start. -/
theorem exists_course {a : Action} {run : Run} {e₁ : Engine} {later : List Action}
    (numbered : Numbered e) (happens : e.act? a = some e₁) (started : e.started? a = some run)
    (plays : e₁.play? later = some e') :
    ∃ r, e'.run? run.generation = some r ∧
      run.follow? (pathOf run.generation e₁ later) = some r ∧
      Run.Course (pathOf run.generation e₁ later) run r := by
  obtain ⟨found, -, -, fresh, -⟩ := run?_of_started? numbered happens started
  obtain ⟨r, final, follows⟩ := follow?_pathOf plays found
  exact ⟨r, final, follows, Run.course_of_follow? fresh follows⟩

/-- A start stands where it stands: after what came before it, and before what comes later. -/
theorem exists_earlier_of_mem_starts {actions : List Action} {o : Start}
    (plays : e.play? actions = some e') (h : o ∈ e.starts actions) :
    ∃ earlier, actions = earlier ++ o.action :: o.later ∧ e.play? earlier = some o.before ∧
      o.before.act? o.action = some o.after ∧ o.before.started? o.action = some o.run ∧
      o.after.play? o.later = some e' := by
  induction actions generalizing e with
  | nil => simp [starts] at h
  | cons a actions ih =>
    obtain ⟨e₁, happens, rest⟩ := play?_cons.mp plays
    simp only [starts, happens, List.mem_append, Option.mem_toList,
      Option.map_eq_some_iff] at h
    rcases h with ⟨run, started, rfl⟩ | h
    · exact ⟨[], rfl, rfl, happens, started, rest⟩
    · obtain ⟨earlier, split, first, now⟩ := ih rest h
      refine ⟨a :: earlier, by rw [split, List.cons_append], ?_, now⟩
      exact play?_cons.mpr ⟨e₁, happens, first⟩

/-- The runs of an engine are those it had and those that were started since, in this order. -/
theorem map_generation_of_play? {actions : List Action} (plays : e.play? actions = some e') :
    e'.runs.map Run.generation =
      e.runs.map Run.generation ++ (e.starts actions).map (·.run.generation) := by
  induction actions generalizing e with
  | nil => cases Option.some.inj plays; simp [starts]
  | cons a actions ih =>
    obtain ⟨e₁, happens, rest⟩ := play?_cons.mp plays
    simp only [starts, happens]
    rw [ih rest]
    cases acts_of_act? happens with
    | idle latest runs nothing noStep => simp [runs, nothing]
    | lost latest runs beyond nothing noStep => simp [runs, nothing]
    | started latest runs generation fresh room starts noStep => simp [runs, starts]
    | stepped found moves =>
      have same := moves.kept.generation.trans (generation_of_run? found)
      simp [map_generation_updateRun same, started?]

/-- Every run of an engine that was new once has been started by one of the actions since. -/
theorem exists_start {host : Host} {config : Config} {actions : List Action}
    (plays : (new host config).play? actions = some e) {r : Run} (member : r ∈ e.runs) :
    ∃ o ∈ (new host config).starts actions, o.run.generation = r.generation ∧
      e.run? o.run.generation = some r := by
  have generations := map_generation_of_play? plays
  have number : r.generation ∈ e.runs.map Run.generation := List.mem_map_of_mem member
  rw [generations] at number
  obtain ⟨o, started, same⟩ := List.mem_map.mp (by simpa [new] using number)
  refine ⟨o, started, same, same ▸ run?_of_mem member ?_⟩
  exact (numbered_of_play? (numbered_new host config) plays).increasing

/-- A start among those since the engine was new, and what has become of its run. -/
structure Since (o : Start) (e : Engine) (r : Run) : Prop where
  plays : o.after.play? o.later = some e
  found : e.run? o.run.generation = some r
  course : Run.Course (pathOf o.run.generation o.after o.later) o.run r
  latest : o.after.latest = o.run.generation
  started : o.before.started? o.action = some o.run

theorem Since.met {o : Start} {e : Engine} {r : Run} (h : Since o e r) :
    ∀ x ∈ pathOf o.run.generation o.after o.later,
      o.run.generation ≤ x.1.latest ∧ x.1.latest ≤ e.latest := by
  rw [← h.latest]
  exact latest_of_mem_pathOf h.plays

theorem Since.generation {o : Start} {e : Engine} {r : Run} (h : Since o e r) :
    r.generation = o.run.generation := generation_of_run? h.found

theorem since_of_mem_starts {host : Host} {config : Config} {actions : List Action} {e : Engine}
    (reached : (new host config).play? actions = some e) {o : Start}
    (start : o ∈ (new host config).starts actions) : ∃ r, Since o e r := by
  obtain ⟨earlier, -, first, happens, started, rest⟩ := exists_earlier_of_mem_starts reached start
  have numbered := numbered_of_play? (numbered_new host config) first
  obtain ⟨r, found, -, course⟩ := exists_course numbered happens started rest
  obtain ⟨-, number, latest, -, -⟩ := run?_of_started? numbered happens started
  exact ⟨r, rest, found, course, latest.trans number.symm, started⟩

/-- **Every run is what has become of a start.** -/
theorem exists_since {host : Host} {config : Config} {actions : List Action} {e : Engine}
    (reached : (new host config).play? actions = some e) {r : Run} (member : r ∈ e.runs) :
    ∃ o ∈ (new host config).starts actions, Since o e r := by
  obtain ⟨o, start, -, found⟩ := exists_start reached member
  obtain ⟨r', since⟩ := since_of_mem_starts reached start
  obtain rfl := Option.some.inj (since.found.symm.trans found)
  exact ⟨o, start, since⟩

end Start

end SymbolNav.Engine
